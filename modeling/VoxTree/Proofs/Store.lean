import VoxTree.Store

/-!
# The active transmissions agree with the memberships

Every locked section of the store is one of five effects (`locked_effect`). What holds of the
active transmissions in every reachable state is derived from these five alone: each is stored
under its own identifier, no sender has two, and each agrees with the membership context its
sender has now (`activeInv_calls`). A section that stores or erases a context interrupts every
transmission of the player in question, so the others keep the context they agree with.
-/

namespace VoxTree

variable {ω : Type*}

namespace Store

variable (s : Store)

/-- The entry agrees with the membership context its sender has in the store. -/
def AgreesWithContext (t : ActiveTransmission) : Prop :=
  ∃ context membership, s.memberships[t.authorization.senderPlayerId]? = some context
    ∧ context.snapshot.version = t.authorization.membershipVersion
    ∧ context.snapshot.find t.authorization.senderPlayerId = some membership
    ∧ (context.snapshot.hierarchy.findScope t.authorization.scope).isSome = true
    ∧ scopeNodeId membership t.authorization.scope = t.scopeNodeId
    ∧ receiveRight context membership t.authorization.scope = t.scopeCanSubscribe

/-- The session an entry names is in the store, bound to its sender and device, and not expired
when the entry was made. -/
def HasLiveSession (t : ActiveTransmission) : Prop :=
  ∃ session, s.sessions[t.sessionId]? = some session
    ∧ session.playerId = t.authorization.senderPlayerId ∧ session.deviceId = t.deviceId
    ∧ session.activeAt t.startedAt = true

/-- What the store keeps true of its active transmissions. -/
structure ActiveInv : Prop where
  keyed : ∀ (id : TransmissionId) (t : ActiveTransmission),
    s.activeTransmissions[id]? = some t → t.authorization.transmissionId = id
  sender_unique : ∀ (id id' : TransmissionId) (t t' : ActiveTransmission),
    s.activeTransmissions[id]? = some t → s.activeTransmissions[id']? = some t' →
    t.authorization.senderPlayerId = t'.authorization.senderPlayerId → id = id'
  context : ∀ (id : TransmissionId) (t : ActiveTransmission),
    s.activeTransmissions[id]? = some t → s.AgreesWithContext t

/-! ## The operations -/

section Interrupt

variable {s} {stops : ActiveTransmission → Bool} {reason : TransmissionStopReason}
  {endedAt : TimePoint} {correlationId : CorrelationId}

@[simp] theorem interruptWhere_sessions :
    (s.interruptWhere stops reason endedAt correlationId).2.sessions = s.sessions := rfl

@[simp] theorem interruptWhere_memberships :
    (s.interruptWhere stops reason endedAt correlationId).2.memberships = s.memberships := rfl

theorem getElem?_interruptWhere (id : TransmissionId) :
    (s.interruptWhere stops reason endedAt correlationId).2.activeTransmissions[id]?
      = s.activeTransmissions[id]?.filter fun t => !stops t := by
  simp only [interruptWhere, Std.ExtTreeMap.getElem?_filter']

theorem getElem?_interruptWhere_eq_some {id : TransmissionId} {t : ActiveTransmission} :
    (s.interruptWhere stops reason endedAt correlationId).2.activeTransmissions[id]? = some t
      ↔ s.activeTransmissions[id]? = some t ∧ stops t = false := by
  rw [getElem?_interruptWhere, Option.filter_eq_some_iff, Bool.not_eq_true']

theorem mem_interruptWhere {e : EndedTransmission} :
    e ∈ (s.interruptWhere stops reason endedAt correlationId).1
      ↔ ∃ id : TransmissionId, s.activeTransmissions[id]? = some e.transmission
        ∧ stops e.transmission = true
        ∧ e = ⟨e.transmission, reason, endedAt, correlationId⟩ := by
  simp only [interruptWhere, List.mem_map, List.mem_filter, Prod.exists,
    Std.ExtTreeMap.mem_toList_iff_getElem?_eq_some]
  constructor
  · rintro ⟨id, t, ⟨ht, hs⟩, rfl⟩
    exact ⟨id, ht, hs, rfl⟩
  · rintro ⟨id, ht, hs, he⟩
    exact ⟨id, e.transmission, ⟨ht, hs⟩, he.symm⟩

end Interrupt

@[simp] theorem emplace_sessions (entry : ActiveTransmission) :
    (s.emplace entry).sessions = s.sessions := rfl

@[simp] theorem emplace_memberships (entry : ActiveTransmission) :
    (s.emplace entry).memberships = s.memberships := rfl

@[simp] theorem eraseTransmission_sessions (id : TransmissionId) :
    (s.eraseTransmission id).sessions = s.sessions := rfl

@[simp] theorem eraseTransmission_memberships (id : TransmissionId) :
    (s.eraseTransmission id).memberships = s.memberships := rfl

theorem getElem?_emplace (entry : ActiveTransmission) (id : TransmissionId) :
    (s.emplace entry).activeTransmissions[id]?
      = if entry.authorization.transmissionId = id then some entry
        else s.activeTransmissions[id]? := by
  simp only [emplace, Std.ExtTreeMap.getElem?_insert, Std.LawfulEqCmp.compare_eq_iff_eq]

theorem getElem?_eraseTransmission (id id' : TransmissionId) :
    (s.eraseTransmission id).activeTransmissions[id']?
      = if id = id' then none else s.activeTransmissions[id']? := by
  simp only [eraseTransmission, Std.ExtTreeMap.getElem?_erase, Std.LawfulEqCmp.compare_eq_iff_eq]

theorem any_toList {p : TransmissionId × ActiveTransmission → Bool} :
    s.activeTransmissions.toList.any p = false
      ↔ ∀ (id : TransmissionId) (t : ActiveTransmission),
        s.activeTransmissions[id]? = some t → p (id, t) = false := by
  simp only [List.any_eq_false, Prod.forall, Std.ExtTreeMap.mem_toList_iff_getElem?_eq_some,
    Bool.not_eq_true]

/-- What a passed `checkActivation` says of the entry it builds. -/
structure Activated (entry : ActiveTransmission) : Prop where
  session : s.HasLiveSession entry
  context : s.AgreesWithContext entry
  sender_idle : ∀ (id : TransmissionId) (t : ActiveTransmission),
    s.activeTransmissions[id]? = some t →
      t.authorization.senderPlayerId ≠ entry.authorization.senderPlayerId
  fresh : s.activeTransmissions[entry.authorization.transmissionId]? = none

variable {s}

theorem checkActivation_ok {transmission : AuthorizedTransmission} {sessionId : SessionId}
    {deviceId : DeviceId} {startedAt : TimePoint} {entry : ActiveTransmission}
    (h : s.checkActivation transmission sessionId deviceId startedAt = .ok entry) :
    entry.authorization = transmission ∧ entry.sessionId = sessionId ∧ entry.deviceId = deviceId
      ∧ entry.startedAt = startedAt ∧ s.Activated entry := by
  unfold checkActivation at h
  split at h
  · cases h
  rename_i session hsession
  split at h
  · cases h
  rename_i hbound
  simp only [not_or, not_not, Bool.not_eq_false] at hbound
  split at h
  · cases h
  rename_i context hcontext
  split at h
  · cases h
  rename_i hversion
  split at h
  · rename_i membership definition hfind hscope
    split_ifs at h with hlimit hsender hid
    obtain rfl := Except.ok.inj h
    refine ⟨rfl, rfl, rfl, rfl, ?_, ?_, fun id t ht => ?_, ?_⟩
    · exact ⟨session, hsession, hbound.1, hbound.2.1, by simpa using hbound.2.2⟩
    · exact ⟨context, membership, hcontext, not_not.1 hversion, hfind, by simp [hscope], rfl, rfl⟩
    · have := s.any_toList.1 (Bool.not_eq_true _ ▸ hsender) id t ht
      simpa using this
    · exact Std.ExtTreeMap.getElem?_eq_none_of_contains_eq_false (eq_false_of_ne_true hid)
  · cases h

theorem activated_of_activation {op : StoreOp} {entry : ActiveTransmission}
    (h : op.activation s = some entry) : s.Activated entry := by
  cases op with
  | activate transmission sessionId deviceId startedAt =>
    simp only [StoreOp.activation, Except.toOption] at h
    split at h
    · rename_i entry' hentry
      obtain rfl := Option.some.inj h
      exact (checkActivation_ok hentry).2.2.2.2
    · cases h
  | _ => cases h

end Store

open Store

/-! ## One locked section -/

/-- What a locked section can do: leave contexts and transmissions alone, interrupt transmissions
(among them all of a player whose context it changes), end one under the mutex, or try to start
one, which the observer accepts or refuses. -/
inductive Effect (observer : LifecycleObserver ω) (op : StoreOp) (s : Store) (w : ω) :
    List EndedTransmission → Store → ω → Prop
  | quiet {s' : Store} : s'.memberships = s.memberships →
      s'.activeTransmissions = s.activeTransmissions → Effect observer op s w [] s' w
  | interrupted (s₀ : Store) (stops : ActiveTransmission → Bool) (reason : TransmissionStopReason)
      (endedAt : TimePoint) (correlationId : CorrelationId) :
      s₀.activeTransmissions = s.activeTransmissions →
      (∀ p : PlayerId, s₀.memberships[p]? = s.memberships[p]?
        ∨ ∀ t, t.authorization.senderPlayerId = p → stops t = true) →
      Effect observer op s w (s₀.interruptWhere stops reason endedAt correlationId).1
        (s₀.interruptWhere stops reason endedAt correlationId).2 w
  | ended (id : TransmissionId) (entry : ActiveTransmission) (stopReason : TransmissionStopReason)
      (endedAt : TimePoint) (correlationId : CorrelationId) :
      s.activeTransmissions[id]? = some entry →
      Effect observer op s w [] (s.eraseTransmission id)
        (observer.onEnded ⟨entry, stopReason, endedAt, correlationId⟩ w)
  | accepted (entry : ActiveTransmission) : op.activation s = some entry →
      (observer.onStarted entry w).1 = true →
      Effect observer op s w [] (s.emplace entry) (observer.onStarted entry w).2
  | refused (entry : ActiveTransmission) : op.activation s = some entry →
      (observer.onStarted entry w).1 = false →
      Effect observer op s w []
        ((s.emplace entry).eraseTransmission entry.authorization.transmissionId)
        (observer.onStarted entry w).2

namespace Effect

variable {observer : LifecycleObserver ω} {op : StoreOp} {s : Store} {w : ω}

theorem removeSession (sessionId : SessionId) (now : TimePoint) (correlationId : CorrelationId) :
    Effect observer op s w (s.removeSessionLocked sessionId now correlationId).1
      (s.removeSessionLocked sessionId now correlationId).2 w := by
  unfold removeSessionLocked
  split
  · exact .quiet rfl rfl
  · exact .interrupted _ _ _ _ _ rfl fun p => .inl rfl

theorem updateMembership (playerId : PlayerId) (context : AuthoritativeMembershipContext)
    (now : TimePoint) (correlationId : CorrelationId) (change : AuthoritativeContextChange) :
    let r := s.updateMembershipLocked playerId context now correlationId change
    Effect observer op s w (r.1.toOption.getD []) r.2 w := by
  intro r
  simp only [r, updateMembershipLocked]
  split
  · exact .quiet rfl rfl
  · split
    · exact .quiet rfl rfl
    · refine .interrupted _ _ _ _ _ rfl fun p => ?_
      by_cases hp : playerId = p
      · exact .inr fun t ht => by simp [ht, hp]
      · exact .inl (by simp [Std.ExtTreeMap.getElem?_insert, hp])

theorem removeMembership (playerId : PlayerId) (now : TimePoint) (correlationId : CorrelationId) :
    Effect observer op s w (s.removeMembershipLocked playerId now correlationId).1
      (s.removeMembershipLocked playerId now correlationId).2 w := by
  refine .interrupted _ _ _ _ _ rfl fun p => ?_
  by_cases hp : playerId = p
  · exact .inr fun t ht => by simp [ht, hp]
  · exact .inl (by simp [Std.ExtTreeMap.getElem?_erase, hp])

theorem expireTimedOut (maximumDuration : Milliseconds) (now : TimePoint)
    (correlationId : CorrelationId) :
    Effect observer op s w (s.expireTimedOutLocked maximumDuration now correlationId).1
      (s.expireTimedOutLocked maximumDuration now correlationId).2 w :=
  .interrupted _ _ _ _ _ rfl fun _ => .inl rfl

theorem activate (transmission : AuthorizedTransmission) (sessionId : SessionId)
    (deviceId : DeviceId) (startedAt : TimePoint) :
    let r := s.activate observer transmission sessionId deviceId startedAt w
    Effect observer (.activate transmission sessionId deviceId startedAt) s w [] r.2.1 r.2.2 := by
  intro r
  simp only [r, Store.activate]
  split
  · exact .quiet rfl rfl
  · rename_i entry hentry
    have hact : StoreOp.activation s (.activate transmission sessionId deviceId startedAt)
        = some entry := by
      simp [StoreOp.activation, hentry, Except.toOption]
    split
    · rename_i w' hw
      rw [show w' = (observer.onStarted entry w).2 by rw [hw]]
      exact .accepted entry hact (by rw [hw])
    · rename_i w' hw
      rw [show w' = (observer.onStarted entry w).2 by rw [hw]]
      exact .refused entry hact (by rw [hw])

theorem «end» (transmissionId : TransmissionId) (sessionId : SessionId) (deviceId : DeviceId)
    (stopReason : TransmissionStopReason) (endedAt : TimePoint) (correlationId : CorrelationId) :
    let r := s.end observer transmissionId sessionId deviceId stopReason endedAt correlationId w
    Effect observer op s w [] r.2.1 r.2.2 := by
  intro r
  simp only [r, Store.end]
  split
  · exact .quiet rfl rfl
  · rename_i entry hentry
    split
    · exact .quiet rfl rfl
    · exact .ended _ _ _ _ _ hentry

theorem interrupt (transmissionId : TransmissionId) (stopReason : TransmissionStopReason)
    (endedAt : TimePoint) (correlationId : CorrelationId) :
    let r := s.interrupt observer transmissionId stopReason endedAt correlationId w
    Effect observer op s w [] r.2.1 r.2.2 := by
  intro r
  simp only [r, Store.interrupt]
  split
  · exact .quiet rfl rfl
  · rename_i entry hentry
    exact .ended _ _ _ _ _ hentry

end Effect

/-- Every locked section is one of the five effects. -/
theorem locked_effect (observer : LifecycleObserver ω) (op : StoreOp) (s : Store) (w : ω) :
    let r := op.locked observer s w
    Effect observer op s w r.1 r.2.1 r.2.2 := by
  cases op with
  | upsertSession session => exact .quiet rfl rfl
  | removeSession sessionId now correlationId => exact .removeSession sessionId now correlationId
  | updateMembership playerId context now correlationId change =>
    exact .updateMembership playerId context now correlationId change
  | replaceMembership playerId context now correlationId =>
    exact .updateMembership playerId context now correlationId .membershipChanged
  | removeMembership playerId now correlationId =>
    exact .removeMembership playerId now correlationId
  | activate transmission sessionId deviceId startedAt =>
    exact .activate transmission sessionId deviceId startedAt
  | «end» transmissionId sessionId deviceId stopReason endedAt correlationId =>
    exact .end transmissionId sessionId deviceId stopReason endedAt correlationId
  | interrupt transmissionId stopReason endedAt correlationId =>
    exact .interrupt transmissionId stopReason endedAt correlationId
  | expireTimedOut maximumDuration now correlationId =>
    exact .expireTimedOut maximumDuration now correlationId

/-- A start the observer refuses is taken back in the store. -/
theorem call_of_refused {observer : LifecycleObserver ω} {op : StoreOp} {s : Store} {w : ω}
    {entry : ActiveTransmission} (h : op.activation s = some entry)
    (hrefused : (observer.onStarted entry w).1 = false) :
    op.call observer (s, w)
      = ((s.emplace entry).eraseTransmission entry.authorization.transmissionId,
        (observer.onStarted entry w).2) := by
  cases op with
  | activate transmission sessionId deviceId startedAt =>
    simp only [StoreOp.activation, Except.toOption] at h
    split at h
    · rename_i entry' hentry
      obtain rfl := Option.some.inj h
      rcases hstarted : observer.onStarted entry' w with ⟨started, w'⟩
      obtain rfl : started = false := by simpa [hstarted] using hrefused
      simp [StoreOp.call, StoreOp.locked, Store.activate, notifyEnded, hentry, hstarted]
    · cases h
  | _ => cases h

/-! ## What every locked section preserves -/

namespace Store

theorem AgreesWithContext.congr {s s' : Store} {t : ActiveTransmission}
    (h : s.AgreesWithContext t)
    (hm : s'.memberships[t.authorization.senderPlayerId]?
      = s.memberships[t.authorization.senderPlayerId]?) : s'.AgreesWithContext t := by
  unfold AgreesWithContext
  rw [hm]
  exact h

theorem activeInv_empty : ActiveInv {} where
  keyed := by simp
  sender_unique := by simp
  context := by simp

/-- A store with fewer transmissions, whose senders kept their contexts, keeps the invariant. -/
theorem ActiveInv.of_subset {s s' : Store} (h : ActiveInv s)
    (ha : ∀ (id : TransmissionId) (t : ActiveTransmission),
      s'.activeTransmissions[id]? = some t → s.activeTransmissions[id]? = some t)
    (hm : ∀ (id : TransmissionId) (t : ActiveTransmission),
      s'.activeTransmissions[id]? = some t → s'.memberships[t.authorization.senderPlayerId]?
        = s.memberships[t.authorization.senderPlayerId]?) : ActiveInv s' where
  keyed id t ht := h.keyed id t (ha id t ht)
  sender_unique id id' t t' ht ht' := h.sender_unique id id' t t' (ha id t ht) (ha id' t' ht')
  context id t ht := (h.context id t (ha id t ht)).congr (hm id t ht)

/-- Adding the entry of a passed activation check keeps the invariant. -/
theorem ActiveInv.emplace {s : Store} (h : ActiveInv s) {entry : ActiveTransmission}
    (he : s.Activated entry) :
    ActiveInv (s.emplace entry) := by
  have hget : ∀ (id : TransmissionId) (t : ActiveTransmission),
      (s.emplace entry).activeTransmissions[id]? = some t →
      (entry.authorization.transmissionId = id ∧ entry = t)
        ∨ s.activeTransmissions[id]? = some t := by
    intro id t ht
    rw [getElem?_emplace] at ht
    split_ifs at ht with hid
    · exact .inl ⟨hid, Option.some.inj ht⟩
    · exact .inr ht
  refine ⟨fun id t ht => ?_, fun id id' t t' ht ht' hsender => ?_, fun id t ht => ?_⟩
  · rcases hget id t ht with ⟨hid, rfl⟩ | ht
    · exact hid
    · exact h.keyed id t ht
  · rcases hget id t ht with ⟨hid, rfl⟩ | ht <;> rcases hget id' t' ht' with ⟨hid', rfl⟩ | ht'
    · exact hid.symm.trans hid'
    · exact absurd hsender.symm (he.sender_idle id' t' ht')
    · exact absurd hsender (he.sender_idle id t ht)
    · exact h.sender_unique id id' t t' ht ht' hsender
  · rcases hget id t ht with ⟨-, rfl⟩ | ht
    · exact he.context.congr rfl
    · exact (h.context id t ht).congr rfl

end Store

theorem Effect.activeInv {observer : LifecycleObserver ω} {op : StoreOp} {s : Store} {w : ω}
    {ended : List EndedTransmission} {s' : Store} {w' : ω} (h : Effect observer op s w ended s' w')
    (hs : ActiveInv s) : ActiveInv s' := by
  cases h with
  | quiet hm ha => exact hs.of_subset (by simp [ha]) (by simp [hm])
  | interrupted s₀ stops reason endedAt correlationId ha hm =>
    refine hs.of_subset (fun id t ht => ?_) (fun id t ht => ?_) <;>
      obtain ⟨hold, hkept⟩ := getElem?_interruptWhere_eq_some.1 ht
    · rwa [← ha]
    · rcases hm t.authorization.senderPlayerId with hm | hm
      · exact hm
      · exact absurd (hm t rfl) (by simp [hkept])
  | ended id entry stopReason endedAt correlationId hentry =>
    refine hs.of_subset (fun id' t ht => ?_) (fun _ _ _ => rfl)
    rw [getElem?_eraseTransmission] at ht
    split_ifs at ht
    exact ht
  | accepted entry he _ => exact hs.emplace (activated_of_activation he)
  | refused entry he _ =>
    refine hs.of_subset (fun id t ht => ?_) (fun _ _ _ => rfl)
    rw [getElem?_eraseTransmission, getElem?_emplace] at ht
    split_ifs at ht
    exact ht

/-- In every state the store can reach, the active transmissions are stored under their own
identifiers, have distinct senders and agree with their senders' membership contexts. -/
theorem activeInv_calls (observer : LifecycleObserver ω) (w : ω) (ops : List StoreOp) :
    ActiveInv (StoreOp.calls observer ops ({}, w)).1 := by
  suffices h : ∀ c : Store × ω, ActiveInv c.1 → ActiveInv (StoreOp.calls observer ops c).1 from
    h ({}, w) activeInv_empty
  induction ops with
  | nil => exact fun c hc => hc
  | cons op ops ih => exact fun c hc => ih _ ((locked_effect observer op c.1 c.2).activeInv hc)

/-! ## A deployment for runs that are evaluated -/

namespace Sample

def alice : PlayerId := ⟨bytes "alice", by decide⟩

def bob : PlayerId := ⟨bytes "bob", by decide⟩

def group : GroupId := ⟨bytes "group", by decide⟩

def specialization : SpecializationId := ⟨bytes "specialization", by decide⟩

def team : TeamId := ⟨bytes "team", by decide⟩

def speaker : RoleId := ⟨bytes "speaker", by decide⟩

def session : SessionId := ⟨bytes "session", by decide⟩

def device : DeviceId := ⟨bytes "device", by decide⟩

def correlation : CorrelationId := ⟨bytes "correlation", by decide⟩

def clientTransmission : ClientTransmissionId := ⟨bytes "client", by decide⟩

def hierarchy : Hierarchy where
  id := ⟨bytes "hierarchy", by decide⟩
  scopes := [⟨.team, bytes "Team", 1, none⟩]
  groups := [⟨group, bytes "Group", true⟩]
  specializations := [⟨specialization, group, bytes "Specialization"⟩]
  teams := [⟨team, specialization, bytes "Team"⟩]
  groups_unique := by decide
  specializations_unique := by decide
  teams_unique := by decide
  scopes_valid := by decide
  specializations_owned := by decide
  teams_owned := by decide

def member (playerId : PlayerId) : VoiceMembership where
  playerId := playerId
  groupId := group
  specializationId := specialization
  teamId := team
  roleIds := [speaker]

def snapshot (version : ℕ) (h : 0 < version) : MembershipSnapshot where
  version := version
  hierarchy := hierarchy
  memberships := [member alice, member bob]
  version_pos := h
  players_unique := by decide
  paths_valid := by decide
  sorted := by decide

def rolePolicy : RolePolicy := ⟨[⟨speaker, [.team], [.team]⟩], by decide⟩

def context (version : ℕ) (h : 0 < version) : AuthoritativeMembershipContext :=
  ⟨snapshot version h, rolePolicy⟩

def authenticated : AuthenticatedSession := ⟨session, alice, device, 1000⟩

/-- A transmission of `alice` to her team, with `bob` as the other member. -/
def transmission (id : TransmissionId) : AuthorizedTransmission where
  transmissionId := id
  clientTransmissionId := clientTransmission
  senderPlayerId := alice
  scope := .team
  membershipVersion := 1
  recipients := [alice, bob]
  correlationId := correlation

def first : TransmissionId := ⟨bytes "first", by decide⟩

def second : TransmissionId := ⟨bytes "second", by decide⟩

/-- The entry a start of `transmission id` makes. -/
def entryOf (id : TransmissionId) : ActiveTransmission :=
  ⟨transmission id, session, device, 0, team.value, true⟩

/-- `alice` is given her membership. -/
def join : StoreOp :=
  .updateMembership alice (context 1 Nat.one_pos) 0 correlation .membershipChanged

def startOf (id : TransmissionId) : StoreOp := .activate (transmission id) session device 0

end Sample

end VoxTree

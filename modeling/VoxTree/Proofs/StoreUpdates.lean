import VoxTree.Lifecycle
import VoxTree.Proofs.Store
import VoxTree.Lib.TreeMap

/-!
# Rejections and membership updates of the store

A rejected operation leaves the store as it was, also a start that the observer refuses after its
entry was emplaced. A membership update that is accepted stores a newer context, interrupts the
player's transmissions and nothing else. So the versions stored for a player rise until the
membership is removed.
-/

namespace VoxTree

variable {ω : Type*}

namespace StoreOp

variable (observer : LifecycleObserver ω)

/-- Whether the call returns an error. -/
def rejected : StoreOp → Store → ω → Bool
  | .updateMembership playerId context now correlationId change, s, _ =>
    !(s.updateMembershipLocked playerId context now correlationId change).1.isOk
  | .replaceMembership playerId context now correlationId, s, _ =>
    !(s.replaceMembershipLocked playerId context now correlationId).1.isOk
  | .activate transmission sessionId deviceId startedAt, s, w =>
    !(s.activate observer transmission sessionId deviceId startedAt w).1.isOk
  | .end transmissionId sessionId deviceId stopReason endedAt correlationId, s, w =>
    !(s.end observer transmissionId sessionId deviceId stopReason endedAt correlationId w).1.isOk
  | .interrupt transmissionId stopReason endedAt correlationId, s, w =>
    !(s.interrupt observer transmissionId stopReason endedAt correlationId w).1.isOk
  | _, _, _ => false

/-- The context the call stores for the player. -/
def storedFor (p : PlayerId) (s : Store) : StoreOp → Option AuthoritativeMembershipContext
  | .updateMembership playerId context now correlationId change =>
    if playerId = p
        ∧ (s.updateMembershipLocked playerId context now correlationId change).1.isOk = true then
      some context
    else none
  | .replaceMembership playerId context now correlationId =>
    if playerId = p
        ∧ (s.replaceMembershipLocked playerId context now correlationId).1.isOk = true then
      some context
    else none
  | _ => none

/-- Whether the call removes the player's membership. -/
def removes (p : PlayerId) : StoreOp → Bool
  | .removeMembership playerId _ _ => playerId = p
  | _ => false

/-- The versions stored for the player by one call of the run after the other. -/
def storedVersions (p : PlayerId) : List StoreOp → Store × ω → List ℕ
  | [], _ => []
  | op :: ops, c =>
    ((op.storedFor p c.1).map fun context => context.snapshot.version).toList
      ++ storedVersions p ops (op.call observer c)

end StoreOp

namespace Store

/-- The version stored for a player. -/
def versionOf (s : Store) (p : PlayerId) : Option ℕ :=
  s.memberships[p]?.map fun context => context.snapshot.version

/-- The reason a change of the context gives the transmissions it interrupts. -/
def changeReason : AuthoritativeContextChange → TransmissionStopReason
  | .permissionsChanged => .permissionRevoked
  | .membershipChanged => .membershipChanged

/-- What an accepted membership update makes of the store, and what it reports. -/
structure Updated (s : Store) (p : PlayerId) (context : AuthoritativeMembershipContext)
    (now : TimePoint) (correlationId : CorrelationId) (change : AuthoritativeContextChange)
    (ended : List EndedTransmission) (s' : Store) : Prop where
  newer : ∀ version, s.versionOf p = some version → version < context.snapshot.version
  stored : s'.memberships[p]? = some context
  others : ∀ q, q ≠ p → s'.memberships[q]? = s.memberships[q]?
  sessions : s'.sessions = s.sessions
  active : ∀ (id : TransmissionId) (t : ActiveTransmission),
    s'.activeTransmissions[id]? = some t
      ↔ s.activeTransmissions[id]? = some t ∧ t.authorization.senderPlayerId ≠ p
  /-- Each of the player's transmissions is reported once. -/
  reported : ∃ ids : List TransmissionId, ids.Nodup
    ∧ (∀ id, id ∈ ids ↔ ∃ t, s.activeTransmissions[id]? = some t
        ∧ t.authorization.senderPlayerId = p)
    ∧ ended = ids.filterMap fun id => s.activeTransmissions[id]?.map fun t =>
        ⟨t, changeReason change, now, correlationId⟩

variable {s : Store}

/-- The interrupted transmissions under their identifiers. -/
theorem interruptWhere_reported (s : Store) (stops : ActiveTransmission → Bool)
    (reason : TransmissionStopReason) (endedAt : TimePoint) (correlationId : CorrelationId) :
    ∃ ids : List TransmissionId, ids.Nodup
      ∧ (∀ id, id ∈ ids ↔ ∃ t, s.activeTransmissions[id]? = some t ∧ stops t = true)
      ∧ (s.interruptWhere stops reason endedAt correlationId).1
        = ids.filterMap fun id => s.activeTransmissions[id]?.map fun t =>
          ⟨t, reason, endedAt, correlationId⟩ := by
  let stopped := s.activeTransmissions.toList.filter fun entry => stops entry.2
  have hget : ∀ entry ∈ stopped, s.activeTransmissions[entry.1]? = some entry.2 := by
    rintro ⟨id, t⟩ h
    exact Std.ExtTreeMap.mem_toList_iff_getElem?_eq_some.1 (List.mem_of_mem_filter h)
  refine ⟨stopped.map Prod.fst, ?_, fun id => ?_, ?_⟩
  · exact (List.filter_sublist.map Prod.fst).nodup
      (TreeMap.nodup_map_fst_toList s.activeTransmissions)
  · simp [stopped, Std.ExtTreeMap.mem_toList_iff_getElem?_eq_some]
  · rw [List.filterMap_map]
    change stopped.map _ = _
    rw [← List.filterMap_eq_map]
    refine List.filterMap_congr fun entry hentry => ?_
    simp [hget entry hentry]

/-- A membership update is rejected and changes nothing, or is accepted. -/
theorem updateMembershipLocked_cases (s : Store) (p : PlayerId)
    (context : AuthoritativeMembershipContext) (now : TimePoint) (correlationId : CorrelationId)
    (change : AuthoritativeContextChange) :
    (∃ e, s.updateMembershipLocked p context now correlationId change = (.error e, s))
      ∨ ∃ ended s', s.updateMembershipLocked p context now correlationId change = (.ok ended, s')
        ∧ s.Updated p context now correlationId change ended s' := by
  unfold updateMembershipLocked
  split
  · exact .inl ⟨_, rfl⟩
  split_ifs with hnewer
  · exact .inl ⟨_, rfl⟩
  refine .inr ⟨_, _, rfl, fun version hversion => ?_, ?_, fun q hq => ?_, rfl, fun id t => ?_, ?_⟩
  · unfold versionOf at hversion
    rcases hp : s.memberships[p]? with _ | existing <;> rw [hp] at hversion hnewer
    · cases hversion
    · obtain rfl := Option.some.inj hversion
      simpa using hnewer
  · exact Std.ExtTreeMap.getElem?_insert_self
  · change (s.memberships.insert p context)[q]? = s.memberships[q]?
    rw [Std.ExtTreeMap.getElem?_insert, if_neg]
    exact fun heq => hq (Std.LawfulEqCmp.eq_of_compare heq).symm
  · refine getElem?_interruptWhere_eq_some.trans (and_congr_right fun _ => ?_)
    simp
  · obtain ⟨ids, hnodup, hids, hended⟩ := interruptWhere_reported
      { s with memberships := s.memberships.insert p context }
      (fun t => t.authorization.senderPlayerId = p) (changeReason change) now correlationId
    exact ⟨ids, hnodup, by simpa using hids, hended⟩

end Store

open Store

/-! ## Rejections -/

theorem Store.activate_error {observer : LifecycleObserver ω} {s : Store}
    {transmission : AuthorizedTransmission} {sessionId : SessionId} {deviceId : DeviceId}
    {startedAt : TimePoint} {w : ω}
    (h : (s.activate observer transmission sessionId deviceId startedAt w).1.isOk = false) :
    (s.activate observer transmission sessionId deviceId startedAt w).2.1 = s := by
  unfold activate at h ⊢
  split
  · rfl
  · rename_i entry hentry
    have hfresh := (checkActivation_ok hentry).2.2.2.2.fresh
    split
    · simp_all [Except.isOk, Except.toBool]
    · simp only [emplace, eraseTransmission, TreeMap.erase_insert_of_none hfresh]

/-- A rejected call leaves the store as it was and reports nothing as ended. -/
theorem StoreOp.locked_of_rejected {observer : LifecycleObserver ω} {op : StoreOp} {s : Store}
    {w : ω} (h : op.rejected observer s w = true) :
    (op.locked observer s w).1 = [] ∧ (op.locked observer s w).2.1 = s := by
  cases op with
  | updateMembership playerId context now correlationId change =>
    simp only [rejected, locked] at h ⊢
    rcases s.updateMembershipLocked_cases playerId context now correlationId change with
      ⟨e, he⟩ | ⟨ended, s', hok, -⟩
    · rw [he]
      exact ⟨rfl, rfl⟩
    · rw [hok] at h
      cases h
  | replaceMembership playerId context now correlationId =>
    simp only [rejected, locked, replaceMembershipLocked] at h ⊢
    rcases s.updateMembershipLocked_cases playerId context now correlationId .membershipChanged
      with ⟨e, he⟩ | ⟨ended, s', hok, -⟩
    · rw [he]
      exact ⟨rfl, rfl⟩
    · rw [hok] at h
      cases h
  | activate transmission sessionId deviceId startedAt =>
    refine ⟨rfl, Store.activate_error ?_⟩
    simpa [rejected] using h
  | «end» transmissionId sessionId deviceId stopReason endedAt correlationId =>
    refine ⟨rfl, ?_⟩
    simp only [rejected, Bool.not_eq_true', locked, Store.end] at h ⊢
    split at h
    · rfl
    · split_ifs at h ⊢
      · rfl
      · cases h
  | interrupt transmissionId stopReason endedAt correlationId =>
    refine ⟨rfl, ?_⟩
    simp only [rejected, Bool.not_eq_true', locked, Store.interrupt] at h ⊢
    split at h
    · rfl
    · cases h
  | _ => cases h

/-! ## Versions -/

namespace StoreOp

variable {observer : LifecycleObserver ω}

/-- A membership update leaves for a player the context it stores for the player, or the one that
was there. -/
theorem memberships_update {s : Store} (p playerId : PlayerId)
    (context : AuthoritativeMembershipContext) (now : TimePoint) (correlationId : CorrelationId)
    (change : AuthoritativeContextChange) :
    let op : StoreOp := .updateMembership playerId context now correlationId change
    (s.updateMembershipLocked playerId context now correlationId change).2.memberships[p]?
        = (op.storedFor p s).or s.memberships[p]?
      ∧ ∀ c, op.storedFor p s = some c → ∀ version, s.versionOf p = some version →
        version < c.snapshot.version := by
  intro op
  simp only [op, storedFor]
  rcases s.updateMembershipLocked_cases playerId context now correlationId change with
    ⟨e, he⟩ | ⟨ended, s', hok, hupdated⟩
  · simp [he, Except.isOk, Except.toBool]
  · rw [hok]
    by_cases hp : playerId = p
    · subst hp
      have hnewer := hupdated.newer
      simpa [Except.isOk, Except.toBool, hupdated.stored] using hnewer
    · have hother := hupdated.others p (Ne.symm hp)
      simpa [hp] using hother

variable (observer) in
/-- What a call that does not remove the player's membership leaves stored for the player. -/
theorem memberships_locked {op : StoreOp} {s : Store} (w : ω) {p : PlayerId}
    (h : op.removes p = false) :
    (op.locked observer s w).2.1.memberships[p]? = (op.storedFor p s).or s.memberships[p]?
      ∧ ∀ c, op.storedFor p s = some c → ∀ version, s.versionOf p = some version →
        version < c.snapshot.version := by
  cases op with
  | upsertSession session => simp [locked, storedFor, Store.upsertSession]
  | removeSession sessionId now correlationId =>
    have hsame : (s.removeSessionLocked sessionId now correlationId).2.memberships
        = s.memberships := by
      unfold removeSessionLocked
      split <;> rfl
    simp [locked, storedFor, hsame]
  | updateMembership playerId context now correlationId change =>
    exact memberships_update p playerId context now correlationId change
  | replaceMembership playerId context now correlationId =>
    exact memberships_update p playerId context now correlationId .membershipChanged
  | removeMembership playerId now correlationId =>
    have hp : playerId ≠ p := by simpa [removes] using h
    simp [locked, storedFor, removeMembershipLocked, interruptForPlayerLocked,
      Std.ExtTreeMap.getElem?_erase, hp]
  | activate transmission sessionId deviceId startedAt =>
    have hsame : (s.activate observer transmission sessionId deviceId startedAt w).2.1.memberships
        = s.memberships := by
      unfold Store.activate
      split
      · rfl
      · split <;> rfl
    simp [locked, storedFor, hsame]
  | «end» transmissionId sessionId deviceId stopReason endedAt correlationId =>
    have hsame : (s.end observer transmissionId sessionId deviceId stopReason endedAt correlationId
        w).2.1.memberships = s.memberships := by
      unfold Store.end
      split
      · rfl
      · split_ifs <;> rfl
    simp [locked, storedFor, hsame]
  | interrupt transmissionId stopReason endedAt correlationId =>
    have hsame : (s.interrupt observer transmissionId stopReason endedAt correlationId
        w).2.1.memberships = s.memberships := by
      unfold Store.interrupt
      split <;> rfl
    simp [locked, storedFor, hsame]
  | expireTimedOut maximumDuration now correlationId =>
    simp [locked, storedFor, expireTimedOutLocked]

/-- The version stored for a player, followed by those a run stores that does not remove the
player's membership, rises strictly. -/
theorem storedVersions_pairwise (p : PlayerId) : ∀ (ops : List StoreOp) (c : Store × ω),
    (∀ op ∈ ops, op.removes p = false) →
    ((c.1.versionOf p).toList ++ storedVersions observer p ops c).Pairwise (· < ·)
  | [], c, _ => by
    rcases c.1.versionOf p with _ | version <;> simp [storedVersions]
  | op :: ops, c, hops => by
    have ih := storedVersions_pairwise p ops (op.call observer c)
      fun op' hop' => hops op' (List.mem_cons_of_mem _ hop')
    obtain ⟨hmemberships, hnewer⟩ := memberships_locked (s := c.1) observer c.2
      (hops op List.mem_cons_self)
    have hversion : (op.call observer c).1.versionOf p
        = ((op.storedFor p c.1).or c.1.memberships[p]?).map fun context =>
          context.snapshot.version := by
      rw [← hmemberships]
      rfl
    rw [hversion] at ih
    simp only [storedVersions]
    rcases hstored : op.storedFor p c.1 with _ | context
    · rw [hstored] at ih
      simpa [versionOf] using ih
    · rw [hstored] at ih
      have hold := hnewer context hstored
      rcases hp : c.1.versionOf p with _ | version
      · simpa using ih
      · have hlt := hold version hp
        simp only [Option.some_or, Option.map_some, Option.toList_some, List.singleton_append,
          List.pairwise_cons, List.mem_cons, forall_eq_or_imp] at ih ⊢
        exact ⟨⟨hlt, fun v hv => Nat.lt_trans hlt (ih.1 v hv)⟩, ih⟩

end StoreOp

/-- Rejected operations change nothing, the versions stored for a player rise between removals,
and an accepted membership update stores the context, interrupts the player's transmissions, tells
the observer of each, and leaves everything else. -/
theorem store_updates (observer : LifecycleObserver ω) :
    (∀ (op : StoreOp) (s : Store) (w : ω), op.rejected observer s w = true →
      (op.locked observer s w).2.1 = s)
    ∧ (∀ (p : PlayerId) (ops : List StoreOp) (c : Store × ω),
      (∀ op ∈ ops, op.removes p = false) →
      ((c.1.versionOf p).toList ++ StoreOp.storedVersions observer p ops c).Pairwise (· < ·))
    ∧ ∀ (s s' : Store) (w : ω) (p : PlayerId) (context : AuthoritativeMembershipContext)
      (now : TimePoint) (correlationId : CorrelationId) (change : AuthoritativeContextChange)
      (ended : List EndedTransmission),
      s.updateMembershipLocked p context now correlationId change = (.ok ended, s') →
      s.Updated p context now correlationId change ended s'
        ∧ (StoreOp.updateMembership p context now correlationId change).call observer (s, w)
          = (s', ended.foldl (fun w transmission => observer.onEnded transmission w) w) := by
  refine ⟨fun op s w h => (StoreOp.locked_of_rejected h).2,
    fun p ops c h => StoreOp.storedVersions_pairwise p ops c h,
    fun s s' w p context now correlationId change ended h => ⟨?_, ?_⟩⟩
  · rcases s.updateMembershipLocked_cases p context now correlationId change with
      ⟨e, he⟩ | ⟨ended', s'', hok, hupdated⟩
    · rw [he] at h
      cases h
    · rw [hok] at h
      obtain ⟨hended, rfl⟩ := Prod.mk.inj h
      obtain rfl := Except.ok.inj hended
      exact hupdated
  · simp only [StoreOp.call, StoreOp.locked, h]
    rfl

namespace Sample

/-- `alice` is a member and speaks. -/
def speaking : List StoreOp := [.upsertSession authenticated, join, startOf first]

/-- The second version of her membership arrives, with other rights. -/
def revoke : StoreOp :=
  .updateMembership alice (context 2 Nat.two_pos) 5 correlation .permissionsChanged

end Sample

open Sample in
theorem store_updates_revoke :
    ((startOf first).locked recorder {} []).2.1.sessions = ∅
      ∧ (StoreOp.storedVersions recorder alice (speaking ++ [revoke]) ({}, [])).Pairwise (· < ·)
      ∧ (revoke.call recorder (StoreOp.calls recorder speaking ({}, []))).1.memberships[alice]?
        = some (context 2 Nat.two_pos) := by
  obtain ⟨hrejected, hversions, hupdated⟩ := store_updates recorder
  refine ⟨?_, ?_, ?_⟩
  · rw [hrejected (startOf first) {} [] (by decide +kernel)]
  · exact hversions alice (speaking ++ [revoke]) ({}, []) (by decide +kernel)
  · have hended : ((StoreOp.calls recorder speaking ({}, [])).1.updateMembershipLocked alice
        (context 2 Nat.two_pos) 5 correlation .permissionsChanged).1
          = .ok [⟨entryOf first, .permissionRevoked, 5, correlation⟩] := by decide +kernel
    exact (hupdated (StoreOp.calls recorder speaking ({}, [])).1 _ [] alice _ 5 correlation
      .permissionsChanged _ (Prod.ext hended rfl)).1.stored

end VoxTree

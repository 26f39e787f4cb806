import VoxTree.Transmission
import VoxTree.Lifecycle
import VoxTree.Proofs.StoreUpdates

/-!
# An activation is current when no version is used twice

Between `authorizeStart` and `activate` the sender's context may be replaced any number of times.
`activate` compares one number, the version, so the recipients it records are those of the stored
context as long as nobody stores the authorized version again with other contents
(`activation_current`). The session is looked at once more and needs no condition.
-/

namespace VoxTree

open Machine Store StartMachine

namespace StartMachine

/-- No context is stored for the sender of an authorized start that has the authorized version
again but other recipients for it. -/
def VersionNotReused {ω : Type*} (c : State ω) : Action → Prop
  | .store op => ∀ t command now transmission context,
      c.threads t = .authorized command now transmission →
      op.storedFor transmission.senderPlayerId c.store = some context →
      transmission.membershipVersion = context.snapshot.version →
      resolution context transmission = .ok transmission.recipients
  | _ => True

/-- A context found in the store after a call was there before or is the one the call stores. -/
theorem memberships_locked {ω : Type*} {observer : LifecycleObserver ω} {op : StoreOp} {s : Store}
    {w : ω} {p : PlayerId} {context : AuthoritativeMembershipContext}
    (h : (op.locked observer s w).2.1.memberships[p]? = some context) :
    s.memberships[p]? = some context ∨ op.storedFor p s = some context := by
  rcases hremoves : op.removes p with _ | _
  · obtain ⟨hleft, -⟩ := StoreOp.memberships_locked observer w hremoves
    rw [hleft] at h
    rcases hstored : op.storedFor p s with _ | stored
    · exact .inl (by simpa [hstored] using h)
    · exact .inr (by simpa [hstored] using h)
  · -- a removed membership is not there
    cases op with
    | removeMembership playerId now correlationId =>
      obtain rfl : playerId = p := by simpa [StoreOp.removes] using hremoves
      simp [StoreOp.locked, removeMembershipLocked, interruptForPlayerLocked] at h
    | _ => cases hremoves

theorem resolve_version {snapshot : MembershipSnapshot} {rolePolicy : RolePolicy}
    {request : TransmissionRequest} {restrictions : List RecipientRestriction}
    {recipients : List PlayerId}
    (h : RecipientResolver.resolve snapshot rolePolicy request restrictions = .ok recipients) :
    request.membershipVersion = snapshot.version := by
  by_contra hne
  simp [RecipientResolver.resolve, hne] at h

/-- What an authorization says: the context it read resolves to its recipients. -/
theorem authorizeStart_ok {s : Store} {command : StartTransmissionCommand} {now : TimePoint}
    {id : TransmissionId} {transmission : AuthorizedTransmission}
    (h : authorizeStart s command now id = .ok transmission) :
    transmission.scope = command.scope
      ∧ ∃ context, s.memberships[transmission.senderPlayerId]? = some context
        ∧ transmission.membershipVersion = context.snapshot.version
        ∧ resolution context transmission = .ok transmission.recipients := by
  unfold authorizeStart at h
  split at h
  · cases h
  split at h
  · cases h
  rename_i context hcontext
  split at h
  · cases h
  rename_i recipients hresolve
  obtain rfl := Except.ok.inj h
  refine ⟨rfl, context, hcontext, rfl, ?_⟩
  have hversion := resolve_version hresolve
  simp only at hversion
  simp only [resolution, ← hversion, hresolve]

variable {ω : Type*} {observer : LifecycleObserver ω}

/-- As long as a start is authorized, the context stored under its version still resolves to its
recipients. -/
structure AuthorizedInv (c : State ω) : Prop where
  scope : ∀ t command now transmission, c.threads t = .authorized command now transmission →
    transmission.scope = command.scope
  resolved : ∀ t command now transmission, c.threads t = .authorized command now transmission →
    ∀ context, c.store.memberships[transmission.senderPlayerId]? = some context →
      transmission.membershipVersion = context.snapshot.version →
      resolution context transmission = .ok transmission.recipients

theorem authorizedInv_initial (w : ω) : AuthorizedInv (initial w) where
  scope _ _ _ _ h := by simp [initial] at h
  resolved _ _ _ _ h := by simp [initial] at h

/-- A step that authorizes nothing new keeps the invariant if the contexts it stores do. -/
theorem AuthorizedInv.of_store {c c' : State ω} (hc : AuthorizedInv c)
    (hthreads : ∀ t command now transmission, c'.threads t = .authorized command now transmission →
      c.threads t = .authorized command now transmission)
    (hstore : ∀ t command now transmission, c.threads t = .authorized command now transmission →
      ∀ context, c'.store.memberships[transmission.senderPlayerId]? = some context →
        transmission.membershipVersion = context.snapshot.version →
        c.store.memberships[transmission.senderPlayerId]? = some context
          ∨ resolution context transmission = .ok transmission.recipients) :
    AuthorizedInv c' where
  scope t command now transmission ht :=
    hc.scope t command now transmission (hthreads t command now transmission ht)
  resolved t command now transmission ht context hcontext hversion := by
    have ht' := hthreads t command now transmission ht
    rcases hstore t command now transmission ht' context hcontext hversion with hold | hnew
    · exact hc.resolved t command now transmission ht' context hold hversion
    · exact hnew

theorem update_authorized {threads : ℕ → Phase} {t t' : ℕ} {phase : Phase}
    {command : StartTransmissionCommand} {now : TimePoint} {transmission : AuthorizedTransmission}
    (h : Function.update threads t phase t' = .authorized command now transmission) :
    (t' = t ∧ phase = .authorized command now transmission)
      ∨ threads t' = .authorized command now transmission := by
  by_cases ht : t' = t
  · subst ht
    exact .inl ⟨rfl, by rwa [Function.update_self] at h⟩
  · exact .inr (by rwa [Function.update_of_ne ht] at h)

theorem AuthorizedInv.step {c c' : State ω} {a : Action} (hc : AuthorizedInv c)
    (hG : VersionNotReused c a) (h : step observer c a = some c') : AuthorizedInv c' := by
  cases a with
  | lookUp t command now allowed =>
    simp only [StartMachine.step] at h
    split at h
    · split at h
      · exact Option.some.inj h ▸ hc
      · obtain rfl := Option.some.inj h
        refine hc.of_store (fun t' _ _ _ ht' => ?_) fun _ _ _ _ _ _ hcontext _ => .inl hcontext
        exact (update_authorized ht').resolve_left fun h => nomatch h.2
    · cases h
  | authorize t id =>
    simp only [StartMachine.step] at h
    split at h
    · rename_i command now _
      split at h
      · obtain rfl := Option.some.inj h
        refine hc.of_store (fun t' _ _ _ ht' => ?_) fun _ _ _ _ _ _ hcontext _ => .inl hcontext
        exact (update_authorized ht').resolve_left fun h => nomatch h.2
      · rename_i transmission hauthorize
        obtain rfl := Option.some.inj h
        obtain ⟨hscope, context, hcontext, hversion, hresolved⟩ := authorizeStart_ok hauthorize
        refine ⟨fun t' command' now' transmission' ht' => ?_,
          fun t' command' now' transmission' ht' context' hcontext' hversion' => ?_⟩
        · rcases update_authorized ht' with ⟨-, hphase⟩ | hold
          · obtain ⟨rfl, rfl, rfl⟩ := Phase.authorized.inj hphase
            exact hscope
          · exact hc.scope t' _ _ _ hold
        · rcases update_authorized ht' with ⟨-, hphase⟩ | hold
          · obtain ⟨rfl, rfl, rfl⟩ := Phase.authorized.inj hphase
            rw [hcontext] at hcontext'
            exact Option.some.inj hcontext' ▸ hresolved
          · exact hc.resolved t' _ _ _ hold context' hcontext' hversion'
    · cases h
  | activate t =>
    simp only [StartMachine.step] at h
    split at h
    · rename_i command now transmission hphase
      obtain rfl := Option.some.inj h
      refine hc.of_store (fun t' _ _ _ ht' => ?_) fun _ _ _ transmission' _ context hcontext _ => ?_
      · exact (update_authorized ht').resolve_left fun h => nomatch h.2
      · let op : StoreOp := .activate transmission command.sessionId command.deviceId now
        have hlocked : (op.locked observer c.store c.observer).2.1.memberships[
            transmission'.senderPlayerId]? = some context := hcontext
        exact .inl ((memberships_locked hlocked).resolve_right nofun)
    · cases h
  | store op =>
    have hstep : (op.call observer (c.store, c.observer)).1 = c'.store
        ∧ c'.threads = c.threads := by
      cases op with
      | activate => simp [StartMachine.step] at h
      | _ =>
        simp only [StartMachine.step, Option.some.injEq] at h
        subst h
        exact ⟨rfl, rfl⟩
    obtain ⟨hstore, hthreads⟩ := hstep
    refine hc.of_store (fun _ _ _ _ ht => hthreads ▸ ht) fun t command now transmission ht context
      hcontext hversion => ?_
    rw [← hstore] at hcontext
    rcases memberships_locked hcontext with hold | hstored
    · exact .inl hold
    · exact .inr (hG t command now transmission context ht hstored hversion)

end StartMachine

/-- In every run in which no authorized version is stored again with other recipients, what an
activation records is what the sender's stored context resolves to at that moment, under a live
session of the sender and the device. -/
theorem activation_current {ω : Type*} {observer : LifecycleObserver ω} {w : ω}
    {as : List StartMachine.Action} {c : State ω}
    (h : Runs (StartMachine.step observer) VersionNotReused (initial w) as c) {t : ℕ}
    {command : StartTransmissionCommand} {now : TimePoint} {transmission : AuthorizedTransmission}
    (ht : c.threads t = .authorized command now transmission) {entry : ActiveTransmission}
    (hentry : (c.store.activate observer transmission command.sessionId command.deviceId now
      c.observer).1 = .ok entry) : Current c.store command now entry := by
  have hinv : AuthorizedInv c :=
    h.invariant (fun _ _ _ hc hG hs => hc.step hG hs) (authorizedInv_initial w)
  have hcheck : c.store.checkActivation transmission command.sessionId command.deviceId now
      = .ok entry := by
    unfold Store.activate at hentry
    split at hentry
    · cases hentry
    · rename_i entry' hcheck
      split at hentry
      · rw [hcheck, ← Except.ok.inj hentry]
      · cases hentry
  obtain ⟨hauth, hsession, hdevice, hstarted, hact⟩ := checkActivation_ok hcheck
  obtain ⟨context, membership, hcontext, hversion, -⟩ := hact.context
  obtain ⟨session, hlive⟩ := hact.session
  subst hauth
  exact
    { resolved := ⟨context, hcontext, hversion.symm,
        hinv.resolved t command now _ ht context hcontext hversion.symm⟩
      scope := hinv.scope t command now _ ht
      session := ⟨session, hstarted ▸ hlive⟩
      bound := ⟨hsession, hdevice, hstarted⟩ }

section Runs

open Sample

def command : StartTransmissionCommand where
  sessionId := session
  deviceId := device
  clientTransmissionId := (transmission first).clientTransmissionId
  scope := .team
  membershipVersion := 1
  correlationId := correlation

/-- `alice` is authorized for her team, in which `bob` receives. -/
def authorizeAlice : List StartMachine.Action :=
  [.store (.upsertSession authenticated), .store join, .lookUp 0 command 0 true,
    .authorize 0 first]

/-- The same version of the membership, in which `bob` does not receive. -/
def deafSnapshot : MembershipSnapshot where
  version := 1
  hierarchy := hierarchy
  memberships := [member alice, { member bob with canReceiveVoice := false }]
  version_pos := Nat.one_pos
  players_unique := by decide
  paths_valid := by decide
  sorted := by decide

def deafContext : AuthoritativeMembershipContext := ⟨deafSnapshot, rolePolicy⟩

/-- The membership is removed and stored again under the version it had. -/
def reuseVersion : List StartMachine.Action :=
  [.store (.removeMembership alice 0 correlation),
    .store (.updateMembership alice deafContext 0 correlation .membershipChanged)]

/-- Whether the step belongs to thread 0 or to no thread. -/
def onFirst : StartMachine.Action → Bool
  | .lookUp t _ _ _ => t = 0
  | .authorize t _ => t = 0
  | .activate t => t = 0
  | .store _ => true

/-- Whether the store is used only while thread 0 is not authorized. -/
def storesEarly (c : State (List LifecycleEvent)) : StartMachine.Action → Bool
  | .store _ => match c.threads 0 with
    | .authorized .. => false
    | _ => true
  | _ => true

theorem versionNotReused_of_storesEarly {c : State (List LifecycleEvent)}
    {a : StartMachine.Action} (hc : ∀ t, 0 < t → c.threads t = .outside)
    (h : storesEarly c a = true) : VersionNotReused c a := by
  cases a with
  | store op =>
    intro t command now transmission context ht
    obtain rfl : t = 0 := by
      by_contra hne
      simp [hc t (by omega)] at ht
    simp [storesEarly, ht] at h
  | _ => trivial

theorem outside_step {c c' : State (List LifecycleEvent)} {a : StartMachine.Action}
    (hc : ∀ t, 0 < t → c.threads t = .outside) (ha : onFirst a = true)
    (h : StartMachine.step recorder c a = some c') (t : ℕ) (ht : 0 < t) :
    c'.threads t = .outside := by
  have hupdate : ∀ phase, Function.update c.threads 0 phase t = .outside := fun phase => by
    rw [Function.update_of_ne (by omega), hc t ht]
  cases a with
  | store op =>
    cases op <;> simp [StartMachine.step] at h <;> subst h <;> exact hc t ht
  | lookUp t' command now allowed =>
    obtain rfl : t' = 0 := of_decide_eq_true ha
    simp only [StartMachine.step] at h
    split at h
    · split at h <;> obtain rfl := Option.some.inj h
      · exact hc t ht
      · exact hupdate _
    · cases h
  | authorize t' id =>
    obtain rfl : t' = 0 := of_decide_eq_true ha
    simp only [StartMachine.step] at h
    split at h
    · split at h <;> obtain rfl := Option.some.inj h <;> exact hupdate _
    · cases h
  | activate t' =>
    obtain rfl : t' = 0 := of_decide_eq_true ha
    simp only [StartMachine.step] at h
    split at h
    · obtain rfl := Option.some.inj h
      exact hupdate _
    · cases h

/-- The state in which `alice` is authorized and about to be activated. -/
theorem authorizeAlice_run : ∃ c : State (List LifecycleEvent),
    Runs (StartMachine.step recorder) VersionNotReused (initial []) authorizeAlice c
      ∧ c.threads 0 = .authorized command 0 (transmission first)
      ∧ (c.store.activate recorder (transmission first) session device 0 c.observer).1
        = .ok (entryOf first) := by
  have hsome : ((exec (restrict storesEarly (StartMachine.step recorder)) (initial [])
      authorizeAlice).any fun c => decide (c.threads 0 = .authorized command 0 (transmission first)
        ∧ (c.store.activate recorder (transmission first) session device 0 c.observer).1
          = .ok (entryOf first))) = true := by decide +kernel
  rcases he : exec (restrict storesEarly (StartMachine.step recorder)) (initial []) authorizeAlice
    with _ | c
  · simp [he] at hsome
  · refine ⟨c, ?_, by simpa [he] using hsome⟩
    exact runs_of_exec_restrict (I := fun c => ∀ t, 0 < t → c.threads t = .outside)
      (P := fun a => onFirst a = true) (fun _ _ _ hc ha hs => outside_step hc ha hs)
      (fun _ _ => versionNotReused_of_storesEarly) (fun _ _ => rfl) (by decide) he

/-- An activation after an authorization nothing came between. -/
theorem activation_current_alice : ∃ c : State (List LifecycleEvent),
    Runs (StartMachine.step recorder) VersionNotReused (initial []) authorizeAlice c
      ∧ Current c.store command 0 (entryOf first) := by
  obtain ⟨c, hrun, ht, hentry⟩ := authorizeAlice_run
  exact ⟨c, hrun, activation_current hrun ht hentry⟩

/-- The activation is accepted with `bob` among the recipients, while the context stored for
`alice` at that moment resolves to `alice` alone. -/
theorem activation_outdated : ∃ c : State (List LifecycleEvent),
    Runs (StartMachine.step recorder) Free (initial []) (authorizeAlice ++ reuseVersion) c
      ∧ c.threads 0 = .authorized command 0 (transmission first)
      ∧ (c.store.activate recorder (transmission first) session device 0 c.observer).1
        = .ok (entryOf first)
      ∧ (entryOf first).authorization.recipients = [alice, bob]
      ∧ c.store.memberships[alice]? = some deafContext
      ∧ resolution deafContext (transmission first) = .ok [alice] := by
  obtain ⟨c, hrun, hc⟩ := exists_run (StartMachine.step recorder)
    (authorizeAlice ++ reuseVersion) (s := initial [])
    (p := fun c => decide (c.threads 0 = .authorized command 0 (transmission first)
      ∧ (c.store.activate recorder (transmission first) session device 0 c.observer).1
        = .ok (entryOf first)
      ∧ c.store.memberships[alice]? = some deafContext)) (by decide +kernel)
  obtain ⟨ht, hentry, hcontext⟩ := of_decide_eq_true hc
  exact ⟨c, hrun, ht, hentry, rfl, hcontext, by decide +kernel⟩

end Runs

end VoxTree

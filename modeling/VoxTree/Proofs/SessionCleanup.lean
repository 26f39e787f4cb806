import VoxTree.SessionCleanup
import VoxTree.Proofs.FailClosed

/-!
# Transmissions and the sessions they were started from

The store's removal of a session interrupts its transmissions, but the repository still has the
session until the maintenance loop erases it there too, and until then a start that was received
before the expiry can be activated from it. A run without such a start keeps every active
transmission on a stored session of its player and device (`bound_of_noneBetween`).
-/

namespace VoxTree

open Machine

namespace SessionCleanup

variable {ω : Type*} {nextSession : ℕ → SessionId} {observer : LifecycleObserver ω}

/-- Sessions are only in the repository, under identifiers issued so far; every transmission has
its session, but those of a session that is about to be erased are gone. -/
structure CleanupInv (nextSession : ℕ → SessionId) (c : State ω) : Prop where
  repository : c.runtime.memory.sessions = ∅
  issued : ∀ (id : SessionId) (session : AuthenticatedSession),
    c.runtime.repository[id]? = some session → ∃ n < c.sessionsIssued, id = nextSession n
  bound : c.runtime.view.Bound
  removed : ∀ now sessionId remaining, c.maintenance = .removed now sessionId remaining →
    ∀ (id : TransmissionId) (t : ActiveTransmission),
      c.runtime.memory.activeTransmissions[id]? = some t → t.sessionId ≠ sessionId

theorem getElem?_view (r : RuntimeStore) (h : r.memory.sessions = ∅) (id : SessionId) :
    r.view.sessions[id]? = r.repository[id]? := by
  show (r.repository ∪ r.memory.sessions)[id]? = _
  rw [Std.ExtTreeMap.getElem?_union, h]
  simp

theorem cleanupInv_initial {sessionsIssued : ℕ} {repository : Sessions} (clock : TimePoint) (w : ω)
    (h : ∀ (id : SessionId) (session : AuthenticatedSession), repository[id]? = some session →
      ∃ n < sessionsIssued, id = nextSession n) :
    CleanupInv nextSession (initial sessionsIssued repository clock w) where
  repository := rfl
  issued := h
  bound id t ht := by
    have hempty : (∅ : Std.ExtTreeMap TransmissionId ActiveTransmission)[id]? = some t := ht
    simp at hempty
  removed _ _ _ h := by cases h

/-- A step that leaves the sessions alone and adds no transmission. -/
theorem CleanupInv.of_subset {c c' : State ω} (h : CleanupInv nextSession c)
    (hissued : c'.sessionsIssued = c.sessionsIssued)
    (hrepository : c'.runtime.repository = c.runtime.repository)
    (hmemory : c'.runtime.memory.sessions = c.runtime.memory.sessions)
    (hactive : ∀ (id : TransmissionId) (t : ActiveTransmission),
      c'.runtime.memory.activeTransmissions[id]? = some t →
        c.runtime.memory.activeTransmissions[id]? = some t)
    (hmaintenance : ∀ now sessionId remaining, c'.maintenance = .removed now sessionId remaining →
      c.maintenance = .removed now sessionId remaining) : CleanupInv nextSession c' where
  repository := hmemory.trans h.repository
  issued := by
    rw [hissued, hrepository]
    exact h.issued
  bound := h.bound.of_subset fun id t ht => by
    refine ⟨hactive id t ht, ?_⟩
    rw [getElem?_view _ (hmemory.trans h.repository), getElem?_view _ h.repository, hrepository]
  removed now sessionId remaining hremoved id t ht :=
    h.removed now sessionId remaining (hmaintenance _ _ _ hremoved) id t (hactive id t ht)

theorem CleanupInv.set {c : State ω} (h : CleanupInv nextSession c) (worker : ℕ) (phase : Worker) :
    CleanupInv nextSession (c.set worker phase) :=
  h.of_subset rfl rfl rfl (fun _ _ ht => ht) fun _ _ _ hremoved => hremoved

/-- Without an accepted activation no transmission is new. -/
theorem active_of_effect {op : StoreOp} {s s' : Store} {w w' : ω} {ended : List EndedTransmission}
    (h : Effect observer op s w ended s' w')
    (hop : ∀ entry, op.activation s = some entry → (observer.onStarted entry w).1 = false)
    {id : TransmissionId} {t : ActiveTransmission} (ht : s'.activeTransmissions[id]? = some t) :
    s.activeTransmissions[id]? = some t := by
  cases h with
  | quiet _ ha => rwa [ha] at ht
  | interrupted s₀ stops reason endedAt correlationId ha _ =>
    rw [← ha]
    exact (Store.getElem?_interruptWhere_eq_some.1 ht).1
  | ended id' entry stopReason endedAt correlationId _ =>
    rw [Store.getElem?_eraseTransmission] at ht
    split_ifs at ht
    exact ht
  | accepted entry hentry htrue => exact absurd htrue (by simp [hop entry hentry])
  | refused entry hentry _ =>
    rw [Store.getElem?_eraseTransmission, Store.getElem?_emplace] at ht
    split_ifs at ht
    exact ht

theorem CleanupInv.store {c c' : State ω} (h : CleanupInv nextSession c) {op : StoreOp}
    (hstep : step nextSession observer c (.store op) = some c') : CleanupInv nextSession c' := by
  have hresult : ∀ op : StoreOp, (∀ entry, op.activation c.runtime.view ≠ some entry) →
      CleanupInv nextSession { c with
        runtime := c.runtime.withView (op.call observer (c.runtime.view, c.observer)).1
        observer := (op.call observer (c.runtime.view, c.observer)).2 } := fun op hop => by
    refine h.of_subset rfl rfl rfl (fun id t ht => ?_) fun _ _ _ hremoved => hremoved
    exact active_of_effect (locked_effect observer op c.runtime.view c.observer)
      (fun entry hentry => absurd hentry (hop entry)) ht
  cases op with
  | upsertSession session => cases hstep
  | removeSession sessionId now correlationId => cases hstep
  | activate transmission sessionId deviceId startedAt => cases hstep
  | _ => exact Option.some.inj hstep ▸ hresult _ (fun entry hentry => by cases hentry)

theorem CleanupInv.activate {c c' : State ω} (h : CleanupInv nextSession c) {worker : ℕ}
    (hguard : NoneBetween observer c (.activate worker))
    (hstep : step nextSession observer c (.activate worker) = some c') :
    CleanupInv nextSession c' := by
  simp only [step] at hstep
  split at hstep
  · rename_i command now transmission hworker
    obtain rfl := Option.some.inj hstep
    by_cases haccepted : ∃ entry, c.runtime.view.checkActivation transmission command.sessionId
      command.deviceId now = .ok entry ∧ (observer.onStarted entry c.observer).1 = true
    · obtain ⟨entry, hentry, htrue⟩ := haccepted
      obtain ⟨-, hsession, -, -, hactivated⟩ := Store.checkActivation_ok hentry
      have hstore : (c.runtime.view.activate observer transmission command.sessionId
          command.deviceId now c.observer).2.1 = c.runtime.view.emplace entry := by
        rcases hstarted : observer.onStarted entry c.observer with ⟨started, w'⟩
        obtain rfl : started = true := by simpa [hstarted] using htrue
        simp [Store.activate, hentry, hstarted]
      have hemplaced : ∀ (id : TransmissionId) (t : ActiveTransmission),
          (c.runtime.view.emplace entry).activeTransmissions[id]? = some t →
            t = entry ∨ c.runtime.memory.activeTransmissions[id]? = some t := by
        intro id t ht
        rw [Store.getElem?_emplace] at ht
        split_ifs at ht
        · exact .inl (Option.some.inj ht).symm
        · exact .inr ht
      obtain ⟨session, hstored, hplayer, hdevice, -⟩ := hactivated.session
      have hview := h.bound.emplace ⟨session, hstored, hplayer, hdevice⟩
      rw [hstore]
      refine ⟨h.repository, h.issued, ?_, ?_⟩
      · exact hview
      · rintro sweep sessionId remaining hremoved id t ht rfl
        rcases hemplaced id t ht with rfl | hold
        · have hfalse := hguard command now transmission hworker sweep remaining
            (hsession ▸ hremoved) t hentry
          exact absurd htrue (by simp [hfalse])
        · exact h.removed sweep t.sessionId remaining hremoved id t hold rfl
    · have hkept := @Effect.activate _ observer c.runtime.view c.observer transmission
        command.sessionId command.deviceId now
      refine (h.set worker .idle).of_subset rfl rfl rfl (fun id t ht => ?_)
        fun _ _ _ hremoved => hremoved
      refine active_of_effect hkept (fun entry hentry => ?_) ht
      by_contra htrue
      have hok : c.runtime.view.checkActivation transmission command.sessionId command.deviceId now
          = .ok entry := by
        rcases hcheck : c.runtime.view.checkActivation transmission command.sessionId
          command.deviceId now with e | entry' <;>
          simp [StoreOp.activation, hcheck, Except.toOption] at hentry
        rw [hentry]
      exact haccepted ⟨entry, hok, by simpa using htrue⟩
  · cases hstep

/-- The transmissions of a session are gone once the store has removed it. -/
theorem CleanupInv.removeSession {c c' : State ω} (h : CleanupInv nextSession c)
    (hstep : step nextSession observer c .removeSession = some c') : CleanupInv nextSession c' := by
  simp only [step] at hstep
  split at hstep
  · rename_i now sessionId remaining hmaintenance
    obtain rfl := Option.some.inj hstep
    unfold RuntimeStore.removeSessionLocked RuntimeStore.currentSessionLocked
    rcases hstored : c.runtime.view.sessions[sessionId]? with _ | session
    · refine ⟨h.repository, h.issued, h.bound, ?_⟩
      rintro sweep id remaining' hremoved tid t ht rfl
      obtain ⟨rfl, rfl, rfl⟩ := Maintenance.removed.inj hremoved
      obtain ⟨session, hsession, -⟩ := h.bound tid t ht
      cases hstored.symm.trans hsession
    · have hkept : ∀ (tid : TransmissionId) (t : ActiveTransmission),
          ({ c.runtime.memory with sessions := c.runtime.memory.sessions.erase sessionId
            }.interruptForSessionLocked sessionId .disconnected now
            schedulerSessionCleanup).2.activeTransmissions[tid]? = some t →
          c.runtime.memory.activeTransmissions[tid]? = some t ∧ t.sessionId ≠ sessionId := by
        intro tid t ht
        obtain ⟨hold, hother⟩ := Store.getElem?_interruptWhere_eq_some.1 ht
        exact ⟨hold, by simpa using hother⟩
      have hempty : c.runtime.memory.sessions.erase sessionId = ∅ := by
        rw [h.repository]
        simp
      refine ⟨hempty, h.issued, ?_, ?_⟩
      · refine h.bound.of_subset fun tid t ht => ⟨(hkept tid t ht).1, ?_⟩
        rw [getElem?_view _ h.repository, getElem?_view _ hempty]
      · rintro sweep id remaining' hremoved tid t ht
        obtain ⟨rfl, rfl, rfl⟩ := Maintenance.removed.inj hremoved
        exact (hkept tid t ht).2
  · cases hstep

theorem CleanupInv.eraseSession {c c' : State ω} (h : CleanupInv nextSession c)
    (hstep : step nextSession observer c .eraseSession = some c') : CleanupInv nextSession c' := by
  simp only [step] at hstep
  split at hstep
  · rename_i now sessionId remaining hmaintenance
    obtain rfl := Option.some.inj hstep
    have herase : ∀ id : SessionId, id ≠ sessionId →
        (c.runtime.repository.erase sessionId)[id]? = c.runtime.repository[id]? := by
      intro id hid
      rw [Std.ExtTreeMap.getElem?_erase, if_neg]
      exact fun heq => hid (Std.LawfulEqCmp.eq_of_compare heq).symm
    refine ⟨h.repository, fun id session hid => ?_, ?_, fun _ _ _ hremoved => by cases hremoved⟩
    · by_cases heq : id = sessionId
      · rw [heq, Std.ExtTreeMap.getElem?_erase_self] at hid
        cases hid
      · exact h.issued id session (by rwa [← herase id heq])
    · refine h.bound.of_subset fun tid t ht => ⟨ht, ?_⟩
      have hother := herase t.sessionId (h.removed now sessionId remaining hmaintenance tid t ht)
      have hview := getElem?_view ⟨c.runtime.memory, c.runtime.repository.erase sessionId⟩
        h.repository t.sessionId
      exact hview.trans (hother.trans (getElem?_view _ h.repository _).symm)
  · cases hstep

/-- A new session has a new identifier, so it takes the place of none. -/
theorem CleanupInv.createSession {c : State ω} (h : CleanupInv nextSession c)
    (hunique : Function.Injective nextSession) (playerId : PlayerId) (deviceId : DeviceId)
    (expiresAt : TimePoint) : CleanupInv nextSession { c with
      runtime := { c.runtime with
        repository := c.runtime.repository.upsert
          ⟨nextSession c.sessionsIssued, playerId, deviceId, expiresAt⟩ }
      sessionsIssued := c.sessionsIssued + 1 } := by
  refine ⟨h.repository, fun id session hid => ?_, ?_, h.removed⟩
  · unfold Sessions.upsert at hid
    rw [Std.ExtTreeMap.getElem?_insert] at hid
    split_ifs at hid with heq
    · exact ⟨c.sessionsIssued, Nat.lt_succ_self _, (Std.LawfulEqCmp.eq_of_compare heq).symm⟩
    · obtain ⟨n, hn, hid⟩ := h.issued id session hid
      exact ⟨n, Nat.lt_succ_of_lt hn, hid⟩
  · intro tid t ht
    obtain ⟨session, hstored, hplayer, hdevice⟩ := h.bound tid t ht
    rw [getElem?_view _ h.repository] at hstored
    refine ⟨session, (getElem?_view ⟨c.runtime.memory, c.runtime.repository.upsert _⟩ h.repository
      t.sessionId).trans ?_, hplayer, hdevice⟩
    unfold Sessions.upsert
    rw [Std.ExtTreeMap.getElem?_insert, if_neg]
    · exact hstored
    · intro heq
      obtain ⟨n, hn, hid⟩ := h.issued t.sessionId session hstored
      have := hunique ((Std.LawfulEqCmp.eq_of_compare heq).trans hid)
      omega

theorem CleanupInv.step {c c' : State ω} (h : CleanupInv nextSession c)
    (hunique : Function.Injective nextSession) {a : Action} (hguard : NoneBetween observer c a)
    (hstep : step nextSession observer c a = some c') : CleanupInv nextSession c' := by
  cases a with
  | wait elapsed =>
    obtain rfl := Option.some.inj hstep
    exact h.of_subset rfl rfl rfl (fun _ _ ht => ht) fun _ _ _ hremoved => hremoved
  | createSession playerId deviceId expiresAt =>
    obtain rfl := Option.some.inj hstep
    exact h.createSession hunique playerId deviceId expiresAt
  | receive worker command =>
    simp only [SessionCleanup.step] at hstep
    split at hstep
    · exact Option.some.inj hstep ▸ h.set _ _
    · cases hstep
  | authenticate worker =>
    simp only [SessionCleanup.step] at hstep
    split at hstep
    · exact Option.some.inj hstep ▸ h.set _ _
    · cases hstep
  | lookUp worker allowed =>
    simp only [SessionCleanup.step] at hstep
    split at hstep
    · split at hstep
      · exact Option.some.inj hstep ▸ h.set _ _
      · exact Option.some.inj hstep ▸ h.set _ _
    · cases hstep
  | authorize worker id =>
    simp only [SessionCleanup.step] at hstep
    split at hstep
    · split at hstep
      · exact Option.some.inj hstep ▸ h.set _ _
      · exact Option.some.inj hstep ▸ h.set _ _
    · cases hstep
  | activate worker => exact h.activate hguard hstep
  | store op => exact h.store hstep
  | beginIteration =>
    simp only [SessionCleanup.step] at hstep
    split at hstep
    · obtain rfl := Option.some.inj hstep
      exact h.of_subset rfl rfl rfl (fun _ _ ht => ht) fun _ _ _ hremoved => by cases hremoved
    · cases hstep
  | listExpired =>
    simp only [SessionCleanup.step] at hstep
    split at hstep
    · obtain rfl := Option.some.inj hstep
      exact h.of_subset rfl rfl rfl (fun _ _ ht => ht) fun _ _ _ hremoved => by cases hremoved
    · cases hstep
  | removeSession => exact h.removeSession hstep
  | eraseSession => exact h.eraseSession hstep
  | endIteration =>
    obtain rfl := Option.some.inj hstep
    exact h.of_subset rfl rfl rfl (fun _ _ ht => ht) fun _ _ _ hremoved => by cases hremoved

/-- From any sessions left in the repository, and as long as no start is activated from a session
between its two removals, every active transmission in every state reached has its session stored,
of its player and device. -/
theorem bound_of_noneBetween (hunique : Function.Injective nextSession) {sessionsIssued : ℕ}
    {repository : Sessions} {clock : TimePoint} {w : ω} {as : List Action} {c : State ω}
    (hissued : ∀ (id : SessionId) (session : AuthenticatedSession),
      repository[id]? = some session → ∃ n < sessionsIssued, id = nextSession n)
    (hrun : Runs (SessionCleanup.step nextSession observer) (NoneBetween observer)
      (initial sessionsIssued repository clock w) as c) : c.runtime.view.Bound :=
  (hrun.invariant (fun _ _ _ h hguard hstep => CleanupInv.step h hunique hguard hstep)
    (cleanupInv_initial clock w hissued)).bound

section Runs

open Sample

def issuedSession (n : ℕ) : SessionId := ⟨115 :: List.replicate n 120, List.cons_ne_nil _ _⟩

theorem issuedSession_injective : Function.Injective issuedSession := fun m n h => by
  simpa [issuedSession] using congrArg (fun id => id.value.length) h

def startIssued : StartTransmissionCommand where
  sessionId := issuedSession 0
  deviceId := device
  clientTransmissionId := clientTransmission
  scope := .team
  membershipVersion := 1
  correlationId := correlation

/-- `alice` logs in for 10 ms and a start of hers is received and authorized. -/
def authorizeIssued : List Action :=
  [.createSession alice device 10000000, .store join, .receive 0 startIssued, .authenticate 0,
    .lookUp 0 true, .authorize 0 first]

/-- The 10 ms go by and the maintenance loop finds the session expired. -/
def findExpired : List Action := [.wait 10000000, .beginIteration, .listExpired]

/-- Whether the step is no activation between two removals. -/
def apart (c : State (List LifecycleEvent)) : Action → Bool
  | .activate _ => match c.maintenance with
    | .removed .. => false
    | _ => true
  | _ => true

theorem noneBetween_of_apart {c : State (List LifecycleEvent)} {a : Action}
    (h : apart c a = true) : NoneBetween recorder c a := by
  cases a with
  | activate worker =>
    intro command now transmission _ sweep remaining hremoved
    simp [apart, hremoved] at h
  | _ => trivial

/-- The start is activated before the session is removed. -/
theorem bound_of_noneBetween_apart : ∃ c,
    Runs (SessionCleanup.step issuedSession recorder) (NoneBetween recorder) (initial 0 ∅ 0 [])
        (authorizeIssued ++ [.activate 0] ++ findExpired ++ [.removeSession, .eraseSession]) c
      ∧ c.runtime.view.Bound := by
  obtain ⟨c, hrun, -⟩ := exists_run_restrict apart (SessionCleanup.step issuedSession recorder)
    (authorizeIssued ++ [.activate 0] ++ findExpired ++ [.removeSession, .eraseSession])
    (s := initial 0 ∅ 0 []) (p := fun c => c.observer.length = 2) (by decide +kernel)
  have hguarded := hrun.weaken fun c a => noneBetween_of_apart
  exact ⟨c, hguarded, bound_of_noneBetween issuedSession_injective (fun id session h => by simp at h)
    hguarded⟩

/-- The start is activated between the two removals of its session, and goes on without it. -/
theorem activated_between : ∃ c,
    Runs (SessionCleanup.step issuedSession recorder) Free (initial 0 ∅ 0 [])
        (authorizeIssued ++ findExpired ++ [.removeSession, .activate 0, .eraseSession]) c
      ∧ ¬c.runtime.view.Bound := by
  obtain ⟨c, hrun, horphan⟩ := exists_run (SessionCleanup.step issuedSession recorder)
    (authorizeIssued ++ findExpired ++ [.removeSession, .activate 0, .eraseSession])
    (s := initial 0 ∅ 0 []) (p := fun c => c.runtime.view.activeTransmissions[first]?.any fun t =>
      c.runtime.view.sessions[t.sessionId]?.isNone) (by decide +kernel)
  refine ⟨c, hrun, fun hbound => ?_⟩
  rcases ht : c.runtime.view.activeTransmissions[first]? with _ | t
  · rw [ht] at horphan
    cases horphan
  · obtain ⟨session, hstored, -⟩ := hbound first t ht
    rw [ht] at horphan
    simp [hstored] at horphan

end Runs

end SessionCleanup

end VoxTree

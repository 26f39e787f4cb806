import VoxTree.Proofs.ControlPlane

/-!
# The adapter fails closed

A request that is answered with an error leaves the store as it was. A change of the memberships
or of the active transmissions is made for a session the request names, and is one its player may
make. Both are read off one statement about a request (`handle_outcome`) and an invariant of the
runs of the control plane (`SessionInv`), by which a stored session and the transmissions it
started belong to one player and one device.
-/

namespace VoxTree

open Results

variable {ω ρ α : Type}

/-- The session that a request names: stored, active, and bound to the device of the request. -/
structure NamedSession (request : HttpRequest) (now : TimePoint) (s : Store)
    (session : AuthenticatedSession) : Prop where
  authorization : request.header "authorization" = bytes "Session " ++ session.sessionId.value
  device : request.header "x-hvc-device-id" = session.deviceId.value
  stored : s.sessions[session.sessionId]? = some session
  active : session.activeAt now = true

/-- Sessions are stored under their own identifiers, which have all been issued. -/
structure SessionInv (plane : ControlPlane ω ρ) (s : ControlPlaneState ω ρ) : Prop where
  keyed : ∀ (id : SessionId) (session : AuthenticatedSession),
    s.store.sessions[id]? = some session → session.sessionId = id
  issued : ∀ (id : SessionId) (session : AuthenticatedSession),
    s.store.sessions[id]? = some session →
      ∃ n < s.sessionsIssued, id = plane.sessionIds.nextSession n
  bound : s.store.Bound

namespace ControlPlane

open Network

variable {s : ControlPlaneState ω ρ} {plane : ControlPlane ω ρ} {now : TimePoint}

/-! ## A request -/

/-- A session with a new identifier is stored. -/
def LoginChange (plane : ControlPlane ω ρ) (s s' : ControlPlaneState ω ρ) : Prop :=
  ∃ session, s'.store = s.store.upsertSession session
    ∧ session.sessionId = plane.sessionIds.nextSession s.sessionsIssued
    ∧ s'.sessionsIssued = s.sessionsIssued + 1

def RequestChange (plane : ControlPlane ω ρ) (request : HttpRequest) (now : TimePoint)
    (s s' : ControlPlaneState ω ρ) : Prop :=
  LoginChange plane s s'
    ∨ ∃ session, NamedSession request now s.store session ∧ SessionChange plane s session s'

theorem nextSession_ensures :
    Ensures plane.nextSession s fun r s' =>
      r = .ok (plane.sessionIds.nextSession s.sessionsIssued) ∧ s'.audited = s.audited
        ∧ s'.sessionsIssued = s.sessionsIssued + 1 := ⟨rfl, rfl, rfl⟩

theorem authenticate_ensures (command : AuthenticateSessionCommand) :
    Ensures (plane.authenticate command now) s fun r s' => s'.audited = s.audited
      ∧ ((s'.sessionsIssued = s.sessionsIssued ∧ ∀ session, r ≠ .ok (.ok session))
        ∨ ∃ session, r = .ok (.ok session)
          ∧ session.sessionId = plane.sessionIds.nextSession s.sessionsIssued
          ∧ s'.sessionsIssued = s.sessionsIssued + 1) := by
  unfold authenticate
  refine (outside_ensures _).bind (fun e s' h => ⟨h.1, .inl ⟨h.2, nofun⟩⟩) ?_
  rintro verified s' ⟨haudited, hissued⟩
  rcases verified with error | identity
  · refine .pure ?_
    exact ⟨haudited, .inl ⟨hissued, nofun⟩⟩
  · refine nextSession_ensures.bind (fun e s'' h => by cases h.1) ?_
    rintro sessionId s'' ⟨hid, haudited', hissued'⟩
    obtain rfl := Except.ok.inj hid
    refine .pure ?_
    refine ⟨haudited'.trans haudited, .inr ⟨_, rfl, ?_, ?_⟩⟩
    · rw [hissued]
    · rw [hissued', hissued]

theorem upsert_ensures (session : AuthenticatedSession) :
    Ensures (plane.adapter.sessions.upsert session) s fun r s' => r = .ok ()
      ∧ s'.store = s.store.upsertSession session ∧ s'.sessionsIssued = s.sessionsIssued :=
  ⟨rfl, rfl, rfl⟩

theorem createSession_outcome (request : HttpRequest) :
    Ensures (plane.adapter.createSession request now) s (Outcome s (LoginChange plane s)) := by
  unfold ControlPlaneHttpAdapter.createSession
  split
  · exact outcome_pure
  dsimp only
  split
  · exact outcome_pure
  split
  · exact outcome_pure
  refine outcome_identifier fun deviceId _ => ?_
  refine outcome_identifier fun correlationId _ => ?_
  refine (authenticate_ensures _).bind ?_ ?_
  · rintro e s' ⟨haudited, ⟨hissued, -⟩ | ⟨session, hsession, -⟩⟩
    · exact .inl (.of_audited haudited hissued)
    · cases hsession
  · rintro r s' ⟨haudited, ⟨hissued, hrejected⟩ | ⟨session, hsession, hid, hissued⟩⟩
    · rcases r with error | session
      · exact .pure (.inl (.of_audited haudited hissued))
      · exact absurd rfl (hrejected session)
    · obtain rfl := Except.ok.inj hsession
      have hstore : s'.store = s.store := congrArg AuditedStore.store haudited
      dsimp only
      split
      · exact .pure (.inl ⟨hstore, by omega⟩)
      · refine (upsert_ensures session).bind (fun e s₁ h => by cases h.1) ?_
        rintro u s₁ ⟨-, hupserted, hissued'⟩
        refine .pure (.inr ⟨_, rfl, show (201 : Int) < 400 by omega, session, ?_, hid, ?_⟩)
        · rw [hupserted, hstore]
        · rw [hissued', hissued]

variable (now) in
theorem answer_outcome (hinv : SessionInv plane s) (request : HttpRequest) :
    Ensures (plane.adapter.answer request now) s
      (Outcome s (RequestChange plane request now s)) := by
  unfold ControlPlaneHttpAdapter.answer
  split
  · split
    · exact outcome_pure
    · exact outcome_pure
  split
  · refine (createSession_outcome request).mono ?_
    rintro r s' (hunchanged | ⟨response, hr, hstatus, hlogin⟩)
    · exact .inl hunchanged
    · exact .inr ⟨response, hr, hstatus, .inl hlogin⟩
  refine (authenticateRequestSession_ensures request now).bind
    (fun e s' h => .inl (by rw [h.1]; exact .refl)) ?_
  rintro r s' ⟨rfl, haccepted⟩
  rcases r with response | authenticated
  · exact outcome_pure
  obtain ⟨⟨id, hauthorization, hstored⟩, hactive, hbound, hdevice⟩ := haccepted _ rfl
  obtain rfl := hinv.keyed id authenticated.session hstored
  have hcurrent : Current s'.store authenticated := ⟨hstored, hbound⟩
  refine (sessionRoutes_outcome request hcurrent hinv.bound).mono ?_
  rintro r s'' (hunchanged | ⟨response, hr, hstatus, hchange⟩)
  · exact .inl hunchanged
  · refine .inr ⟨response, hr, hstatus, .inr ⟨authenticated.session, ?_, hchange⟩⟩
    exact ⟨hauthorization, by rw [hbound, hdevice], hstored, hactive⟩

variable (now) in
/-- A request leaves the store as it was, or is answered with a success. -/
theorem handle_outcome (hinv : SessionInv plane s) (request : HttpRequest) :
    let r := plane.adapter.handle request now s
    Unchanged s r.2 ∨ r.1.statusCode < 400 ∧ RequestChange plane request now s r.2 := by
  intro r
  have houtcome := answer_outcome now hinv request
  unfold Ensures at houtcome
  simp only [r, ControlPlaneHttpAdapter.handle]
  split
  · rename_i response s' hrun
    rw [hrun] at houtcome
    rcases houtcome with hunchanged | ⟨response', hr, hstatus, hchange⟩
    · exact .inl hunchanged
    · obtain rfl := Except.ok.inj hr
      exact .inr ⟨hstatus, hchange⟩
  · rename_i s' hrun
    rw [hrun] at houtcome
    rcases houtcome with hunchanged | ⟨response', hr, -⟩
    · exact .inl hunchanged
    · cases hr
  · rename_i s' hrun
    rw [hrun] at houtcome
    rcases houtcome with hunchanged | ⟨response', hr, -⟩
    · exact .inl hunchanged
    · cases hr

end ControlPlane

open ControlPlane

/-! ## Runs -/

variable {plane : ControlPlane ω ρ} {s : ControlPlaneState ω ρ}

theorem sessionInv_initial (observer : ω) (outside : ρ) :
    SessionInv plane { audited := ⟨{}, observer, [], 0⟩, outside } where
  keyed id session h := by
    have hempty : (∅ : Std.ExtTreeMap SessionId AuthenticatedSession)[id]? = some session := h
    simp at hempty
  issued id session h := by
    have hempty : (∅ : Std.ExtTreeMap SessionId AuthenticatedSession)[id]? = some session := h
    simp at hempty
  bound id t h := by
    have hempty : (∅ : Std.ExtTreeMap TransmissionId ActiveTransmission)[id]? = some t := h
    simp at hempty

theorem SessionInv.of_subset {s' : ControlPlaneState ω ρ} (h : SessionInv plane s)
    (hsessions : ∀ (id : SessionId) (session : AuthenticatedSession),
      s'.store.sessions[id]? = some session → s.store.sessions[id]? = some session)
    (hissued : s.sessionsIssued ≤ s'.sessionsIssued) (hbound : s'.store.Bound) :
    SessionInv plane s' where
  keyed id session hs := h.keyed id session (hsessions id session hs)
  issued id session hs := by
    obtain ⟨n, hn, hid⟩ := h.issued id session (hsessions id session hs)
    exact ⟨n, Nat.lt_of_lt_of_le hn hissued, hid⟩
  bound := hbound

theorem Store.Bound.withContext {c : Store} (h : c.Bound) (subject : PlayerId)
    (memberships : Std.ExtTreeMap PlayerId AuthoritativeMembershipContext) :
    (c.withContext subject memberships).Bound := by
  refine h.of_subset fun id t ht => ⟨?_, rfl⟩
  have hfiltered : (c.activeTransmissions.filter fun _ t =>
      !(t.authorization.senderPlayerId = subject : Bool))[id]? = some t := ht
  rw [Std.ExtTreeMap.getElem?_filter', Option.filter_eq_some_iff] at hfiltered
  exact hfiltered.1

/-- What a session's player may change leaves the sessions as they are. -/
theorem MayChange.sessions {session : AuthenticatedSession} {c : Store}
    (h : MayChange plane s session c) (hbound : s.store.Bound)
    (hstored : s.store.sessions[session.sessionId]? = some session) :
    c.sessions = s.store.sessions ∧ c.Bound := by
  cases h with
  | start t howned =>
    refine ⟨rfl, hbound.emplace ⟨session, ?_, howned.sender.symm, howned.deviceId.symm⟩⟩
    rw [howned.sessionId, hstored]
  | «end» id => exact ⟨rfl, hbound.eraseTransmission id⟩
  | interrupt id => exact ⟨rfl, hbound.eraseTransmission id⟩
  | replace a subject context => exact ⟨rfl, hbound.withContext subject _⟩
  | remove a subject => exact ⟨rfl, hbound.withContext subject _⟩

/-- A new identifier is that of no stored session. -/
theorem SessionInv.fresh (h : SessionInv plane s) :
    s.store.sessions[plane.sessionIds.nextSession s.sessionsIssued]? = none := by
  rcases hstored : s.store.sessions[plane.sessionIds.nextSession s.sessionsIssued]? with
    _ | session
  · rfl
  · obtain ⟨n, hn, hid⟩ := h.issued _ _ hstored
    have heq := plane.sessionIds.unique hid
    omega

theorem SessionInv.login {s' : ControlPlaneState ω ρ} (h : SessionInv plane s)
    (hlogin : LoginChange plane s s') : SessionInv plane s' := by
  obtain ⟨session, hstore, hid, hissued⟩ := hlogin
  have hsessions : ∀ id : SessionId, s'.store.sessions[id]?
      = if session.sessionId = id then some session else s.store.sessions[id]? := by
    intro id
    rw [hstore]
    simp only [Store.upsertSession, Std.ExtTreeMap.getElem?_insert,
      Std.LawfulEqCmp.compare_eq_iff_eq]
  refine ⟨fun id session' hs => ?_, fun id session' hs => ?_, ?_⟩
  · rw [hsessions] at hs
    split_ifs at hs with heq
    · obtain rfl := Option.some.inj hs
      exact heq
    · exact h.keyed id session' hs
  · rw [hsessions] at hs
    split_ifs at hs with heq
    · exact ⟨s.sessionsIssued, by omega, by rw [← heq, hid]⟩
    · obtain ⟨n, hn, hn'⟩ := h.issued id session' hs
      exact ⟨n, by omega, hn'⟩
  · intro id t ht
    rw [hstore] at ht
    obtain ⟨session', hstored, hplayer⟩ := h.bound id t ht
    refine ⟨session', ?_, hplayer⟩
    rw [hsessions, if_neg]
    · exact hstored
    · intro heq
      rw [← heq, hid, h.fresh] at hstored
      cases hstored

theorem updateMembershipLocked_sessions {c : Store} (hbound : c.Bound) {playerId : PlayerId}
    {context : AuthoritativeMembershipContext} {now : TimePoint} {correlationId : CorrelationId}
    {change : AuthoritativeContextChange} :
    let c' := (c.updateMembershipLocked playerId context now correlationId change).2
    (∀ (id : SessionId) (session : AuthenticatedSession),
      c'.sessions[id]? = some session → c.sessions[id]? = some session) ∧ c'.Bound := by
  intro c'
  have hcases := updateMembershipLocked_store now c playerId context correlationId change
  rcases hcases with ⟨e, -, hsame⟩ | ⟨ended, -, hupdated⟩
  · have hstore : c' = c := hsame
    rw [hstore]
    exact ⟨fun _ _ h => h, hbound⟩
  · have hstore : c' = c.withContext playerId (c.memberships.insert playerId context) := hupdated
    rw [hstore]
    exact ⟨fun _ _ h => h, hbound.withContext playerId _⟩

/-- Removing a session interrupts the transmissions of it, so the others keep theirs. -/
theorem removeSessionLocked_sessions {c : Store} (hbound : c.Bound) {sessionId : SessionId}
    {now : TimePoint} {correlationId : CorrelationId} :
    let c' := (c.removeSessionLocked sessionId now correlationId).2
    (∀ (id : SessionId) (session : AuthenticatedSession),
      c'.sessions[id]? = some session → c.sessions[id]? = some session) ∧ c'.Bound := by
  intro c'
  simp only [c', Store.removeSessionLocked]
  rcases c.sessions[sessionId]? with _ | session
  · exact ⟨fun _ _ h => h, hbound⟩
  have hinterrupted : ({ c with sessions := c.sessions.erase sessionId }.interruptForSessionLocked
      sessionId .disconnected now correlationId).2.Bound := by
    refine hbound.interruptWhere ?_ _ (fun t ht => ?_) _ _ _
    · rfl
    · change (c.sessions.erase sessionId)[t.sessionId]? = _
      rw [Std.ExtTreeMap.getElem?_erase, if_neg]
      intro heq
      obtain rfl := Std.LawfulEqCmp.eq_of_compare heq
      simp at ht
  refine ⟨fun id session' h => ?_, hinterrupted⟩
  have herased : (c.sessions.erase sessionId)[id]? = some session' := h
  rw [Std.ExtTreeMap.getElem?_erase] at herased
  split_ifs at herased
  exact herased

variable (plane) in
/-- No operation but the upsert of a session stores one. -/
theorem step_sessions {op : AuditedOp} (hop : ∀ session, op ≠ .upsertSession session)
    {c : AuditedStore ω} (hbound : c.store.Bound) :
    (∀ (id : SessionId) (session : AuthenticatedSession),
      (plane.step op c).store.sessions[id]? = some session →
        c.store.sessions[id]? = some session) ∧ (plane.step op c).store.Bound := by
  cases op with
  | start command now allowed =>
    have hstore : (plane.step (.start command now allowed) c).store
        = (TransmissionApplicationService.start plane.observer c.store command now allowed
          (plane.transmissionIds c.generated) c.observer).2.1 := rfl
    rw [hstore]
    rcases TransmissionApplicationService.start_cases plane.observer c.store now c.observer
      command allowed (plane.transmissionIds c.generated) with
      ⟨e, he, hsame⟩ | ⟨t, ht, -, -, hemplaced, -⟩
    · rw [hsame]
      exact ⟨fun _ _ h => h, hbound⟩
    · obtain ⟨-, -, session, hstored, hplayer, hdevice, -⟩ :=
        TransmissionApplicationService.start_ok ht
      rw [hemplaced]
      exact ⟨fun _ _ h => h, hbound.emplace ⟨session, hstored, hplayer, hdevice⟩⟩
  | «end» command now allowed =>
    have hstore : (plane.step (.end command now allowed) c).store
        = (TransmissionApplicationService.end plane.observer c.store command now allowed
          c.observer).2.1 := rfl
    rw [hstore]
    rcases TransmissionApplicationService.end_cases plane.observer c.store now c.observer command
      allowed with
      ⟨e, he, hsame⟩ | ⟨t, -, -, -, -, herased⟩
    · rw [hsame]
      exact ⟨fun _ _ h => h, hbound⟩
    · rw [herased]
      exact ⟨fun _ _ h => h, hbound.eraseTransmission _⟩
  | interruptForModeration command now canInterrupt =>
    have hstore : (plane.step (.interruptForModeration command now canInterrupt) c).store
        = (TransmissionApplicationService.interruptForModeration plane.observer c.store command
          now canInterrupt c.observer).2.1 := rfl
    rw [hstore]
    rcases TransmissionApplicationService.interruptForModeration_cases plane.observer c.store now
      c.observer command canInterrupt with
      ⟨e, he, hsame⟩ | ⟨session, t, -, -, -, -, -, -, herased⟩
    · rw [hsame]
      exact ⟨fun _ _ h => h, hbound⟩
    · rw [herased]
      exact ⟨fun _ _ h => h, hbound.eraseTransmission _⟩
  | expireTimedOut now correlationId =>
    exact ⟨fun _ _ h => h,
      hbound.interruptWhere rfl _ (fun _ _ => rfl) .timedOut now correlationId⟩
  | upsertSession session => exact absurd rfl (hop session)
  | removeSession sessionId now correlationId =>
    have hstore : (plane.step (.removeSession sessionId now correlationId) c).store
        = (c.store.removeSessionLocked sessionId now correlationId).2 := rfl
    rw [hstore]
    exact removeSessionLocked_sessions hbound
  | updateMembership playerId context now correlationId change =>
    have hstore : (plane.step (.updateMembership playerId context now correlationId change)
        c).store = (c.store.updateMembershipLocked playerId context now correlationId change).2 :=
      rfl
    rw [hstore]
    exact updateMembershipLocked_sessions hbound
  | replaceMembership playerId context now correlationId =>
    have hstore : (plane.step (.replaceMembership playerId context now correlationId) c).store
        = (c.store.replaceMembershipLocked playerId context now correlationId).2 := rfl
    rw [hstore]
    exact updateMembershipLocked_sessions hbound
  | removeMembership playerId now correlationId =>
    exact ⟨fun _ _ h => h, hbound.withContext playerId _⟩

theorem SessionInv.next (h : SessionInv plane s) (step : ControlPlaneStep ω ρ) :
    SessionInv plane (plane.next s step) := by
  cases step with
  | request request now =>
    rcases handle_outcome now h request with
      ⟨hstore, hissued⟩ | ⟨-, hlogin | ⟨session, hnamed, hmay, hissued⟩⟩
    · refine h.of_subset (fun id session hs => ?_) hissued ?_
      · rwa [ControlPlane.next, hstore] at hs
      · rw [ControlPlane.next, hstore]
        exact h.bound
    · exact h.login hlogin
    · obtain ⟨hsessions, hbound⟩ := hmay.sessions h.bound hnamed.stored
      refine h.of_subset (fun id session hs => ?_) (Nat.le_of_eq hissued.symm) hbound
      rwa [ControlPlane.next, hsessions] at hs
  | operation op =>
    by_cases hop : ∃ session, op = .upsertSession session
    · obtain ⟨session, rfl⟩ := hop
      exact h
    · have hnext : plane.next s (.operation op)
          = { s with audited := plane.step op s.audited } := by
        unfold ControlPlane.next
        split
        all_goals simp_all
      have hne : ∀ session, op ≠ .upsertSession session := fun session heq => hop ⟨session, heq⟩
      obtain ⟨hsessions, hbound⟩ := step_sessions plane hne h.bound
      rw [hnext]
      exact h.of_subset hsessions (Nat.le_refl _) hbound
  | directory op => exact h.of_subset (fun _ _ hs => hs) (Nat.le_refl _) h.bound
  | outside outside => exact h.of_subset (fun _ _ hs => hs) (Nat.le_refl _) h.bound
  | restart observer outside =>
    refine h.of_subset (fun _ _ hs => hs) (Nat.le_refl _) fun id t ht => ?_
    have hempty : (∅ : Std.ExtTreeMap TransmissionId ActiveTransmission)[id]? = some t := ht
    simp at hempty

theorem SessionInv.foldl (h : SessionInv plane s) (steps : List (ControlPlaneStep ω ρ)) :
    SessionInv plane (steps.foldl plane.next s) := by
  induction steps generalizing s with
  | nil => exact h
  | cons step steps ih => exact ih (h.next step)

theorem sessionInv_run (plane : ControlPlane ω ρ) (observer : ω) (outside : ρ)
    (steps : List (ControlPlaneStep ω ρ)) :
    SessionInv plane (plane.run observer outside steps) :=
  (sessionInv_initial observer outside).foldl steps

/-- In every state the control plane can reach and for every request: an answer of 400 or more
leaves the sessions, the memberships and the active transmissions as they were. Where a request
has changed the memberships or the active transmissions, it names a session that is stored, active
and bound to its device, and the change is one that the session's player may make. -/
theorem handle_fails_closed (plane : ControlPlane ω ρ) (observer : ω) (outside : ρ)
    (steps : List (ControlPlaneStep ω ρ)) (request : HttpRequest) (now : TimePoint) :
    let s := plane.run observer outside steps
    let answered := plane.adapter.handle request now s
    (400 ≤ answered.1.statusCode →
      answered.2.store.sessions = s.store.sessions
        ∧ answered.2.store.memberships = s.store.memberships
        ∧ answered.2.store.activeTransmissions = s.store.activeTransmissions)
      ∧ (answered.2.store.memberships ≠ s.store.memberships
          ∨ answered.2.store.activeTransmissions ≠ s.store.activeTransmissions →
        ∃ session, NamedSession request now s.store session
          ∧ MayChange plane s session answered.2.store) := by
  intro s answered
  have houtcome := handle_outcome now (sessionInv_run plane observer outside steps) request
  rcases houtcome with ⟨hstore, -⟩ | ⟨hstatus, hchange⟩
  · have hsame : answered.2.store = s.store := hstore
    rw [hsame]
    exact ⟨fun _ => ⟨rfl, rfl, rfl⟩, fun hchanged => by simp at hchanged⟩
  · have hsuccess : answered.1.statusCode < 400 := hstatus
    refine ⟨fun hfailed => absurd hfailed (by omega), fun hchanged => ?_⟩
    rcases hchange with ⟨session, hlogin, -⟩ | ⟨session, hnamed, hmay, -⟩
    · have hstore : answered.2.store = s.store.upsertSession session := hlogin
      rw [hstore] at hchanged
      simp [Store.upsertSession] at hchanged
    · exact ⟨session, hnamed, hmay⟩

namespace Sample

/-- A control plane where everybody who logs in is `alice`. -/
def alicePlane : ControlPlane (List LifecycleEvent) Unit where
  observer := recorder
  verify _ _ _ := pure (.ok ⟨alice, 900000, by decide⟩)
  sessionIds := ⟨fun n => ⟨(numbered n).value, (numbered n).nonempty⟩, fun m n h =>
    numbered_injective (by simpa [numbered] using h)⟩
  sessionPolicy := ⟨900000, by decide⟩
  transmissionIds := numbered
  allow _ _ _ := pure true
  canInterrupt _ _ _ _ := .ok false
  maximumDuration := 30000

def requestWith (method target authorization body : String) : HttpRequest where
  method := bytes method
  target := bytes target
  headers := ((∅ : Headers).insert (bytes "authorization") (bytes authorization)).insert
    (bytes "x-hvc-device-id") device.value |>.insert (bytes "x-correlation-id") correlation.value
  body := bytes body

/-- `alice` logs in, is given her membership and starts a transmission. -/
def startSteps : List (ControlPlaneStep (List LifecycleEvent) Unit) :=
  [.request (requestWith "POST" "/api/v1/sessions" "Bearer x" "") 0,
    .operation (.updateMembership alice (context 1 Nat.one_pos) 0 correlation .membershipChanged),
    .request (requestWith "POST" "/api/v1/transmissions" "Session t"
      "\x7b\"client_transmission_id\":\"c\",\"scope\":\"team\",\"membership_version\":1\x7d") 0]

end Sample

open Sample in
example : (alicePlane.run [] () startSteps).store.activeTransmissions.size = 1 := by decide +kernel

end VoxTree

import VoxTree.Proofs.FailClosed

/-!
# Where a session comes from

A session that the control plane has stored was there when it was started, or was answered to a
request to log in, and to no other: `sessions_from_logins` finds the request in the run.
-/

namespace VoxTree

open Results

variable {ω ρ : Type}

namespace ControlPlane

open Network

/-- What the provider and the policy say of a credential on a device. -/
structure Verified (plane : ControlPlane ω ρ) (credential : Bytes) (now : TimePoint)
    (outside : ρ) (session : AuthenticatedSession) : Prop where
  identity : ∃ identity,
    ((plane.verify credential session.deviceId now).run.run outside).1 = .ok (.ok identity)
      ∧ session.playerId = identity.playerId
      ∧ session.expiresAt = now + (min identity.maximumSessionLifetime
        plane.sessionPolicy.maximumSessionLifetime : Milliseconds).toNanoseconds

/-- A request to log in, which is answered with the session. -/
structure LoggedIn (plane : ControlPlane ω ρ) (request : HttpRequest) (now : TimePoint)
    (s : ControlPlaneState ω ρ) (session : AuthenticatedSession) : Prop where
  method : request.method = bytes "POST"
  target : request.target = bytes "/api/v1/sessions"
  device : request.header "x-hvc-device-id" = session.deviceId.value
  verified : ∃ credential, request.header "authorization" = bytes "Bearer " ++ credential
    ∧ Verified plane credential now s.outside session
  answer : (plane.adapter.handle request now s).1 = sessionResponse session

variable {plane : ControlPlane ω ρ} {s : ControlPlaneState ω ρ} {now : TimePoint}

/-! ## A request to log in -/

theorem outside_result {α : Type} (call : Service ρ α) :
    Ensures (outside call) s fun r s' => r = (call.run.run s.outside).1
      ∧ s'.audited = s.audited := ⟨rfl, rfl⟩

theorem authenticate_verified (command : AuthenticateSessionCommand) :
    Ensures (plane.authenticate command now) s fun r s' => s'.audited = s.audited
      ∧ ∀ session, r = .ok (.ok session) → session.deviceId = command.deviceId
        ∧ Verified plane command.credential now s.outside session := by
  unfold authenticate
  refine (outside_result _).bind (fun e s' h => ⟨h.2, fun session heq => by cases heq⟩) ?_
  rintro verified s' ⟨hverified, haudited⟩
  rcases verified with error | identity
  · exact .pure ⟨haudited, fun session heq => by cases heq⟩
  · refine nextSession_ensures.bind (fun e s'' h => by cases h.1) ?_
    rintro sessionId s'' ⟨hid, haudited', -⟩
    refine .pure ⟨haudited'.trans haudited, fun session hsession => ?_⟩
    obtain rfl := Except.ok.inj (Except.ok.inj hsession)
    exact ⟨rfl, ⟨identity, hverified.symm, rfl, rfl⟩⟩

variable (plane now) in
/-- What the answer to a request to log in has to do with the sessions. -/
theorem createSession_verified (request : HttpRequest) :
    Ensures (plane.adapter.createSession request now) s fun r s' => s'.store = s.store
      ∨ ∃ session, r = .ok (sessionResponse session)
        ∧ s'.store = s.store.upsertSession session
        ∧ request.header "x-hvc-device-id" = session.deviceId.value
        ∧ ∃ credential, request.header "authorization" = bytes "Bearer " ++ credential
          ∧ Verified plane credential now s.outside session := by
  unfold ControlPlaneHttpAdapter.createSession
  rcases hcredential : authorizationValue request "Bearer " with _ | credential
  · exact .pure (.inl rfl)
  dsimp only
  split
  · exact .pure (.inl rfl)
  split
  · exact .pure (.inl rfl)
  refine (identifier_ensures _).bind (fun e s' h => .inl (by rw [h.1])) ?_
  rintro deviceId s' ⟨rfl, hdeviceId⟩
  refine (identifier_ensures _).bind (fun e s'' h => .inl (by rw [h.1])) ?_
  rintro correlationId s' ⟨rfl, -⟩
  refine (authenticate_verified _).bind
    (fun e s'' h => .inl (congrArg AuditedStore.store h.1)) ?_
  rintro r s'' ⟨haudited, hsession⟩
  have hstore : s''.store = s'.store := congrArg AuditedStore.store haudited
  rcases r with error | session
  · exact .pure (.inl hstore)
  dsimp only
  split
  · exact .pure (.inl hstore)
  obtain ⟨hdevice, hverified⟩ := hsession session rfl
  refine (upsert_ensures session).bind (fun e s₁ h => by cases h.1) ?_
  rintro u s₁ ⟨-, hupserted, -⟩
  refine .pure (.inr ⟨session, rfl, by rw [hupserted, hstore], ?_, credential,
    authorizationValue_eq hcredential, hverified⟩)
  rw [hdevice, hdeviceId deviceId rfl]

/-- The state that a request leaves behind, and the response it is answered with. -/
theorem handle_ensures {request : HttpRequest}
    {Q : Except ServiceException HttpResponse → ControlPlaneState ω ρ → Prop}
    (h : Ensures (plane.adapter.answer request now) s Q) :
    ∃ r, Q r (plane.adapter.handle request now s).2
      ∧ ∀ response, r = .ok response → (plane.adapter.handle request now s).1 = response := by
  unfold Ensures at h
  rcases hrun : (plane.adapter.answer request now).run.run s with ⟨r, s'⟩
  rw [hrun] at h
  have hhandle : ∃ response, plane.adapter.handle request now s = (response, s')
      ∧ ∀ response', r = .ok response' → response = response' := by
    rw [ControlPlaneHttpAdapter.handle, hrun]
    rcases r with (_ | _) | response
    · exact ⟨_, rfl, fun response' heq => by cases heq⟩
    · exact ⟨_, rfl, fun response' heq => by cases heq⟩
    · exact ⟨response, rfl, fun response' heq => Except.ok.inj heq⟩
  obtain ⟨response, hhandle, hresponse⟩ := hhandle
  rw [hhandle]
  exact ⟨r, h, hresponse⟩

variable (now) in
/-- No request but one to log in stores a session. -/
theorem handle_sessions (hinv : SessionInv plane s) (request : HttpRequest) :
    let s' := (plane.adapter.handle request now s).2
    (∀ (id : SessionId) (session : AuthenticatedSession),
        s'.store.sessions[id]? = some session → s.store.sessions[id]? = some session)
      ∨ ∃ session, LoggedIn plane request now s session
        ∧ s'.store = s.store.upsertSession session := by
  intro s'
  have hhealth : bytes "/api/v1/sessions" ≠ bytes "/api/v1/health" :=
    bytes_injective.ne (by decide)
  by_cases hlogin : request.target = bytes "/api/v1/sessions" ∧ request.method = bytes "POST"
  · have hanswer : plane.adapter.answer request now = plane.adapter.createSession request now := by
      rw [ControlPlaneHttpAdapter.answer, if_neg (fun h => hhealth (hlogin.1.symm.trans h.1)),
        if_pos hlogin]
    have hverified := createSession_verified plane now request (s := s)
    rw [← hanswer] at hverified
    obtain ⟨r, hsame | ⟨session, hr, hstored, hdevice, hcredential⟩, hresponse⟩ :=
      handle_ensures hverified
    · exact .inl fun id session hs => by rwa [hsame] at hs
    · exact .inr ⟨session, ⟨hlogin.2, hlogin.1, hdevice, hcredential, hresponse _ hr⟩, hstored⟩
  · have hkept : Ensures (plane.adapter.answer request now) s fun _ s' =>
        s'.store.sessions = s.store.sessions := by
      rw [ControlPlaneHttpAdapter.answer, if_neg hlogin]
      split
      · split
        · exact .pure rfl
        · exact .pure rfl
      refine (authenticateRequestSession_ensures request now).bind (fun e s' h => by rw [h.1]) ?_
      rintro r s' ⟨rfl, haccepted⟩
      rcases r with response | authenticated
      · exact .pure rfl
      obtain ⟨⟨id, -, hstored⟩, -, hbound, -⟩ := haccepted _ rfl
      obtain rfl := hinv.keyed id authenticated.session hstored
      refine (sessionRoutes_outcome request ⟨hstored, hbound⟩ hinv.bound).mono ?_
      rintro r s'' (⟨hsame, -⟩ | ⟨response, -, -, hmay, -⟩)
      · rw [hsame]
      · exact (hmay.sessions hinv.bound hstored).1
    obtain ⟨r, hsame, -⟩ := handle_ensures hkept
    exact .inl fun id session hs => by rwa [hsame] at hs

end ControlPlane

open ControlPlane

/-! ## Runs -/

/-- The session was answered to a request of the run. -/
def FromLogin (plane : ControlPlane ω ρ) (s : ControlPlaneState ω ρ)
    (steps : List (ControlPlaneStep ω ρ)) (session : AuthenticatedSession) : Prop :=
  ∃ before request now after, steps = before ++ .request request now :: after
    ∧ LoggedIn plane request now (before.foldl plane.next s) session

variable {plane : ControlPlane ω ρ} {s : ControlPlaneState ω ρ}

theorem FromLogin.append {steps : List (ControlPlaneStep ω ρ)} {session : AuthenticatedSession}
    (h : FromLogin plane s steps session) (more : List (ControlPlaneStep ω ρ)) :
    FromLogin plane s (steps ++ more) session := by
  obtain ⟨before, request, now, after, rfl, hlogin⟩ := h
  exact ⟨before, request, now, after ++ more, by simp, hlogin⟩

/-- No step but a request to log in stores a session. -/
theorem next_sessions (hinv : SessionInv plane s) (step : ControlPlaneStep ω ρ) :
    (∀ (id : SessionId) (session : AuthenticatedSession),
        (plane.next s step).store.sessions[id]? = some session →
          s.store.sessions[id]? = some session)
      ∨ ∃ request now session, step = .request request now
        ∧ LoggedIn plane request now s session
        ∧ (plane.next s step).store = s.store.upsertSession session := by
  cases step with
  | request request now =>
    rcases handle_sessions now hinv request with hkept | ⟨session, hlogin, hstored⟩
    · exact .inl hkept
    · exact .inr ⟨request, now, session, rfl, hlogin, hstored⟩
  | operation op =>
    by_cases hop : ∃ session, op = .upsertSession session
    · obtain ⟨session, rfl⟩ := hop
      exact .inl fun _ _ h => h
    · have hnext : plane.next s (.operation op)
          = { s with audited := plane.step op s.audited } := by
        unfold ControlPlane.next
        split
        all_goals simp_all
      rw [hnext]
      exact .inl (step_sessions plane (fun session heq => hop ⟨session, heq⟩) hinv.bound).1
  | directory op => exact .inl fun _ _ h => h
  | outside outside => exact .inl fun _ _ h => h
  | restart observer outside => exact .inl fun _ _ h => h

/-- In every state the control plane can reach, a stored session was stored from the start or was
answered to a request to log in. -/
theorem sessions_from_logins (hinv : SessionInv plane s) (steps : List (ControlPlaneStep ω ρ))
    (id : SessionId) (session : AuthenticatedSession)
    (h : (steps.foldl plane.next s).store.sessions[id]? = some session) :
    s.store.sessions[id]? = some session ∨ FromLogin plane s steps session := by
  induction steps using List.reverseRecOn generalizing id session with
  | nil => exact .inl h
  | append_singleton steps step ih =>
    rw [List.foldl_concat] at h
    rcases next_sessions (hinv.foldl steps) step with
      hkept | ⟨request, now, logged, rfl, hlogin, hstored⟩
    · exact (ih id session (hkept id session h)).imp_right fun hlogin => hlogin.append [step]
    · rw [hstored, Store.upsertSession] at h
      simp only [Std.ExtTreeMap.getElem?_insert] at h
      split_ifs at h
      · obtain rfl := Option.some.inj h
        exact .inr ⟨steps, request, now, [], rfl, hlogin⟩
      · exact (ih id session h).imp_right fun hlogin => hlogin.append _

end VoxTree

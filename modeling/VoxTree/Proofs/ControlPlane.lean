import VoxTree.ControlPlane
import VoxTree.Lib.Results
import VoxTree.Proofs.Audit

/-!
# What a request may change

Each call behind the adapter leaves the store as it was, or makes one change. From the calls, each
route behind the check of the session ends in an answer and the store as it was, or in a success
and a change that the session's player may make (`sessionRoutes_outcome`).
-/

namespace VoxTree

open Results

variable {ω ρ α : Type}

/-! ## Changes -/

/-- The transmission is the session's player's, made from the session and its device. -/
structure OwnedBy (t : ActiveTransmission) (session : AuthenticatedSession) : Prop where
  sender : t.authorization.senderPlayerId = session.playerId
  sessionId : t.sessionId = session.sessionId
  deviceId : t.deviceId = session.deviceId

/-- The store with another membership context for the subject, or none, and without the subject's
transmissions. -/
def Store.withContext (s : Store) (subject : PlayerId)
    (memberships : Std.ExtTreeMap PlayerId AuthoritativeMembershipContext) : Store :=
  { s with
    memberships
    activeTransmissions := s.activeTransmissions.filter fun _ t =>
      !(t.authorization.senderPlayerId = subject : Bool) }

/-- The changes that a session's player may make, by what the authorizers answer him. -/
inductive MayChange (plane : ControlPlane ω ρ) (s : ControlPlaneState ω ρ)
    (session : AuthenticatedSession) : Store → Prop
  | start (t : ActiveTransmission) : OwnedBy t session →
      s.store.activeTransmissions[t.authorization.transmissionId]? = none →
      MayChange plane s session (s.store.emplace t)
  | end (id : TransmissionId) (t : ActiveTransmission) :
      s.store.activeTransmissions[id]? = some t → OwnedBy t session →
      MayChange plane s session (s.store.eraseTransmission id)
  | interrupt (id : TransmissionId) :
      plane.canInterrupt s.store s.outside session.playerId id = .ok true →
      MayChange plane s session (s.store.eraseTransmission id)
  | replace (a : MembershipAuthorizer ρ) (subject : PlayerId)
      (context : AuthoritativeMembershipContext) : plane.administrationAuthorizer = some a →
      a.canReplace s.store s.outside session.playerId subject = .ok true →
      MayChange plane s session
        (s.store.withContext subject (s.store.memberships.insert subject context))
  | remove (a : MembershipAuthorizer ρ) (subject : PlayerId) :
      plane.administrationAuthorizer = some a →
      a.canRemove s.store s.outside session.playerId subject = .ok true →
      MayChange plane s session
        (s.store.withContext subject (s.store.memberships.erase subject))

/-! ## Sessions and their transmissions -/

/-- Every active transmission was started from a session that is still stored, by its player and
from its device. -/
def Store.Bound (s : Store) : Prop :=
  ∀ (id : TransmissionId) (t : ActiveTransmission), s.activeTransmissions[id]? = some t →
    ∃ session, s.sessions[t.sessionId]? = some session
      ∧ session.playerId = t.authorization.senderPlayerId ∧ session.deviceId = t.deviceId

theorem Store.Bound.of_subset {s s' : Store} (h : s.Bound)
    (hactive : ∀ (id : TransmissionId) (t : ActiveTransmission),
      s'.activeTransmissions[id]? = some t → s.activeTransmissions[id]? = some t
        ∧ s'.sessions[t.sessionId]? = s.sessions[t.sessionId]?) : s'.Bound := by
  intro id t ht
  obtain ⟨hold, hsession⟩ := hactive id t ht
  rw [hsession]
  exact h id t hold

theorem Store.Bound.emplace {s : Store} (h : s.Bound) {t : ActiveTransmission}
    (ht : ∃ session, s.sessions[t.sessionId]? = some session
      ∧ session.playerId = t.authorization.senderPlayerId ∧ session.deviceId = t.deviceId) :
    (s.emplace t).Bound := by
  intro id t' ht'
  rw [Store.getElem?_emplace] at ht'
  split_ifs at ht'
  · obtain rfl := Option.some.inj ht'
    exact ht
  · exact h id t' ht'

theorem Store.Bound.eraseTransmission {s : Store} (h : s.Bound) (id : TransmissionId) :
    (s.eraseTransmission id).Bound := by
  refine h.of_subset fun id' t ht => ⟨?_, rfl⟩
  rw [Store.getElem?_eraseTransmission] at ht
  split_ifs at ht
  exact ht

theorem Store.Bound.interruptWhere {s s₀ : Store} (h : s.Bound)
    (hactive : s₀.activeTransmissions = s.activeTransmissions) (stops : ActiveTransmission → Bool)
    (hsessions : ∀ t, stops t = false → s₀.sessions[t.sessionId]? = s.sessions[t.sessionId]?)
    (reason : TransmissionStopReason) (endedAt : TimePoint) (correlationId : CorrelationId) :
    (s₀.interruptWhere stops reason endedAt correlationId).2.Bound := by
  refine h.of_subset fun id t ht => ?_
  obtain ⟨hold, hkept⟩ := Store.getElem?_interruptWhere_eq_some.1 ht
  rw [hactive] at hold
  exact ⟨hold, hsessions t (by simpa using hkept)⟩

/-! ## The commands -/

namespace TransmissionApplicationService

variable {observer : LifecycleObserver ω} {s : Store} {w : ω} {now : TimePoint} {allowed : Bool}

theorem activate_ok {transmission : AuthorizedTransmission} {sessionId : SessionId}
    {deviceId : DeviceId} {t : ActiveTransmission}
    (h : (s.activate observer transmission sessionId deviceId now w).1 = .ok t) :
    s.checkActivation transmission sessionId deviceId now = .ok t := by
  unfold Store.activate at h
  split at h
  · cases h
  · rename_i entry hentry
    split at h
    · obtain rfl := Except.ok.inj h
      exact hentry
    · cases h

/-- A started transmission is the session's. -/
theorem start_ok {command : StartTransmissionCommand} {id : TransmissionId}
    {t : ActiveTransmission} (h : (start observer s command now allowed id w).1 = .ok t) :
    t.sessionId = command.sessionId ∧ t.deviceId = command.deviceId ∧ s.HasLiveSession t := by
  unfold start at h
  split at h
  · cases h
  split at h
  · cases h
  rename_i transmission _
  rcases hactivate : (s.activate observer transmission command.sessionId command.deviceId now
    w).1 with e | t'
  · simp only [hactivate, Except.mapError] at h
    cases h
  · simp only [hactivate, Except.mapError] at h
    obtain rfl := Except.ok.inj h
    obtain ⟨-, hsession, hdevice, -, hactivated⟩ := Store.checkActivation_ok (activate_ok hactivate)
    exact ⟨hsession, hdevice, hactivated.session⟩

end TransmissionApplicationService

namespace ControlPlane

open Network

/-! ## Calls -/

variable {s : ControlPlaneState ω ρ}

theorem reading_ensures (f : ControlPlaneState ω ρ → Except ServiceException α) :
    Ensures (reading f) s fun r s' => r = f s ∧ s' = s := ⟨rfl, rfl⟩

theorem outside_ensures (call : Service ρ α) :
    Ensures (outside call) s fun _ s' => s'.audited = s.audited
      ∧ s'.sessionsIssued = s.sessionsIssued := ⟨rfl, rfl⟩

theorem serving_ensures
    (f : ControlPlaneState ω ρ → Except ServiceException α × DirectoryApplicationService) :
    Ensures (serving f) s fun _ s' => s'.audited = s.audited
      ∧ s'.sessionsIssued = s.sessionsIssued := ⟨rfl, rfl⟩

theorem auditing_ensures (f : AuditedStore ω → α × AuditedStore ω) :
    Ensures (auditing f) s fun r s' => r = .ok (f s.audited).1 ∧ s'.audited = (f s.audited).2
      ∧ s'.sessionsIssued = s.sessionsIssued := ⟨rfl, rfl, rfl⟩

theorem identifier_ensures {σ : Type} {s : σ} {tag : IdTag} (value : Bytes) :
    Ensures (identifier value : Service σ (StrongId tag)) s fun r s' => s' = s
      ∧ ∀ id, r = .ok id → id.value = value := by
  unfold identifier StrongId.make
  by_cases hvalue : value ≠ []
  · rw [dif_pos hvalue]
    refine ⟨rfl, fun id hid => ?_⟩
    obtain rfl := Except.ok.inj hid
    rfl
  · rw [dif_neg hvalue]
    exact ⟨rfl, fun id hid => by cases hid⟩

/-! ## What a request may end in -/

/-- The store is as it was. -/
def Unchanged (s s' : ControlPlaneState ω ρ) : Prop :=
  s'.store = s.store ∧ s.sessionsIssued ≤ s'.sessionsIssued

/-- The store is as it was, or the answer is a success and the change allowed. -/
def Outcome (s : ControlPlaneState ω ρ) (changes : ControlPlaneState ω ρ → Prop)
    (r : Except ServiceException HttpResponse) (s' : ControlPlaneState ω ρ) : Prop :=
  Unchanged s s' ∨ ∃ response, r = .ok response ∧ response.statusCode < 400 ∧ changes s'

/-- A change that the session's player may make. -/
def SessionChange (plane : ControlPlane ω ρ) (s : ControlPlaneState ω ρ)
    (session : AuthenticatedSession) (s' : ControlPlaneState ω ρ) : Prop :=
  MayChange plane s session s'.store ∧ s'.sessionsIssued = s.sessionsIssued

theorem Unchanged.refl : Unchanged s s := ⟨rfl, Nat.le_refl _⟩

theorem Unchanged.of_audited {s' : ControlPlaneState ω ρ} (haudited : s'.audited = s.audited)
    (hissued : s'.sessionsIssued = s.sessionsIssued) : Unchanged s s' :=
  ⟨congrArg AuditedStore.store haudited, Nat.le_of_eq hissued.symm⟩

theorem outcome_of_unchanged {m : Service (ControlPlaneState ω ρ) HttpResponse}
    {changes : ControlPlaneState ω ρ → Prop} (h : Ensures m s fun _ => Unchanged s) :
    Ensures m s (Outcome s changes) := h.mono fun _ _ hunchanged => .inl hunchanged

theorem outcome_pure {response : HttpResponse} {changes : ControlPlaneState ω ρ → Prop} :
    Ensures (pure response) s (Outcome s changes) := .pure (.inl .refl)

theorem outcome_reading {f : ControlPlaneState ω ρ → Except ServiceException α}
    {k : α → Service (ControlPlaneState ω ρ) HttpResponse}
    {changes : ControlPlaneState ω ρ → Prop}
    (h : ∀ a, f s = .ok a → Ensures (k a) s (Outcome s changes)) :
    Ensures (reading f >>= k) s (Outcome s changes) := by
  refine (reading_ensures f).bind (fun e s' h => .inl (by rw [h.2]; exact .refl)) ?_
  rintro a s' ⟨ha, rfl⟩
  exact h a ha.symm

theorem outcome_identifier {tag : IdTag} {value : Bytes}
    {k : StrongId tag → Service (ControlPlaneState ω ρ) HttpResponse}
    {changes : ControlPlaneState ω ρ → Prop}
    (h : ∀ id, id.value = value → Ensures (k id) s (Outcome s changes)) :
    Ensures (identifier value >>= k) s (Outcome s changes) := by
  refine (identifier_ensures value).bind (fun e s' h => .inl (by rw [h.1]; exact .refl)) ?_
  rintro id s' ⟨rfl, hid⟩
  exact h id (hid id rfl)

/-! ## The session of a request -/

theorem authorizationValue_eq {request : HttpRequest} {scheme : String} {value : Bytes}
    (h : authorizationValue request scheme = some value) :
    request.header "authorization" = bytes scheme ++ value := by
  unfold authorizationValue at h
  dsimp only at h
  split_ifs at h with hscheme
  obtain ⟨rest, hrest⟩ := List.isPrefixOf_iff_prefix.1 hscheme.1
  have hdrop := Option.some.inj h
  rw [← hrest, List.drop_left] at hdrop
  rw [← hrest, hdrop]

/-- Whom an accepted request is from. -/
structure Accepted (request : HttpRequest) (now : TimePoint) (s : Store)
    (authenticated : RequestSession) : Prop where
  stored : ∃ id : SessionId, request.header "authorization" = bytes "Session " ++ id.value
    ∧ s.sessions[id]? = some authenticated.session
  active : authenticated.session.activeAt now = true
  bound : authenticated.session.deviceId = authenticated.deviceId
  device : authenticated.deviceId.value = request.header "x-hvc-device-id"

theorem authenticateRequestSession_ensures (request : HttpRequest) (now : TimePoint) :
    Ensures (authenticateRequestSession request now
      (sessions : SessionRepository (ControlPlaneState ω ρ))) s fun r s' => s' = s
        ∧ ∀ authenticated, r = .ok (.ok authenticated) →
          Accepted request now s.store authenticated := by
  have hrefused : ∀ response : HttpResponse, Ensures (pure (.error response) :
      Service (ControlPlaneState ω ρ) (Except HttpResponse RequestSession)) s fun r s' => s' = s
        ∧ ∀ authenticated, r = .ok (.ok authenticated) →
          Accepted request now s.store authenticated := fun response =>
    .pure ⟨rfl, fun authenticated h => by cases Except.ok.inj h⟩
  unfold authenticateRequestSession
  rcases hvalue : authorizationValue request "Session " with _ | value
  · exact hrefused _
  dsimp only
  split
  · exact hrefused _
  refine (identifier_ensures value).bind (fun e s' h => ⟨h.1, fun _ hr => by cases hr⟩) ?_
  rintro sessionId s' ⟨rfl, hsessionId⟩
  refine (identifier_ensures _).bind (fun e s'' h => ⟨h.1, fun _ hr => by cases hr⟩) ?_
  rintro deviceId s' ⟨rfl, hdeviceId⟩
  refine (identifier_ensures _).bind (fun e s'' h => ⟨h.1, fun _ hr => by cases hr⟩) ?_
  rintro correlationId s' ⟨rfl, -⟩
  refine (reading_ensures _).bind (fun e s'' h => ⟨h.2, fun _ hr => by cases hr⟩) ?_
  rintro found s' ⟨hfound, rfl⟩
  obtain rfl := Except.ok.inj hfound
  rcases hstored : s'.store.sessions[sessionId]? with _ | session
  · exact hrefused _
  dsimp only
  split
  · exact hrefused _
  rename_i hactive
  split
  · exact hrefused _
  rename_i hdevice
  refine .pure ⟨rfl, fun authenticated h => ?_⟩
  obtain rfl := Except.ok.inj (Except.ok.inj h)
  refine ⟨⟨sessionId, ?_, hstored⟩, by simpa using hactive, not_not.1 hdevice, hdeviceId _ rfl⟩
  rw [authorizationValue_eq hvalue, hsessionId sessionId rfl]

/-! ## Transmissions -/

variable {plane : ControlPlane ω ρ} {now : TimePoint}

theorem allowed_ensures (action : TransmissionRateLimitAction) (sessionId : SessionId)
    (deviceId : DeviceId) :
    Ensures (plane.allowed action sessionId deviceId now) s fun _ s' => s'.audited = s.audited
      ∧ s'.sessionsIssued = s.sessionsIssued := by
  refine (reading_ensures _).bind (fun e s' h => by rw [h.2]; exact ⟨rfl, rfl⟩) ?_
  rintro player s' ⟨-, rfl⟩
  rcases player with _ | playerId
  · exact .pure ⟨rfl, rfl⟩
  · exact outside_ensures _

/-- A command that is asked first whether it is within its limit. -/
theorem allowed_auditing_ensures (action : TransmissionRateLimitAction) (sessionId : SessionId)
    (deviceId : DeviceId) {f : Bool → AuditedStore ω → α × AuditedStore ω}
    {Q : Except ServiceException α → ControlPlaneState ω ρ → Prop}
    (herror : ∀ e s', s'.store = s.store → s'.sessionsIssued = s.sessionsIssued → Q (.error e) s')
    (hok : ∀ allowed s', s'.store = (f allowed s.audited).2.store →
      s'.sessionsIssued = s.sessionsIssued → Q (.ok (f allowed s.audited).1) s') :
    Ensures (plane.allowed action sessionId deviceId now >>= fun allowed => auditing (f allowed)) s
      Q := by
  refine (allowed_ensures action sessionId deviceId).bind
    (fun e s' h => herror e s' (congrArg AuditedStore.store h.1) h.2) ?_
  rintro allowed s' ⟨haudited, hissued⟩
  refine (auditing_ensures _).mono ?_
  rintro r s'' ⟨rfl, hs'', hissued'⟩
  rw [haudited] at hs'' ⊢
  exact hok allowed s'' (congrArg AuditedStore.store hs'') (hissued'.trans hissued)

theorem start_ensures (command : StartTransmissionCommand) :
    Ensures (plane.transmissions.start command now) s fun r s' =>
      (s'.store = s.store ∧ s'.sessionsIssued = s.sessionsIssued ∧ ∀ t, r ≠ .ok (.ok t))
        ∨ ∃ t, r = .ok (.ok t) ∧ s'.store = s.store.emplace t
          ∧ s'.sessionsIssued = s.sessionsIssued
          ∧ s.store.activeTransmissions[t.authorization.transmissionId]? = none
          ∧ t.sessionId = command.sessionId ∧ t.deviceId = command.deviceId
          ∧ s.store.HasLiveSession t := by
  refine allowed_auditing_ensures _ _ _ (fun e s' hstore hissued => .inl ⟨hstore, hissued, nofun⟩)
    fun allowed s' hstore hissued => ?_
  rw [hstore, hissued]
  rcases TransmissionApplicationService.start_cases plane.observer s.store now s.audited.observer
    command allowed (plane.transmissionIds s.audited.generated) with
    ⟨e, he, hsame⟩ | ⟨t, ht, hid, hfresh, hemplaced, -⟩
  · refine .inl ⟨hsame, rfl, fun t ht => ?_⟩
    have hok := Except.ok.inj ht
    rw [AuditedStore.start] at hok
    cases he.symm.trans hok
  · obtain ⟨hsession, hdevice, hlive⟩ := TransmissionApplicationService.start_ok ht
    refine .inr ⟨t, congrArg Except.ok ht, hemplaced, rfl, ?_, hsession, hdevice, hlive⟩
    rw [hid]
    exact hfresh

theorem end_ensures (command : EndTransmissionCommand) :
    Ensures (plane.transmissions.end command now) s fun r s' =>
      (s'.store = s.store ∧ s'.sessionsIssued = s.sessionsIssued ∧ ∀ e, r ≠ .ok (.ok e))
        ∨ ∃ t e, r = .ok (.ok e) ∧ s'.store = s.store.eraseTransmission command.transmissionId
          ∧ s'.sessionsIssued = s.sessionsIssued
          ∧ s.store.activeTransmissions[command.transmissionId]? = some t
          ∧ t.sessionId = command.sessionId ∧ t.deviceId = command.deviceId := by
  refine allowed_auditing_ensures _ _ _ (fun e s' hstore hissued => .inl ⟨hstore, hissued, nofun⟩)
    fun allowed s' hstore hissued => ?_
  rw [hstore, hissued]
  rcases TransmissionApplicationService.end_cases plane.observer s.store now s.audited.observer
    command allowed with
    ⟨e, he, hsame⟩ | ⟨t, ht, hsession, hdevice, hok, herased⟩
  · refine .inl ⟨hsame, rfl, fun e' he' => ?_⟩
    cases he.symm.trans (Except.ok.inj he')
  · exact .inr ⟨t, _, congrArg Except.ok hok, herased, rfl, ht, hsession, hdevice⟩

theorem interruptForModeration_ensures (command : ModerateTransmissionCommand) :
    Ensures (plane.transmissions.interruptForModeration command now) s fun r s' =>
      (s'.store = s.store ∧ s'.sessionsIssued = s.sessionsIssued ∧ ∀ e, r ≠ .ok (.ok e))
        ∨ ∃ session e, r = .ok (.ok e)
          ∧ s'.store = s.store.eraseTransmission command.transmissionId
          ∧ s'.sessionsIssued = s.sessionsIssued
          ∧ s.store.sessions[command.sessionId]? = some session
          ∧ plane.canInterrupt s.store s.outside session.playerId command.transmissionId
            = .ok true := by
  refine (reading_ensures _).bind (fun e s' h => .inl ⟨congrArg ControlPlaneState.store h.2,
    congrArg ControlPlaneState.sessionsIssued h.2, nofun⟩) ?_
  rintro allowed s' ⟨hallowed, rfl⟩
  refine (auditing_ensures _).mono ?_
  rintro r s'' ⟨rfl, hs'', hissued⟩
  have hstore : s''.store = _ := congrArg AuditedStore.store hs''
  rw [hstore, hissued]
  rcases TransmissionApplicationService.interruptForModeration_cases plane.observer s'.store now
    s'.audited.observer command (fun _ _ => allowed) with
    ⟨e, he, hsame⟩ | ⟨session, t, hsession, hdevice, hactive, hmay, -, hok, herased⟩
  · refine .inl ⟨hsame, rfl, fun e' he' => ?_⟩
    cases he.symm.trans (Except.ok.inj he')
  · refine .inr ⟨session, _, congrArg Except.ok hok, herased, rfl, hsession, ?_⟩
    have hplayer : s'.playerFor command.sessionId command.deviceId now = some session.playerId := by
      simp [ControlPlaneState.playerFor, requireSession, hsession, hdevice, hactive,
        Except.toOption]
    rw [hplayer] at hallowed
    exact hallowed.symm.trans (congrArg Except.ok hmay)

/-! ## Memberships -/

variable (now) in
theorem updateMembershipLocked_store (c : Store) (subject : PlayerId)
    (context : AuthoritativeMembershipContext) (correlationId : CorrelationId)
    (change : AuthoritativeContextChange) :
    let r := c.updateMembershipLocked subject context now correlationId change
    (∃ e, r.1 = .error e ∧ r.2 = c)
      ∨ ∃ ended, r.1 = .ok ended
        ∧ r.2 = c.withContext subject (c.memberships.insert subject context) := by
  intro r
  simp only [r, Store.updateMembershipLocked]
  split
  · exact .inl ⟨_, rfl, rfl⟩
  · split_ifs
    · exact .inl ⟨_, rfl, rfl⟩
    · exact .inr ⟨_, rfl, rfl⟩

theorem replaceMembership_ensures (subject : PlayerId) (context : AuthoritativeMembershipContext)
    (correlationId : CorrelationId) :
    Ensures (plane.administration.replaceMembership subject context now correlationId) s fun r s' =>
      s'.sessionsIssued = s.sessionsIssued
        ∧ ((s'.store = s.store ∧ ∃ e, r = .ok (.error e)) ∨ ∃ ended, r = .ok (.ok ended)
          ∧ s'.store = s.store.withContext subject (s.store.memberships.insert subject context)) := by
  unfold administration
  dsimp only
  refine (auditing_ensures _).mono ?_
  rintro r s' ⟨rfl, hs', hissued⟩
  have hstore : s'.store
      = (s.store.replaceMembershipLocked subject context now correlationId).2 :=
    congrArg AuditedStore.store hs'
  refine ⟨hissued, ?_⟩
  rw [hstore]
  rcases updateMembershipLocked_store now s.store subject context correlationId
    .membershipChanged with ⟨e, he, hsame⟩ | ⟨ended, hended, hreplaced⟩
  · exact .inl ⟨hsame, e, congrArg Except.ok he⟩
  · exact .inr ⟨ended, congrArg Except.ok hended, hreplaced⟩

theorem removeMembership_ensures (subject : PlayerId) (correlationId : CorrelationId) :
    Ensures (plane.administration.removeMembership subject now correlationId) s fun r s' =>
      s'.sessionsIssued = s.sessionsIssued ∧ (∃ ended, r = .ok ended)
        ∧ s'.store = s.store.withContext subject (s.store.memberships.erase subject) := by
  unfold administration
  dsimp only
  refine (auditing_ensures _).mono ?_
  rintro r s' ⟨rfl, hs', hissued⟩
  exact ⟨hissued, ⟨_, rfl⟩, congrArg AuditedStore.store hs'⟩

/-! ## Answers that change nothing -/

section Reads

theorem unchanged_reading (f : ControlPlaneState ω ρ → Except ServiceException α) :
    Ensures (reading f) s fun _ => Unchanged s :=
  (reading_ensures f).mono fun _ _ h => by rw [h.2]; exact .refl

theorem unchanged_serving
    (f : ControlPlaneState ω ρ → Except ServiceException α × DirectoryApplicationService) :
    Ensures (serving f) s fun _ => Unchanged s :=
  (serving_ensures f).mono fun _ _ h => .of_audited h.1 h.2

theorem directoryResponse_unchanged (request : HttpRequest) (actor : PlayerId)
    (count : Store → ρ → PlayerId → ℕ) :
    Ensures (directoryResponse request actor (directoryService (ω := ω) count)) s
      fun _ => Unchanged s := by
  refine (unchanged_serving _).keeps fun r s' h => ?_
  split
  · exact .pure h
  · exact .pure h
  · dsimp only
    split
    · exact .pure h
    · exact .pure h

theorem presenceResponse_unchanged (actor : PlayerId) (afterVersion : Option ℕ)
    (count : Store → ρ → PlayerId → ℕ) :
    Ensures (presenceResponse actor afterVersion (directoryService (ω := ω) count) now) s
      fun _ => Unchanged s := by
  refine (unchanged_serving _).keeps fun r s' h => ?_
  split
  · exact .pure h
  · exact .pure h
  · exact .pure h

theorem membershipResponse_unchanged (session : AuthenticatedSession) :
    Ensures (membershipResponse session
      (membershipProvider : MembershipProvider (ControlPlaneState ω ρ))) s
      fun _ => Unchanged s := by
  refine (unchanged_reading _).keeps fun r s' h => ?_
  split
  · exact .pure h
  · split
    · exact .pure h
    · exact .pure h

theorem voiceGrantResponse_unchanged (authenticated : RequestSession)
    (derive : ControlPlaneState ω ρ → SessionId → DeviceId → TimePoint →
      Except ServiceException (Except VoiceGrantError VoiceGrantClaims))
    (issue : VoiceGrantClaims → Except ServiceException (List IssuedVoiceRoomGrant))
    (voiceServerUrl : Bytes) :
    Ensures (voiceGrantResponse authenticated (fun sessionId deviceId now =>
      reading fun s => derive s sessionId deviceId now) (fun claims => reading fun _ => issue claims)
      voiceServerUrl now) s fun _ => Unchanged s := by
  refine (unchanged_reading _).keeps fun r s' h => ?_
  split
  · exact .pure h
  · refine Ensures.keeps ?_ fun grants s'' h' => ?_
    · exact (reading_ensures _).mono fun _ _ hr => by rw [hr.2]; exact h
    · split
      · exact .pure h'
      · exact .pure h'

end Reads

/-! ## Answers that may change the store -/

section Changes

variable {authenticated : RequestSession}

/-- The request's session, as the store has it. -/
structure Current (s : Store) (authenticated : RequestSession) : Prop where
  stored : s.sessions[authenticated.session.sessionId]? = some authenticated.session
  device : authenticated.session.deviceId = authenticated.deviceId

theorem Current.ownedBy (h : Current s.store authenticated) {t : ActiveTransmission}
    (hsession : t.sessionId = authenticated.session.sessionId)
    (hdevice : t.deviceId = authenticated.deviceId)
    (hplayer : ∃ session, s.store.sessions[t.sessionId]? = some session
      ∧ session.playerId = t.authorization.senderPlayerId ∧ session.deviceId = t.deviceId) :
    OwnedBy t authenticated.session := by
  obtain ⟨session, hstored, hsender, -⟩ := hplayer
  rw [hsession, h.stored] at hstored
  obtain rfl := Option.some.inj hstored
  exact ⟨hsender.symm, hsession, hdevice.trans h.device.symm⟩

theorem startTransmissionResponse_outcome (h : Current s.store authenticated) (body : JsonObject) :
    Ensures (startTransmissionResponse authenticated body plane.transmissions now) s
      (Outcome s (SessionChange plane s authenticated.session)) := by
  unfold startTransmissionResponse
  split
  · exact outcome_pure
  split
  · refine outcome_identifier fun clientTransmissionId _ => ?_
    refine (start_ensures _).bind ?_ ?_
    · rintro e s'' (⟨hstore, hissued, -⟩ | ⟨t, ht, -⟩)
      · exact .inl ⟨hstore, Nat.le_of_eq hissued.symm⟩
      · cases ht
    · rintro r s'' (⟨hstore, hissued, hrejected⟩ | ⟨t, ht, hstore, hissued, hfresh, hsession,
        hdevice, session, hstored, hsender, hbound, -⟩)
      · rcases r with error | t
        · exact .pure (.inl ⟨hstore, Nat.le_of_eq hissued.symm⟩)
        · exact absurd rfl (hrejected t)
      · obtain rfl := Except.ok.inj ht
        refine .pure (.inr ⟨_, rfl, show (201 : Int) < 400 by omega, ?_, hissued⟩)
        rw [hstore]
        exact .start t (h.ownedBy hsession hdevice ⟨session, hstored, hsender, hbound⟩) hfresh
  · exact outcome_pure

theorem endTransmissionResponse_outcome (h : Current s.store authenticated)
    (hbound : s.store.Bound) (transmissionId : Bytes) :
    Ensures (endTransmissionResponse authenticated transmissionId plane.transmissions now) s
      (Outcome s (SessionChange plane s authenticated.session)) := by
  unfold endTransmissionResponse
  refine outcome_identifier fun id _ => ?_
  refine (end_ensures _).bind ?_ ?_
  · rintro e s'' (⟨hstore, hissued, -⟩ | ⟨t, ended, hended, -⟩)
    · exact .inl ⟨hstore, Nat.le_of_eq hissued.symm⟩
    · cases hended
  · rintro r s'' (⟨hstore, hissued, hrejected⟩ | ⟨t, ended, hended, hstore, hissued, ht, hsession,
      hdevice⟩)
    · rcases r with error | ended
      · exact .pure (.inl ⟨hstore, Nat.le_of_eq hissued.symm⟩)
      · exact absurd rfl (hrejected ended)
    · obtain rfl := Except.ok.inj hended
      refine .pure (.inr ⟨_, rfl, show (200 : Int) < 400 by omega, ?_, hissued⟩)
      rw [hstore]
      exact .end id t ht (h.ownedBy hsession hdevice (hbound id t ht))

theorem moderateTransmissionResponse_outcome (h : Current s.store authenticated)
    (transmissionId : Bytes) :
    Ensures (moderateTransmissionResponse authenticated transmissionId plane.transmissions now) s
      (Outcome s (SessionChange plane s authenticated.session)) := by
  unfold moderateTransmissionResponse
  refine outcome_identifier fun id _ => ?_
  refine (interruptForModeration_ensures _).bind ?_ ?_
  · rintro e s'' (⟨hstore, hissued, -⟩ | ⟨session, ended, hended, -⟩)
    · exact .inl ⟨hstore, Nat.le_of_eq hissued.symm⟩
    · cases hended
  · rintro r s'' (⟨hstore, hissued, hrejected⟩ | ⟨session, ended, hended, hstore, hissued,
      hstored, hmay⟩)
    · rcases r with error | ended
      · exact .pure (.inl ⟨hstore, Nat.le_of_eq hissued.symm⟩)
      · exact absurd rfl (hrejected ended)
    · obtain rfl := Except.ok.inj hended
      obtain rfl := Option.some.inj (h.stored.symm.trans hstored)
      refine .pure (.inr ⟨_, rfl, show (200 : Int) < 400 by omega, ?_, hissued⟩)
      rw [hstore]
      exact .interrupt id hmay

theorem replaceMembershipResponse_outcome {a : MembershipAuthorizer ρ} {subject : PlayerId}
    (ha : plane.administrationAuthorizer = some a)
    (hmay : a.canReplace s.store s.outside authenticated.session.playerId subject = .ok true)
    (body : JsonObject) :
    Ensures (replaceMembershipResponse authenticated subject body plane.administration now) s
      (Outcome s (SessionChange plane s authenticated.session)) := by
  unfold replaceMembershipResponse
  split
  · exact outcome_pure
  split
  · refine outcome_reading fun current _ => ?_
    rcases current with _ | current
    · exact outcome_pure
    dsimp only
    split
    · exact outcome_pure
    refine outcome_identifier fun groupId _ => ?_
    refine outcome_identifier fun specializationId _ => ?_
    refine outcome_identifier fun teamId _ => ?_
    split
    · exact outcome_pure
    refine Ensures.tryCatch (R := Outcome s (SessionChange plane s authenticated.session))
      ?_ (fun _ _ h => h) ?_
    · refine (replaceMembership_ensures _ _ _).bind ?_ ?_
      · rintro e s' ⟨hissued, ⟨-, e', he⟩ | ⟨ended, he, -⟩⟩
        · cases he
        · cases he
      · rintro r s' ⟨hissued, ⟨hstore, e, he⟩ | ⟨ended, hended, hstore⟩⟩
        · obtain rfl := Except.ok.inj he
          exact .pure (.inl ⟨hstore, Nat.le_of_eq hissued.symm⟩)
        · obtain rfl := Except.ok.inj hended
          refine .pure (.inr ⟨_, rfl, show (200 : Int) < 400 by omega, ?_, hissued⟩)
          rw [hstore]
          exact .replace a subject _ ha hmay
    · rintro e s' (hunchanged | ⟨response, hresponse, -⟩)
      · cases e with
        | invalidArgument => exact .pure (.inl hunchanged)
        | other => exact .throw (.inl hunchanged)
      · cases hresponse
  · exact outcome_pure

/-! ## Routes -/

variable (request : HttpRequest)

theorem administerMembership_outcome (subjectValue : Bytes) :
    Ensures (plane.adapter.administerMembership request now authenticated subjectValue) s
      (Outcome s (SessionChange plane s authenticated.session)) := by
  unfold ControlPlaneHttpAdapter.administerMembership
  split
  · exact outcome_pure
  split
  · rename_i administration authorizer hadministration hauthorizer
    obtain ⟨a, ha, rfl⟩ := Option.map_eq_some_iff.1 hauthorizer
    obtain rfl : plane.administration = administration := by
      unfold adapter at hadministration
      dsimp only at hadministration
      split_ifs at hadministration
      exact Option.some.inj hadministration
    refine outcome_identifier fun subject _ => ?_
    dsimp only
    split
    · refine outcome_reading fun allowed _ => ?_
      split
      · exact outcome_pure
      · exact outcome_of_unchanged (membershipResponse_unchanged _)
    split
    · refine outcome_reading fun allowed hallowed => ?_
      split
      · exact outcome_pure
      rename_i htrue
      obtain rfl : allowed = true := by simpa using htrue
      refine outcome_reading fun current _ => ?_
      split
      · exact outcome_pure
      · refine (removeMembership_ensures _ _).bind ?_ ?_
        · rintro e s'' ⟨-, ⟨ended, hended⟩, -⟩
          cases hended
        · rintro ended s'' ⟨hissued, -, hstore⟩
          refine .pure (.inr ⟨_, rfl, show (200 : Int) < 400 by omega, ?_, hissued⟩)
          rw [hstore]
          exact .remove a subject ha hallowed
    split
    · refine outcome_reading fun allowed hallowed => ?_
      split
      · exact outcome_pure
      rename_i htrue
      obtain rfl : allowed = true := by simpa using htrue
      split
      · exact outcome_pure
      · exact replaceMembershipResponse_outcome ha hallowed _
    · exact outcome_pure
  · exact outcome_pure

theorem readDirectory_unchanged :
    Ensures (plane.adapter.readDirectory request authenticated) s fun _ => Unchanged s := by
  unfold ControlPlaneHttpAdapter.readDirectory
  split
  · exact .pure .refl
  split
  · exact .pure .refl
  · rename_i directory hdirectory
    obtain ⟨count, -, rfl⟩ := Option.map_eq_some_iff.1 hdirectory
    exact directoryResponse_unchanged request _ count

theorem readPresence_unchanged :
    Ensures (plane.adapter.readPresence request now authenticated) s fun _ => Unchanged s := by
  unfold ControlPlaneHttpAdapter.readPresence
  split
  · exact .pure .refl
  split
  · exact .pure .refl
  split
  · exact .pure .refl
  split
  · exact .pure .refl
  · rename_i directory hdirectory
    obtain ⟨count, -, rfl⟩ := Option.map_eq_some_iff.1 hdirectory
    exact presenceResponse_unchanged _ _ count

theorem issueGrants_unchanged :
    Ensures (plane.adapter.issueGrants request now authenticated) s fun _ => Unchanged s := by
  unfold ControlPlaneHttpAdapter.issueGrants
  split
  · exact .pure .refl
  split
  · rename_i derive issue _ _ hderive hissue _
    obtain ⟨policy, -, rfl⟩ := Option.map_eq_some_iff.1 hderive
    obtain ⟨issuer, -, rfl⟩ := Option.map_eq_some_iff.1 hissue
    exact voiceGrantResponse_unchanged _ _ _ _
  · exact .pure .refl

theorem transmissionRoute_outcome (h : Current s.store authenticated) (hbound : s.store.Bound)
    (transmissionId : Bytes) :
    Ensures (plane.adapter.transmissionRoute request now authenticated transmissionId) s
      (Outcome s (SessionChange plane s authenticated.session)) := by
  unfold ControlPlaneHttpAdapter.transmissionRoute
  split
  · dsimp only
    split
    · exact outcome_pure
    · exact moderateTransmissionResponse_outcome h _
  split
  · exact endTransmissionResponse_outcome h hbound _
  · exact outcome_pure

/-- Whatever a route behind the check of the session ends in. -/
theorem sessionRoutes_outcome (h : Current s.store authenticated) (hbound : s.store.Bound) :
    Ensures (plane.adapter.sessionRoutes request now authenticated) s
      (Outcome s (SessionChange plane s authenticated.session)) := by
  unfold ControlPlaneHttpAdapter.sessionRoutes
  split
  · exact outcome_of_unchanged (readDirectory_unchanged request)
  split
  · exact outcome_of_unchanged (readPresence_unchanged request)
  split
  · exact administerMembership_outcome request _
  split
  · split
    · exact outcome_pure
    · exact outcome_of_unchanged (membershipResponse_unchanged _)
  split
  · exact outcome_of_unchanged (issueGrants_unchanged request)
  split
  · split
    · exact outcome_pure
    · exact startTransmissionResponse_outcome h _
  split
  · exact transmissionRoute_outcome request h hbound _
  · exact outcome_pure

end Changes

end ControlPlane

end VoxTree

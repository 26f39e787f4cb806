import VoxTree.Audit
import VoxTree.ControlPlaneHttp
import VoxTree.Directory
import VoxTree.VoiceGrants

/-!
# The control plane put together

`main` of the control plane: one store behind the adapter's sessions, memberships, transmissions
and administration. The identity provider, the rate limiter, the authorizers, the token issuer and
the presence of the transport are left open. They have a state of their own and may throw; the
authorizers and the presence read the store.
-/

namespace VoxTree

/-! ## Collaborators -/

/-- `VerifiedIdentity`, with what the result of a verification checks. -/
structure VerifiedIdentity where
  playerId : PlayerId
  maximumSessionLifetime : Milliseconds
  positive : 0 < maximumSessionLifetime

/-- `IdentitySessionPolicy`, with what its constructor checks. -/
structure IdentitySessionPolicy where
  maximumSessionLifetime : Milliseconds
  positive : 0 < maximumSessionLifetime

/-- `ISessionIdGenerator`, whose identifiers are unique. -/
structure SessionIdGenerator where
  nextSession : ℕ → SessionId
  unique : Function.Injective nextSession

inductive TransmissionRateLimitAction
  | start | end
  deriving DecidableEq

/-- `IAdministrativeMembershipAuthorizer`; an answer may be an exception. -/
structure MembershipAuthorizer (ρ : Type) where
  canRead : Store → ρ → PlayerId → PlayerId → Except ServiceException Bool
  canRemove : Store → ρ → PlayerId → PlayerId → Except ServiceException Bool
  canReplace : Store → ρ → PlayerId → PlayerId → Except ServiceException Bool

/-- What the control plane is put together from. -/
structure ControlPlane (ω ρ : Type) where
  observer : LifecycleObserver ω
  verify : Bytes → DeviceId → TimePoint →
    Service ρ (Except SessionAuthenticationError VerifiedIdentity)
  sessionIds : SessionIdGenerator
  sessionPolicy : IdentitySessionPolicy
  transmissionIds : ℕ → TransmissionId
  allow : PlayerId → TransmissionRateLimitAction → TimePoint → Service ρ Bool
  canInterrupt : Store → ρ → PlayerId → TransmissionId → Except ServiceException Bool
  maximumDuration : Milliseconds
  administered : Bool := true
  administrationAuthorizer : Option (MembershipAuthorizer ρ) := none
  voiceGrants : Option VoiceGrantPolicy := none
  voiceGrantIssuer : Option (VoiceGrantClaims → Except ServiceException (List IssuedVoiceRoomGrant))
    := none
  voiceServerUrl : Bytes := []
  transportPresence : Option (Store → ρ → PlayerId → ℕ) := none

/-- The store with its audit events, the directory, the number of sessions issued, and the state
of the collaborators. -/
structure ControlPlaneState (ω ρ : Type) where
  audited : AuditedStore ω
  directory : DirectoryApplicationService := {}
  sessionsIssued : ℕ := 0
  outside : ρ

variable {ω ρ α : Type}

namespace ControlPlaneState

def store (s : ControlPlaneState ω ρ) : Store := s.audited.store

/-- The authoritative membership provider that the store is. -/
def memberships (s : ControlPlaneState ω ρ) : Memberships := fun playerId =>
  s.store.memberships[playerId]?

/-- The player of a session that a command may use. -/
def playerFor (s : ControlPlaneState ω ρ) (sessionId : SessionId) (deviceId : DeviceId)
    (now : TimePoint) : Option PlayerId :=
  (requireSession () () () s.store sessionId deviceId now).toOption.map
    AuthenticatedSession.playerId

end ControlPlaneState

namespace ControlPlane

/-! ## Calls -/

/-- A call that reads. -/
def reading (f : ControlPlaneState ω ρ → Except ServiceException α) :
    Service (ControlPlaneState ω ρ) α :=
  ExceptT.mk fun s => (f s, s)

/-- A call of a collaborator. -/
def outside (call : Service ρ α) : Service (ControlPlaneState ω ρ) α :=
  ExceptT.mk fun s =>
    let r := call.run.run s.outside
    (r.1, { s with outside := r.2 })

/-- A call of the store or of the transmission service. -/
def auditing (f : AuditedStore ω → α × AuditedStore ω) : Service (ControlPlaneState ω ρ) α :=
  ExceptT.mk fun s =>
    let r := f s.audited
    (.ok r.1, { s with audited := r.2 })

/-- A call of the directory service. -/
def serving (f : ControlPlaneState ω ρ → Except ServiceException α × DirectoryApplicationService) :
    Service (ControlPlaneState ω ρ) α :=
  ExceptT.mk fun s =>
    let r := f s
    (r.1, { s with directory := r.2 })

variable (plane : ControlPlane ω ρ)

/-! ## Sessions -/

def nextSession : Service (ControlPlaneState ω ρ) SessionId :=
  ExceptT.mk fun s =>
    (.ok (plane.sessionIds.nextSession s.sessionsIssued),
      { s with sessionsIssued := s.sessionsIssued + 1 })

/-- `IdentitySessionAuthenticator::authenticate`. -/
def authenticate (command : AuthenticateSessionCommand) (now : TimePoint) :
    Service (ControlPlaneState ω ρ) (Except SessionAuthenticationError AuthenticatedSession) := do
  match ← outside (plane.verify command.credential command.deviceId now) with
  | .error error => pure (.error error)
  | .ok identity =>
    let lifetime : Milliseconds :=
      min identity.maximumSessionLifetime plane.sessionPolicy.maximumSessionLifetime
    let sessionId ← plane.nextSession
    pure (.ok ⟨sessionId, identity.playerId, command.deviceId, now + lifetime.toNanoseconds⟩)

def sessions : SessionRepository (ControlPlaneState ω ρ) where
  find sessionId := reading fun s => .ok s.store.sessions[sessionId]?
  upsert session := auditing fun c => ((), { c with store := c.store.upsertSession session })

/-! ## Transmissions -/

/-- Asks the rate limiter; a command whose session is refused does not get so far. -/
def allowed (action : TransmissionRateLimitAction) (sessionId : SessionId) (deviceId : DeviceId)
    (now : TimePoint) : Service (ControlPlaneState ω ρ) Bool := do
  match ← reading fun s => .ok (s.playerFor sessionId deviceId now) with
  | none => pure true
  | some playerId => outside (plane.allow playerId action now)

/-- Asks the moderation authorizer; a command whose session is refused does not get so far. -/
def mayInterrupt (command : ModerateTransmissionCommand) (now : TimePoint) :
    Service (ControlPlaneState ω ρ) Bool :=
  reading fun s =>
    match s.playerFor command.sessionId command.deviceId now with
    | none => .ok false
    | some playerId => plane.canInterrupt s.store s.outside playerId command.transmissionId

def transmissions : TransmissionService (ControlPlaneState ω ρ) where
  start command now := do
    let allowed ← plane.allowed .start command.sessionId command.deviceId now
    auditing fun c => c.start plane.observer plane.transmissionIds command now allowed
  «end» command now := do
    let allowed ← plane.allowed .end command.sessionId command.deviceId now
    auditing fun c => c.end plane.observer command now allowed
  interruptForModeration command now := do
    let allowed ← plane.mayInterrupt command now
    auditing fun c => c.interruptForModeration plane.observer command now fun _ _ => allowed

/-! ## Memberships -/

def membershipProvider : MembershipProvider (ControlPlaneState ω ρ) where
  currentFor playerId := reading fun s => .ok (s.memberships playerId)

def step (op : AuditedOp) (c : AuditedStore ω) : AuditedStore ω :=
  c.step plane.observer plane.transmissionIds plane.maximumDuration op

def administration : AdministrativeMembershipService (ControlPlaneState ω ρ) where
  toMembershipProvider := membershipProvider
  replaceMembership playerId context now correlationId := auditing fun c =>
    ((c.store.replaceMembershipLocked playerId context now correlationId).1,
      plane.step (.replaceMembership playerId context now correlationId) c)
  removeMembership playerId now correlationId := auditing fun c =>
    ((c.store.removeMembershipLocked playerId now correlationId).1,
      plane.step (.removeMembership playerId now correlationId) c)

def authorizer (a : MembershipAuthorizer ρ) :
    AdministrativeMembershipAuthorizer (ControlPlaneState ω ρ) where
  canRead actor subject := reading fun s => a.canRead s.store s.outside actor subject
  canRemove actor subject := reading fun s => a.canRemove s.store s.outside actor subject
  canReplace actor subject := reading fun s => a.canReplace s.store s.outside actor subject

/-! ## The rest -/

def directoryService (connectedScopeCount : Store → ρ → PlayerId → ℕ) :
    DirectoryService (ControlPlaneState ω ρ) where
  directoryFor actor := serving fun s => s.directory.directoryFor s.memberships actor
  presenceFor actor afterVersion observedAt := serving fun s =>
    s.directory.presenceFor s.memberships (connectedScopeCount s.store s.outside) actor
      afterVersion observedAt

def adapter : ControlPlaneHttpAdapter (ControlPlaneState ω ρ) where
  authenticate := plane.authenticate
  sessions := sessions
  memberships := membershipProvider
  transmissions := plane.transmissions
  administration := if plane.administered then some plane.administration else none
  administrationAuthorizer := plane.administrationAuthorizer.map authorizer
  deriveVoiceGrants := plane.voiceGrants.map fun policy sessionId deviceId now =>
    reading fun s => .ok (VoiceGrantAuthorizationService.derive s.store policy sessionId deviceId now)
  issueVoiceGrants := plane.voiceGrantIssuer.map fun issue claims => reading fun _ => issue claims
  voiceServerUrl := plane.voiceServerUrl
  directory := plane.transportPresence.map directoryService

end ControlPlane

/-! ## Runs -/

inductive ControlPlaneStep (ω ρ : Type)
  | request (request : HttpRequest) (now : TimePoint)
  | operation (op : AuditedOp)
  | directory (op : DirectoryOp)
  | outside (outside : ρ)
  | restart (observer : ω) (outside : ρ)

namespace ControlPlane

variable (plane : ControlPlane ω ρ)

/-- Sessions are issued for requests only. A restart keeps them and the memberships, as the
repositories behind the store do. -/
def next (s : ControlPlaneState ω ρ) : ControlPlaneStep ω ρ → ControlPlaneState ω ρ
  | .request request now => (plane.adapter.handle request now s).2
  | .operation (.upsertSession _) => s
  | .operation op => { s with audited := plane.step op s.audited }
  | .directory op => { s with directory := op.call s.directory }
  | .outside outside => { s with outside }
  | .restart observer outside =>
    { s with
      audited :=
        { s.audited with store := { s.store with activeTransmissions := ∅ }, observer }
      directory := {}
      outside }

def run (observer : ω) (outside : ρ) (steps : List (ControlPlaneStep ω ρ)) :
    ControlPlaneState ω ρ :=
  steps.foldl plane.next { audited := ⟨{}, observer, [], 0⟩, outside }

end ControlPlane

end VoxTree

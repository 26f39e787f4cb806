import VoxTree.Store
import VoxTree.Lib.Machine

/-!
# Starting and ending a transmission

`TransmissionApplicationService` over the store. What the rate limiter answers and which identifier
the generator hands out are arguments. A start looks the session up, authorizes and activates, each
under the store's mutex and none of them together; `StartMachine` runs any number of starts between
the other operations of the store.
-/

namespace VoxTree

structure StartTransmissionCommand where
  sessionId : SessionId
  deviceId : DeviceId
  clientTransmissionId : ClientTransmissionId
  scope : VoiceScope
  membershipVersion : Nat
  correlationId : CorrelationId
  deriving DecidableEq

structure EndTransmissionCommand where
  sessionId : SessionId
  deviceId : DeviceId
  transmissionId : TransmissionId
  correlationId : CorrelationId
  deriving DecidableEq

inductive TransmissionAuthorizationError
  | sessionNotFound | sessionDeviceMismatch | sessionExpired | membershipUnavailable
  | voiceNotConnected | voiceNoActiveMembership | voiceScopeNotFound | voiceScopeNotAuthorized
  | voiceTransmitMuted | voiceMembershipStale
  deriving DecidableEq

inductive StartTransmissionError
  | sessionNotFound | sessionDeviceMismatch | sessionExpired | membershipUnavailable
  | voiceNotConnected | voiceNoActiveMembership | voiceScopeNotFound | voiceScopeNotAuthorized
  | voiceTransmitMuted | voiceMembershipStale | sessionChangedDuringStart
  | membershipChangedDuringStart | senderAlreadyTransmitting | speakerLimitReached
  | voiceControlUnavailable | transmissionIdConflict | rateLimited
  deriving DecidableEq

inductive EndTransmissionError
  | sessionNotFound | sessionDeviceMismatch | sessionExpired | transmissionNotFound
  | transmissionNotOwned | rateLimited
  deriving DecidableEq

def mapRoutingError : RoutingError → TransmissionAuthorizationError
  | .voiceNotConnected => .voiceNotConnected
  | .voiceNoActiveMembership => .voiceNoActiveMembership
  | .voiceScopeNotFound => .voiceScopeNotFound
  | .voiceScopeNotAuthorized => .voiceScopeNotAuthorized
  | .voiceTransmitMuted => .voiceTransmitMuted
  | .voiceMembershipStale => .voiceMembershipStale

def mapAuthorizationError : TransmissionAuthorizationError → StartTransmissionError
  | .sessionNotFound => .sessionNotFound
  | .sessionDeviceMismatch => .sessionDeviceMismatch
  | .sessionExpired => .sessionExpired
  | .membershipUnavailable => .membershipUnavailable
  | .voiceNotConnected => .voiceNotConnected
  | .voiceNoActiveMembership => .voiceNoActiveMembership
  | .voiceScopeNotFound => .voiceScopeNotFound
  | .voiceScopeNotAuthorized => .voiceScopeNotAuthorized
  | .voiceTransmitMuted => .voiceTransmitMuted
  | .voiceMembershipStale => .voiceMembershipStale

def mapActivationError : TransmissionActivationError → StartTransmissionError
  | .sessionChanged => .sessionChangedDuringStart
  | .membershipChanged => .membershipChangedDuringStart
  | .senderAlreadyTransmitting => .senderAlreadyTransmitting
  | .speakerLimitReached => .speakerLimitReached
  | .voiceControlFailed => .voiceControlUnavailable
  | .transmissionIdConflict => .transmissionIdConflict

/-- The session checks `start`, `authorizeStart` and `end` begin with, each with its own errors. -/
def requireSession {ε : Type*} (notFound deviceMismatch expired : ε) (s : Store)
    (sessionId : SessionId) (deviceId : DeviceId) (now : TimePoint) :
    Except ε AuthenticatedSession :=
  match s.sessions[sessionId]? with
  | none => .error notFound
  | some session =>
    if session.deviceId ≠ deviceId then .error deviceMismatch
    else if !session.activeAt now then .error expired
    else .ok session

theorem requireSession_ok {ε : Type*} {notFound deviceMismatch expired : ε} {s : Store}
    {sessionId : SessionId} {deviceId : DeviceId} {now : TimePoint}
    {session : AuthenticatedSession}
    (h : requireSession notFound deviceMismatch expired s sessionId deviceId now = .ok session) :
    s.sessions[sessionId]? = some session ∧ session.deviceId = deviceId
      ∧ session.activeAt now = true := by
  unfold requireSession at h
  split at h
  · cases h
  · rename_i stored hstored
    split_ifs at h with hdevice hexpired
    obtain rfl := Except.ok.inj h
    exact ⟨hstored, not_not.1 hdevice, by simpa using hexpired⟩

/-- `TransmissionAuthorizationService::authorizeStart`; `id` is what the generator hands out. -/
def authorizeStart (s : Store) (command : StartTransmissionCommand) (now : TimePoint)
    (id : TransmissionId) : Except TransmissionAuthorizationError AuthorizedTransmission :=
  match requireSession .sessionNotFound .sessionDeviceMismatch .sessionExpired s command.sessionId
      command.deviceId now with
  | .error e => .error e
  | .ok session =>
    match s.memberships[session.playerId]? with
    | none => .error .membershipUnavailable
    | some membership =>
      match RecipientResolver.resolve membership.snapshot membership.rolePolicy
          ⟨session.playerId, command.scope, command.membershipVersion⟩ with
      | .error e => .error (mapRoutingError e)
      | .ok recipients =>
        .ok
          { transmissionId := id
            clientTransmissionId := command.clientTransmissionId
            senderPlayerId := session.playerId
            scope := command.scope
            membershipVersion := membership.snapshot.version
            recipients
            correlationId := command.correlationId }

namespace TransmissionApplicationService

variable {ω : Type*} (observer : LifecycleObserver ω)

/-- What `start` does before it authorizes; `allowed` is the rate limiter's answer. -/
def lookUp (s : Store) (command : StartTransmissionCommand) (now : TimePoint) (allowed : Bool) :
    Except StartTransmissionError AuthenticatedSession :=
  match requireSession .sessionNotFound .sessionDeviceMismatch .sessionExpired s command.sessionId
      command.deviceId now with
  | .error e => .error e
  | .ok session => if allowed then .ok session else .error .rateLimited

def start (s : Store) (command : StartTransmissionCommand) (now : TimePoint) (allowed : Bool)
    (id : TransmissionId) (w : ω) :
    Except StartTransmissionError ActiveTransmission × Store × ω :=
  match lookUp s command now allowed with
  | .error e => (.error e, s, w)
  | .ok _ =>
    match authorizeStart s command now id with
    | .error e => (.error (mapAuthorizationError e), s, w)
    | .ok transmission =>
      let r := s.activate observer transmission command.sessionId command.deviceId now w
      (r.1.mapError mapActivationError, r.2)

/-- What `end` does before it asks the store to end the transmission. -/
def lookUpEnd (s : Store) (command : EndTransmissionCommand) (now : TimePoint) (allowed : Bool) :
    Except EndTransmissionError AuthenticatedSession :=
  match requireSession .sessionNotFound .sessionDeviceMismatch .sessionExpired s command.sessionId
      command.deviceId now with
  | .error e => .error e
  | .ok session => if allowed then .ok session else .error .rateLimited

/-- The rest of `end`. -/
def endActive (s : Store) (command : EndTransmissionCommand) (now : TimePoint) (w : ω) :
    Except EndTransmissionError EndedTransmission × Store × ω :=
  let r := s.end observer command.transmissionId command.sessionId command.deviceId
    .pushToTalkReleased now command.correlationId w
  (r.1.mapError fun
    | .transmissionNotFound => .transmissionNotFound
    | .transmissionNotOwned => .transmissionNotOwned, r.2)

def «end» (s : Store) (command : EndTransmissionCommand) (now : TimePoint) (allowed : Bool)
    (w : ω) : Except EndTransmissionError EndedTransmission × Store × ω :=
  match lookUpEnd s command now allowed with
  | .error e => (.error e, s, w)
  | .ok _ => endActive observer s command now w

end TransmissionApplicationService

/-! ## Starts on several threads -/

namespace StartMachine

/-- Where a thread is in `start`. -/
inductive Phase
  | outside
  | lookedUp (command : StartTransmissionCommand) (now : TimePoint)
  | authorized (command : StartTransmissionCommand) (now : TimePoint)
      (transmission : AuthorizedTransmission)
  deriving DecidableEq

structure State (ω : Type*) where
  store : Store
  observer : ω
  threads : ℕ → Phase

inductive Action
  | lookUp (t : ℕ) (command : StartTransmissionCommand) (now : TimePoint) (allowed : Bool)
  | authorize (t : ℕ) (id : TransmissionId)
  | activate (t : ℕ)
  | store (op : StoreOp)

variable {ω : Type*} (observer : LifecycleObserver ω)

/-- A rejected start leaves `start` again. Every activation belongs to a start. -/
def step (c : State ω) : Action → Option (State ω)
  | .lookUp t command now allowed =>
    match c.threads t with
    | .outside =>
      match TransmissionApplicationService.lookUp c.store command now allowed with
      | .error _ => some c
      | .ok _ => some { c with threads := Function.update c.threads t (.lookedUp command now) }
    | _ => none
  | .authorize t id =>
    match c.threads t with
    | .lookedUp command now =>
      match authorizeStart c.store command now id with
      | .error _ => some { c with threads := Function.update c.threads t .outside }
      | .ok transmission =>
        some { c with threads := Function.update c.threads t (.authorized command now transmission) }
    | _ => none
  | .activate t =>
    match c.threads t with
    | .authorized command now transmission =>
      let r := c.store.activate observer transmission command.sessionId command.deviceId now
        c.observer
      some ⟨r.2.1, r.2.2, Function.update c.threads t .outside⟩
    | _ => none
  | .store op =>
    match op with
    | .activate .. => none
    | op =>
      let r := op.call observer (c.store, c.observer)
      some { c with store := r.1, observer := r.2 }

def initial (w : ω) : State ω := ⟨{}, w, fun _ => .outside⟩

/-- What `RecipientResolver::resolve` makes of a context for the sender and scope of an
authorization, at the context's own version. -/
def resolution (context : AuthoritativeMembershipContext) (transmission : AuthorizedTransmission) :
    Except RoutingError (List PlayerId) :=
  RecipientResolver.resolve context.snapshot context.rolePolicy
    ⟨transmission.senderPlayerId, transmission.scope, context.snapshot.version⟩

/-- What an activation accepted for a start must find in the store: the sender's context resolves
to the recipients, scope and version of the new transmission, and its session is live. -/
structure Current (s : Store) (command : StartTransmissionCommand) (now : TimePoint)
    (entry : ActiveTransmission) : Prop where
  resolved : ∃ context, s.memberships[entry.authorization.senderPlayerId]? = some context
    ∧ entry.authorization.membershipVersion = context.snapshot.version
    ∧ resolution context entry.authorization = .ok entry.authorization.recipients
  scope : entry.authorization.scope = command.scope
  session : ∃ session, s.sessions[entry.sessionId]? = some session
    ∧ session.playerId = entry.authorization.senderPlayerId ∧ session.deviceId = entry.deviceId
    ∧ session.activeAt now = true
  bound : entry.sessionId = command.sessionId ∧ entry.deviceId = command.deviceId
    ∧ entry.startedAt = now

end StartMachine

end VoxTree

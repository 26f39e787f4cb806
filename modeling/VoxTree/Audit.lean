import VoxTree.Services

/-!
# Transmission audit events

`TransmissionApplicationService` and the store hand their events to one sink. The service records
one event for a start, an end or a moderation, and one for each transmission that timed out; the
store records one for each transmission that a session or membership operation interrupts. What
the rate limiter and the moderation authorizer answer are arguments of a command, and the
identifiers come from a generator that is asked once for every authorized start.
-/

namespace VoxTree

inductive TransmissionAuditEventType
  | started | ended | rejected | forciblyInterrupted
  deriving DecidableEq

inductive TransmissionAuditOperation
  | start | end | moderation | timeout | sessionLifecycle | membershipChange
  deriving DecidableEq

inductive TransmissionAuditRejectionReason
  | sessionNotFound | sessionDeviceMismatch | sessionExpired | membershipUnavailable
  | voiceNotConnected | voiceNoActiveMembership | voiceScopeNotFound | voiceScopeNotAuthorized
  | voiceTransmitMuted | voiceMembershipStale | sessionChangedDuringStart
  | membershipChangedDuringStart | senderAlreadyTransmitting | transmissionIdConflict
  | transmissionNotFound | transmissionNotOwned | notAuthorized | rateLimited
  | speakerLimitReached | voiceControlUnavailable
  deriving DecidableEq

structure TransmissionAuditEvent where
  type : TransmissionAuditEventType
  operation : TransmissionAuditOperation
  occurredAt : TimePoint
  correlationId : CorrelationId
  sessionId : Option SessionId := none
  deviceId : Option DeviceId := none
  clientTransmissionId : Option ClientTransmissionId := none
  transmissionId : Option TransmissionId := none
  actorPlayerId : Option PlayerId := none
  senderPlayerId : Option PlayerId := none
  scope : Option VoiceScope := none
  membershipVersion : Option ℕ := none
  recipientCount : Option ℕ := none
  stopReason : Option TransmissionStopReason := none
  rejectionReason : Option TransmissionAuditRejectionReason := none
  deriving DecidableEq

/-! ## Rejection reasons -/

/-- `mapAuditRejection` of a start. -/
def StartTransmissionError.mapAuditRejection :
    StartTransmissionError → TransmissionAuditRejectionReason
  | .sessionNotFound => .sessionNotFound
  | .sessionDeviceMismatch => .sessionDeviceMismatch
  | .sessionExpired => .sessionExpired
  | .membershipUnavailable => .membershipUnavailable
  | .voiceNotConnected => .voiceNotConnected
  | .voiceNoActiveMembership => .voiceNoActiveMembership
  | .voiceScopeNotFound => .voiceScopeNotFound
  | .voiceScopeNotAuthorized => .voiceScopeNotAuthorized
  | .voiceTransmitMuted => .voiceTransmitMuted
  | .voiceMembershipStale => .voiceMembershipStale
  | .sessionChangedDuringStart => .sessionChangedDuringStart
  | .membershipChangedDuringStart => .membershipChangedDuringStart
  | .senderAlreadyTransmitting => .senderAlreadyTransmitting
  | .speakerLimitReached => .speakerLimitReached
  | .voiceControlUnavailable => .voiceControlUnavailable
  | .transmissionIdConflict => .transmissionIdConflict
  | .rateLimited => .rateLimited

/-- `mapAuditRejection` of an end. -/
def EndTransmissionError.mapAuditRejection :
    EndTransmissionError → TransmissionAuditRejectionReason
  | .sessionNotFound => .sessionNotFound
  | .sessionDeviceMismatch => .sessionDeviceMismatch
  | .sessionExpired => .sessionExpired
  | .transmissionNotFound => .transmissionNotFound
  | .transmissionNotOwned => .transmissionNotOwned
  | .rateLimited => .rateLimited

/-- `mapAuditRejection` of a moderation. -/
def ModerateTransmissionError.mapAuditRejection :
    ModerateTransmissionError → TransmissionAuditRejectionReason
  | .sessionNotFound => .sessionNotFound
  | .sessionDeviceMismatch => .sessionDeviceMismatch
  | .sessionExpired => .sessionExpired
  | .notAuthorized => .notAuthorized
  | .transmissionNotFound => .transmissionNotFound

/-! ## Events -/

def addActiveTransmissionDetails (event : TransmissionAuditEvent) (t : ActiveTransmission) :
    TransmissionAuditEvent :=
  { event with
    sessionId := some t.sessionId
    deviceId := some t.deviceId
    clientTransmissionId := some t.authorization.clientTransmissionId
    transmissionId := some t.authorization.transmissionId
    senderPlayerId := some t.authorization.senderPlayerId
    scope := some t.authorization.scope
    membershipVersion := some t.authorization.membershipVersion
    recipientCount := some t.authorization.recipients.length }

/-- The event `recordStartRejected` records. -/
def recordStartRejected (command : StartTransmissionCommand) (now : TimePoint)
    (error : StartTransmissionError) (sender : Option PlayerId) : TransmissionAuditEvent where
  type := .rejected
  operation := .start
  occurredAt := now
  correlationId := command.correlationId
  sessionId := some command.sessionId
  deviceId := some command.deviceId
  clientTransmissionId := some command.clientTransmissionId
  actorPlayerId := sender
  senderPlayerId := sender
  scope := some command.scope
  membershipVersion := some command.membershipVersion
  rejectionReason := some error.mapAuditRejection

/-- The event `recordEndRejected` records. -/
def recordEndRejected (command : EndTransmissionCommand) (now : TimePoint)
    (error : EndTransmissionError) (sender : Option PlayerId) : TransmissionAuditEvent where
  type := .rejected
  operation := .end
  occurredAt := now
  correlationId := command.correlationId
  sessionId := some command.sessionId
  deviceId := some command.deviceId
  transmissionId := some command.transmissionId
  actorPlayerId := sender
  senderPlayerId := sender
  rejectionReason := some error.mapAuditRejection

/-- The event `recordModerationRejected` records. -/
def recordModerationRejected (command : ModerateTransmissionCommand) (now : TimePoint)
    (error : ModerateTransmissionError) (moderator : Option PlayerId) :
    TransmissionAuditEvent where
  type := .rejected
  operation := .moderation
  occurredAt := now
  correlationId := command.correlationId
  sessionId := some command.sessionId
  deviceId := some command.deviceId
  transmissionId := some command.transmissionId
  actorPlayerId := moderator
  rejectionReason := some error.mapAuditRejection

/-- The event `recordStarted` records. -/
def recordStarted (t : ActiveTransmission) : TransmissionAuditEvent :=
  { addActiveTransmissionDetails
      { type := .started
        operation := .start
        occurredAt := t.startedAt
        correlationId := t.authorization.correlationId } t with
    actorPlayerId := some t.authorization.senderPlayerId }

/-- The event `recordEnded` records. -/
def recordEnded (e : EndedTransmission) : TransmissionAuditEvent :=
  { addActiveTransmissionDetails
      { type := .ended
        operation := .end
        occurredAt := e.endedAt
        correlationId := e.correlationId } e.transmission with
    actorPlayerId := some e.transmission.authorization.senderPlayerId
    stopReason := some e.stopReason }

/-- The event `recordForcedInterruption` records, and `recordForcedInterruptions` of the store for
each of its transmissions. -/
def recordForcedInterruption (e : EndedTransmission) (operation : TransmissionAuditOperation)
    (actor : Option PlayerId := none) : TransmissionAuditEvent :=
  { addActiveTransmissionDetails
      { type := .forciblyInterrupted
        operation
        occurredAt := e.endedAt
        correlationId := e.correlationId } e.transmission with
    actorPlayerId := actor
    stopReason := some e.stopReason }

/-! ## Commands and operations -/

namespace TransmissionApplicationService

variable {ω : Type*} (observer : LifecycleObserver ω)

/-- `interruptForModeration`; `canInterrupt` is what the moderation authorizer answers. -/
def interruptForModeration (s : Store) (command : ModerateTransmissionCommand) (now : TimePoint)
    (canInterrupt : PlayerId → TransmissionId → Bool) (w : ω) :
    Except ModerateTransmissionError EndedTransmission × Store × ω :=
  match requireSession .sessionNotFound .sessionDeviceMismatch .sessionExpired s command.sessionId
      command.deviceId now with
  | .error e => (.error e, s, w)
  | .ok session =>
    if !canInterrupt session.playerId command.transmissionId then (.error .notAuthorized, s, w)
    else
      let r := s.interrupt observer command.transmissionId .moderationInterrupted now
        command.correlationId w
      (r.1.mapError fun _ => .transmissionNotFound, r.2)

/-- Whether `start` gets as far as asking the generator for an identifier. -/
def generates (s : Store) (command : StartTransmissionCommand) (now : TimePoint) (allowed : Bool)
    (id : TransmissionId) : Bool :=
  (lookUp s command now allowed).isOk && (authorizeStart s command now id).isOk

end TransmissionApplicationService

/-- A command of the service, or a session or membership operation of the store. -/
inductive AuditedOp
  | start (command : StartTransmissionCommand) (now : TimePoint) (allowed : Bool)
  | end (command : EndTransmissionCommand) (now : TimePoint) (allowed : Bool)
  | interruptForModeration (command : ModerateTransmissionCommand) (now : TimePoint)
      (canInterrupt : PlayerId → TransmissionId → Bool)
  | expireTimedOut (now : TimePoint) (correlationId : CorrelationId)
  | upsertSession (session : AuthenticatedSession)
  | removeSession (sessionId : SessionId) (now : TimePoint) (correlationId : CorrelationId)
  | updateMembership (playerId : PlayerId) (context : AuthoritativeMembershipContext)
      (now : TimePoint) (correlationId : CorrelationId) (change : AuthoritativeContextChange)
  | replaceMembership (playerId : PlayerId) (context : AuthoritativeMembershipContext)
      (now : TimePoint) (correlationId : CorrelationId)
  | removeMembership (playerId : PlayerId) (now : TimePoint) (correlationId : CorrelationId)

/-- The store with its observer, the events the sink got, and the number of identifiers handed
out. -/
structure AuditedStore (ω : Type*) where
  store : Store
  observer : ω
  events : List TransmissionAuditEvent
  generated : ℕ

namespace AuditedStore

variable {ω : Type*} (observer : LifecycleObserver ω) (ids : ℕ → TransmissionId)
  (maximumDuration : Milliseconds) (c : AuditedStore ω)

/-- The player of a session, as a rejection names him. -/
def playerOf (sessionId : SessionId) : Option PlayerId :=
  c.store.sessions[sessionId]?.map AuthenticatedSession.playerId

def start (command : StartTransmissionCommand) (now : TimePoint) (allowed : Bool) :
    Except StartTransmissionError ActiveTransmission × AuditedStore ω :=
  let id := ids c.generated
  let r := TransmissionApplicationService.start observer c.store command now allowed id c.observer
  (r.1,
    { store := r.2.1
      observer := r.2.2
      events := c.events ++ [match r.1 with
        | .ok t => recordStarted t
        | .error e => recordStartRejected command now e (c.playerOf command.sessionId)]
      generated :=
        if TransmissionApplicationService.generates c.store command now allowed id then
          c.generated + 1
        else c.generated })

def «end» (command : EndTransmissionCommand) (now : TimePoint) (allowed : Bool) :
    Except EndTransmissionError EndedTransmission × AuditedStore ω :=
  let r := TransmissionApplicationService.end observer c.store command now allowed c.observer
  (r.1,
    { c with
      store := r.2.1
      observer := r.2.2
      events := c.events ++ [match r.1 with
        | .ok e => recordEnded e
        | .error e => recordEndRejected command now e (c.playerOf command.sessionId)] })

def interruptForModeration (command : ModerateTransmissionCommand) (now : TimePoint)
    (canInterrupt : PlayerId → TransmissionId → Bool) :
    Except ModerateTransmissionError EndedTransmission × AuditedStore ω :=
  let moderator := c.playerOf command.sessionId
  let r := TransmissionApplicationService.interruptForModeration observer c.store command now
    canInterrupt c.observer
  (r.1,
    { c with
      store := r.2.1
      observer := r.2.2
      events := c.events ++ [match r.1 with
        | .ok e => recordForcedInterruption e .moderation moderator
        | .error e => recordModerationRejected command now e moderator] })

/-- A whole operation of the store, its notifications made and the interruptions it reports
recorded as `operation`. -/
def record (op : StoreOp) (operation : TransmissionAuditOperation) : AuditedStore ω :=
  let r := op.locked observer c.store c.observer
  { c with
    store := r.2.1
    observer := Store.notifyEnded observer r.1 r.2.2
    events := c.events ++ r.1.map fun e => recordForcedInterruption e operation }

/-- One command or operation; `maximumDuration` is the service's lifecycle policy. -/
def step : AuditedOp → AuditedStore ω
  | .start command now allowed => (c.start observer ids command now allowed).2
  | .end command now allowed => (c.end observer command now allowed).2
  | .interruptForModeration command now canInterrupt =>
    (c.interruptForModeration observer command now canInterrupt).2
  | .expireTimedOut now correlationId =>
    c.record observer (.expireTimedOut maximumDuration now correlationId) .timeout
  | .upsertSession session => c.record observer (.upsertSession session) .sessionLifecycle
  | .removeSession sessionId now correlationId =>
    c.record observer (.removeSession sessionId now correlationId) .sessionLifecycle
  | .updateMembership playerId context now correlationId change =>
    c.record observer (.updateMembership playerId context now correlationId change)
      .membershipChange
  | .replaceMembership playerId context now correlationId =>
    c.record observer (.replaceMembership playerId context now correlationId) .membershipChange
  | .removeMembership playerId now correlationId =>
    c.record observer (.removeMembership playerId now correlationId) .membershipChange

/-- The commands and operations one after the other, from an empty store. -/
def run (w : ω) (ops : List AuditedOp) : AuditedStore ω :=
  ops.foldl (fun c op => c.step observer ids maximumDuration op) ⟨{}, w, [], 0⟩

end AuditedStore

end VoxTree

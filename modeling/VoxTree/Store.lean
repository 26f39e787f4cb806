import VoxTree.Domain

/-!
# The in-memory control-plane store

`InMemoryControlPlaneStore` without persistent repositories. `std::map` is `Std.ExtTreeMap`, which
keeps its entries in key order. An operation whose source notifies after releasing the mutex is
its locked section; the section returns what is still to be notified.
-/

namespace VoxTree

/-- `system_clock::time_point`, in nanoseconds since the epoch. -/
abbrev TimePoint := Int

/-- `std::chrono::milliseconds`. -/
abbrev Milliseconds := Int

def Milliseconds.toNanoseconds (d : Milliseconds) : Int := d * 1000000

structure AuthenticatedSession where
  sessionId : SessionId
  playerId : PlayerId
  deviceId : DeviceId
  expiresAt : TimePoint
  deriving DecidableEq

def AuthenticatedSession.activeAt (s : AuthenticatedSession) (now : TimePoint) : Bool :=
  now < s.expiresAt

inductive TransmissionStopReason
  | none | pushToTalkReleased | rejected | connectionLost | membershipChanged | permissionRevoked
  | timedOut | moderationInterrupted | transportError | disconnected
  deriving DecidableEq

structure AuthorizedTransmission where
  transmissionId : TransmissionId
  clientTransmissionId : ClientTransmissionId
  senderPlayerId : PlayerId
  scope : VoiceScope
  membershipVersion : Nat
  recipients : List PlayerId
  correlationId : CorrelationId
  deriving DecidableEq

structure ActiveTransmission where
  authorization : AuthorizedTransmission
  sessionId : SessionId
  deviceId : DeviceId
  startedAt : TimePoint
  scopeNodeId : Bytes
  scopeCanSubscribe : Bool
  deriving DecidableEq

structure EndedTransmission where
  transmission : ActiveTransmission
  stopReason : TransmissionStopReason
  endedAt : TimePoint
  correlationId : CorrelationId
  deriving DecidableEq

inductive TransmissionActivationError
  | sessionChanged | membershipChanged | senderAlreadyTransmitting | speakerLimitReached
  | voiceControlFailed | transmissionIdConflict
  deriving DecidableEq

/-- `AuthoritativeMembershipWriteError`, also named `MembershipUpdateError`. -/
inductive MembershipUpdateError
  | playerNotInSnapshot | versionNotNewer
  deriving DecidableEq

inductive TransmissionEndRepositoryError
  | transmissionNotFound | transmissionNotOwned
  deriving DecidableEq

inductive AuthoritativeContextChange
  | membershipChanged | permissionsChanged
  deriving DecidableEq

/-- `ITransmissionLifecycleObserver`, acting on a state of its own. -/
structure LifecycleObserver (ω : Type*) where
  onStarted : ActiveTransmission → ω → Bool × ω
  onEnded : EndedTransmission → ω → ω

def sameScopeNode (left right : VoiceMembership) : VoiceScope → Bool
  | .team => left.teamId = right.teamId
  | .specialization => left.specializationId = right.specializationId
  | .group => left.groupId = right.groupId

def scopeNodeId (membership : VoiceMembership) : VoiceScope → Bytes
  | .team => membership.teamId.value
  | .specialization => membership.specializationId.value
  | .group => membership.groupId.value

/-- The receive right `activate` records with an entry. -/
def receiveRight (context : AuthoritativeMembershipContext) (membership : VoiceMembership)
    (scope : VoiceScope) : Bool :=
  membership.canReceiveVoice && context.rolePolicy.canReceive membership.roleIds scope

structure Store where
  sessions : Std.ExtTreeMap SessionId AuthenticatedSession := ∅
  memberships : Std.ExtTreeMap PlayerId AuthoritativeMembershipContext := ∅
  activeTransmissions : Std.ExtTreeMap TransmissionId ActiveTransmission := ∅

namespace Store

variable (s : Store)

def upsertSession (session : AuthenticatedSession) : Store :=
  { s with sessions := s.sessions.insert session.sessionId session }

/-- The loop shared by `interruptForPlayerLocked`, `interruptForSessionLocked` and
`expireTimedOut`: erase the matching entries in key order and collect them as ended. -/
def interruptWhere (stops : ActiveTransmission → Bool) (reason : TransmissionStopReason)
    (endedAt : TimePoint) (correlationId : CorrelationId) : List EndedTransmission × Store :=
  ((s.activeTransmissions.toList.filter fun entry => stops entry.2).map fun entry =>
      ⟨entry.2, reason, endedAt, correlationId⟩,
    { s with activeTransmissions := s.activeTransmissions.filter fun _ t => !stops t })

def interruptForPlayerLocked (playerId : PlayerId) (reason : TransmissionStopReason)
    (endedAt : TimePoint) (correlationId : CorrelationId) : List EndedTransmission × Store :=
  s.interruptWhere (fun t => t.authorization.senderPlayerId = playerId) reason endedAt correlationId

def interruptForSessionLocked (sessionId : SessionId) (reason : TransmissionStopReason)
    (endedAt : TimePoint) (correlationId : CorrelationId) : List EndedTransmission × Store :=
  s.interruptWhere (fun t => t.sessionId = sessionId) reason endedAt correlationId

def removeSessionLocked (sessionId : SessionId) (now : TimePoint) (correlationId : CorrelationId) :
    List EndedTransmission × Store :=
  match s.sessions[sessionId]? with
  | none => ([], s)
  | some _ =>
    { s with sessions := s.sessions.erase sessionId }.interruptForSessionLocked sessionId
      .disconnected now correlationId

def updateMembershipLocked (playerId : PlayerId) (context : AuthoritativeMembershipContext)
    (now : TimePoint) (correlationId : CorrelationId) (change : AuthoritativeContextChange) :
    Except MembershipUpdateError (List EndedTransmission) × Store :=
  match context.snapshot.find playerId with
  | none => (.error .playerNotInSnapshot, s)
  | some _ =>
    if s.memberships[playerId]?.any fun existing =>
        context.snapshot.version ≤ existing.snapshot.version then
      (.error .versionNotNewer, s)
    else
      let reason := match change with
        | .permissionsChanged => TransmissionStopReason.permissionRevoked
        | .membershipChanged => .membershipChanged
      let r := { s with memberships := s.memberships.insert playerId context
          }.interruptForPlayerLocked playerId reason now correlationId
      (.ok r.1, r.2)

def replaceMembershipLocked (playerId : PlayerId) (context : AuthoritativeMembershipContext)
    (now : TimePoint) (correlationId : CorrelationId) :
    Except MembershipUpdateError (List EndedTransmission) × Store :=
  s.updateMembershipLocked playerId context now correlationId .membershipChanged

def removeMembershipLocked (playerId : PlayerId) (now : TimePoint)
    (correlationId : CorrelationId) : List EndedTransmission × Store :=
  { s with memberships := s.memberships.erase playerId }.interruptForPlayerLocked playerId
    .membershipChanged now correlationId

def expireTimedOutLocked (maximumDuration : Milliseconds) (now : TimePoint)
    (correlationId : CorrelationId) : List EndedTransmission × Store :=
  s.interruptWhere (fun t => !(now - t.startedAt < maximumDuration.toNanoseconds)) .timedOut now
    correlationId

/-- The active transmissions `activate` counts against the speaker limit of the sender's node. -/
def matchingSpeakers (senderMembership : VoiceMembership) (scope : VoiceScope) : Nat :=
  s.activeTransmissions.toList.countP fun entry =>
    entry.2.authorization.scope = scope &&
      match s.memberships[entry.2.authorization.senderPlayerId]? with
      | none => false
      | some activeContext =>
        match activeContext.snapshot.find entry.2.authorization.senderPlayerId with
        | none => false
        | some activeMembership => sameScopeNode senderMembership activeMembership scope

/-- What `activate` checks under the mutex, up to the entry it then emplaces. -/
def checkActivation (transmission : AuthorizedTransmission) (sessionId : SessionId)
    (deviceId : DeviceId) (startedAt : TimePoint) :
    Except TransmissionActivationError ActiveTransmission :=
  match s.sessions[sessionId]? with
  | none => .error .sessionChanged
  | some session =>
    if session.playerId ≠ transmission.senderPlayerId ∨ session.deviceId ≠ deviceId
        ∨ session.activeAt startedAt = false then .error .sessionChanged
    else
      match s.memberships[transmission.senderPlayerId]? with
      | none => .error .membershipChanged
      | some membership =>
        if membership.snapshot.version ≠ transmission.membershipVersion then
          .error .membershipChanged
        else
          match membership.snapshot.find transmission.senderPlayerId,
            membership.snapshot.hierarchy.findScope transmission.scope with
          | some senderMembership, some scopeDefinition =>
            if scopeDefinition.maxConcurrentSpeakers.any fun limit =>
                limit ≤ s.matchingSpeakers senderMembership transmission.scope then
              .error .speakerLimitReached
            else if s.activeTransmissions.toList.any fun entry =>
                entry.2.authorization.senderPlayerId = transmission.senderPlayerId then
              .error .senderAlreadyTransmitting
            else if s.activeTransmissions.contains transmission.transmissionId then
              .error .transmissionIdConflict
            else
              .ok
                { authorization := transmission
                  sessionId, deviceId, startedAt
                  scopeNodeId := VoxTree.scopeNodeId senderMembership transmission.scope
                  scopeCanSubscribe := receiveRight membership senderMembership transmission.scope }
          | _, _ => .error .membershipChanged

/-- `active_transmissions_.emplace` with the entry's own identifier. -/
def emplace (entry : ActiveTransmission) : Store :=
  { s with
    activeTransmissions := s.activeTransmissions.insert entry.authorization.transmissionId entry }

/-- `active_transmissions_.erase`. -/
def eraseTransmission (id : TransmissionId) : Store :=
  { s with activeTransmissions := s.activeTransmissions.erase id }

variable {ω : Type*} (observer : LifecycleObserver ω)

/-- `activate`; the observer hears of the emplaced entry under the mutex and may refuse it. -/
def activate (transmission : AuthorizedTransmission) (sessionId : SessionId)
    (deviceId : DeviceId) (startedAt : TimePoint) (w : ω) :
    Except TransmissionActivationError ActiveTransmission × Store × ω :=
  match s.checkActivation transmission sessionId deviceId startedAt with
  | .error e => (.error e, s, w)
  | .ok entry =>
    match observer.onStarted entry w with
    | (true, w') => (.ok entry, s.emplace entry, w')
    | (false, w') =>
      (.error .voiceControlFailed,
        (s.emplace entry).eraseTransmission entry.authorization.transmissionId, w')

/-- The end of `end` and `interrupt`: erase the entry and notify under the mutex. -/
def endEntry (transmissionId : TransmissionId) (entry : ActiveTransmission)
    (stopReason : TransmissionStopReason) (endedAt : TimePoint) (correlationId : CorrelationId)
    (w : ω) : Except TransmissionEndRepositoryError EndedTransmission × Store × ω :=
  let ended : EndedTransmission := ⟨entry, stopReason, endedAt, correlationId⟩
  (.ok ended, s.eraseTransmission transmissionId, observer.onEnded ended w)

def «end» (transmissionId : TransmissionId) (sessionId : SessionId) (deviceId : DeviceId)
    (stopReason : TransmissionStopReason) (endedAt : TimePoint) (correlationId : CorrelationId)
    (w : ω) : Except TransmissionEndRepositoryError EndedTransmission × Store × ω :=
  match s.activeTransmissions[transmissionId]? with
  | none => (.error .transmissionNotFound, s, w)
  | some entry =>
    if entry.sessionId ≠ sessionId ∨ entry.deviceId ≠ deviceId then
      (.error .transmissionNotOwned, s, w)
    else s.endEntry observer transmissionId entry stopReason endedAt correlationId w

def interrupt (transmissionId : TransmissionId) (stopReason : TransmissionStopReason)
    (endedAt : TimePoint) (correlationId : CorrelationId) (w : ω) :
    Except TransmissionEndRepositoryError EndedTransmission × Store × ω :=
  match s.activeTransmissions[transmissionId]? with
  | none => (.error .transmissionNotFound, s, w)
  | some entry => s.endEntry observer transmissionId entry stopReason endedAt correlationId w

/-- `notifyEnded` for a list. -/
def notifyEnded (transmissions : List EndedTransmission) (w : ω) : ω :=
  transmissions.foldl (fun w ended => observer.onEnded ended w) w

end Store

/-! ## Operations as data -/

/-- A call of one of the store's nine mutating operations. -/
inductive StoreOp
  | upsertSession (session : AuthenticatedSession)
  | removeSession (sessionId : SessionId) (now : TimePoint) (correlationId : CorrelationId)
  | updateMembership (playerId : PlayerId) (context : AuthoritativeMembershipContext)
      (now : TimePoint) (correlationId : CorrelationId) (change : AuthoritativeContextChange)
  | replaceMembership (playerId : PlayerId) (context : AuthoritativeMembershipContext)
      (now : TimePoint) (correlationId : CorrelationId)
  | removeMembership (playerId : PlayerId) (now : TimePoint) (correlationId : CorrelationId)
  | activate (transmission : AuthorizedTransmission) (sessionId : SessionId) (deviceId : DeviceId)
      (startedAt : TimePoint)
  | end (transmissionId : TransmissionId) (sessionId : SessionId) (deviceId : DeviceId)
      (stopReason : TransmissionStopReason) (endedAt : TimePoint) (correlationId : CorrelationId)
  | interrupt (transmissionId : TransmissionId) (stopReason : TransmissionStopReason)
      (endedAt : TimePoint) (correlationId : CorrelationId)
  | expireTimedOut (maximumDuration : Milliseconds) (now : TimePoint)
      (correlationId : CorrelationId)

namespace StoreOp

/-- The entry the call emplaces before it asks the observer, if it is an `activate` that gets so
far. -/
def activation (s : Store) : StoreOp → Option ActiveTransmission
  | .activate transmission sessionId deviceId startedAt =>
    (s.checkActivation transmission sessionId deviceId startedAt).toOption
  | _ => none

variable {ω : Type*} (observer : LifecycleObserver ω)

/-- The locked section of a call: the store and the observer after it, and the ended transmissions
whose notification is left for after the mutex is released. -/
def locked : StoreOp → Store → ω → List EndedTransmission × Store × ω
  | .upsertSession session, s, w => ([], s.upsertSession session, w)
  | .removeSession sessionId now correlationId, s, w =>
    let r := s.removeSessionLocked sessionId now correlationId
    (r.1, r.2, w)
  | .updateMembership playerId context now correlationId change, s, w =>
    let r := s.updateMembershipLocked playerId context now correlationId change
    (r.1.toOption.getD [], r.2, w)
  | .replaceMembership playerId context now correlationId, s, w =>
    let r := s.replaceMembershipLocked playerId context now correlationId
    (r.1.toOption.getD [], r.2, w)
  | .removeMembership playerId now correlationId, s, w =>
    let r := s.removeMembershipLocked playerId now correlationId
    (r.1, r.2, w)
  | .activate transmission sessionId deviceId startedAt, s, w =>
    ([], (s.activate observer transmission sessionId deviceId startedAt w).2)
  | .end transmissionId sessionId deviceId stopReason endedAt correlationId, s, w =>
    ([], (s.end observer transmissionId sessionId deviceId stopReason endedAt correlationId w).2)
  | .interrupt transmissionId stopReason endedAt correlationId, s, w =>
    ([], (s.interrupt observer transmissionId stopReason endedAt correlationId w).2)
  | .expireTimedOut maximumDuration now correlationId, s, w =>
    let r := s.expireTimedOutLocked maximumDuration now correlationId
    (r.1, r.2, w)

/-- A whole call when no other thread is at work: the locked section, then its notifications. -/
def call (op : StoreOp) (c : Store × ω) : Store × ω :=
  let r := op.locked observer c.1 c.2
  (r.2.1, Store.notifyEnded observer r.1 r.2.2)

def calls (ops : List StoreOp) (c : Store × ω) : Store × ω :=
  ops.foldl (fun c op => op.call observer c) c

end StoreOp

end VoxTree

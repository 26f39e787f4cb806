import VoxTree.DesktopModel
import VoxTree.Directory
import VoxTree.Lib.Machine
import VoxTree.Store

/-!
# The client keeps up with the directory

`ClientSession` with its refresh loop between a control plane and a `DesktopModel`. A step is one
request, with what the client does until the next one, or a change on the server. A request that
is answered is delivered intact: the client has the answer as a view of what the service answered.
-/

namespace VoxTree

open Client Presentation

/-! ## Views -/

def DirectoryNodeType.kind : DirectoryNodeType → DirectoryNodeKind
  | .group => .group
  | .specialization => .specialization
  | .team => .team

def DirectoryNode.view (node : DirectoryNode) : DirectoryNodeView :=
  ⟨node.nodeId, node.nodeType.kind, node.parentNodeId, node.displayName, node.sortIndex⟩

def PublicDirectoryRole.view (role : PublicDirectoryRole) : PublicRoleView :=
  ⟨role.roleId.value, role.displayName⟩

def DirectoryParticipant.view (participant : DirectoryParticipant) : DirectoryParticipantView :=
  ⟨participant.playerId.value, participant.displayName, participant.primaryTeamId.value,
    participant.publicRoleIds.map StrongId.value⟩

def DirectorySnapshot.view (snapshot : DirectorySnapshot) : DirectoryView where
  version := snapshot.version
  groupId := snapshot.groupId.value
  nodes := snapshot.nodes.map DirectoryNode.view
  publicRoles := snapshot.publicRoles.map PublicDirectoryRole.view
  participants := snapshot.participants.map DirectoryParticipant.view

def DirectoryPresenceEntry.view (entry : DirectoryPresenceEntry) : Client.DirectoryPresenceEntry :=
  ⟨entry.playerId.value, entry.state = .online⟩

/-- Times are sent in milliseconds, and the next read is asked for after a second. -/
def DirectoryPresenceSnapshot.view (snapshot : DirectoryPresenceSnapshot) :
    DirectoryPresenceView where
  version := snapshot.version
  mode := snapshot.mode
  observedAt := snapshot.observedAt.tdiv 1000000 * 1000000
  entries := snapshot.entries.map DirectoryPresenceEntry.view
  retryAfter := 1

/-! ## The server -/

/-- What membership, directory and presence are answered from. -/
structure DirectoryServer where
  store : Store := {}
  connectedScopeCount : PlayerId → ℕ := fun _ => 0
  directory : DirectoryApplicationService := {}

inductive ServerChange
  | updateMembership (playerId : PlayerId) (context : AuthoritativeMembershipContext)
      (now : TimePoint) (correlationId : CorrelationId) (change : AuthoritativeContextChange)
  | removeMembership (playerId : PlayerId) (now : TimePoint) (correlationId : CorrelationId)
  | connections (connectedScopeCount : PlayerId → ℕ)
  | upsertProfile (profile : DirectoryProfile)
  | replacePublicRoles (catalogVersion : ℕ) (roles : List PublicDirectoryRole)
  | readDirectory (reader : PlayerId)
  | readPresence (reader : PlayerId) (afterVersion : Option ℕ) (observedAt : TimePoint)
  | restart

def ServerChange.isRestart : ServerChange → Bool
  | .restart => true
  | _ => false

namespace DirectoryServer

variable (s : DirectoryServer)

def memberships : Memberships := fun playerId => s.store.memberships[playerId]?

/-- A call of the directory service. -/
def call (op : DirectoryOp) : DirectoryServer := { s with directory := op.call s.directory }

/-- Memberships outlive the process, the directory service does not. -/
def apply : ServerChange → DirectoryServer
  | .updateMembership playerId context now correlationId change =>
    { s with store :=
        (s.store.updateMembershipLocked playerId context now correlationId change).2 }
  | .removeMembership playerId now correlationId =>
    { s with store := (s.store.removeMembershipLocked playerId now correlationId).2 }
  | .connections connectedScopeCount => { s with connectedScopeCount }
  | .upsertProfile profile => s.call (.upsertProfile profile)
  | .replacePublicRoles catalogVersion roles => s.call (.replacePublicRoles catalogVersion roles)
  | .readDirectory reader => s.call (.directoryFor s.memberships reader)
  | .readPresence reader afterVersion observedAt =>
    s.call (.presenceFor s.memberships s.connectedScopeCount reader afterVersion observedAt)
  | .restart =>
    { s with store := { s.store with activeTransmissions := ∅ }, directory := {} }

variable (actor : PlayerId)

/-- The group the service reads the directory and the presence of. -/
def groupOf : Option GroupId :=
  (DirectoryApplicationService.currentContextFor s.memberships actor).map fun current =>
    current.2.groupId

/-- The directory that is served to the actor. -/
def served : Option DirectorySnapshot :=
  match (s.directory.directoryFor s.memberships actor).1 with
  | .ok (.ok snapshot) => some snapshot
  | _ => none

def serverError (statusCode : Int) (code message : String) : ControlPlaneError :=
  ⟨.server, statusCode, bytes code, bytes message⟩

def internalError : ControlPlaneError :=
  serverError 500 "internal_error" "The request could not be completed."

def directoryUnavailable : ControlPlaneError :=
  serverError 404 "directory_unavailable" "No active directory is available."

def membership : ControlPlaneResult MembershipView :=
  match s.memberships actor with
  | none =>
    .error (serverError 404 "membership_unavailable" "No authoritative membership is available.")
  | some context =>
    match context.snapshot.find actor with
    | none =>
      .error (serverError 409 "membership_inconsistent"
        "The authoritative membership does not contain the session player.")
    | some membership =>
      .ok
        { version := context.snapshot.version
          hierarchyId := context.snapshot.hierarchy.id
          playerId := membership.playerId
          groupId := membership.groupId
          specializationId := membership.specializationId
          teamId := membership.teamId
          roleIds := membership.roleIds
          connected := membership.connected
          canReceiveVoice := membership.canReceiveVoice
          transmitMuted := membership.transmitMuted }

/-- A read whose entity tag is the known one has no body. -/
def directoryAnswer (knownVersion : Option ℕ) :
    Except ServiceException (Except DirectoryReadError DirectorySnapshot) →
      ControlPlaneResult DirectoryFetch
  | .error _ => .error internalError
  | .ok (.error .directoryUnavailable) => .error directoryUnavailable
  | .ok (.error .directoryLimitExceeded) =>
    .error (serverError 413 "directory_limit_exceeded"
      "The visible directory exceeds the participant limit.")
  | .ok (.ok snapshot) =>
    if knownVersion.map Network.entityTag = some (Network.entityTag snapshot.version) then .ok none
    else .ok (some snapshot.view)

def presenceAnswer :
    Except ServiceException (Except DirectoryPresenceReadError DirectoryPresenceSnapshot) →
      ControlPlaneResult DirectoryPresenceView
  | .error _ => .error internalError
  | .ok (.error .directoryUnavailable) => .error directoryUnavailable
  | .ok (.error .snapshotRequired) =>
    .error (serverError 409 "presence_snapshot_required"
      "A complete presence snapshot is required.")
  | .ok (.ok snapshot) => .ok snapshot.view

/-- `directory` of the client; a request may be lost with an error. -/
def fetchDirectory (knownVersion : Option ℕ) :
    Option ControlPlaneError → ControlPlaneResult DirectoryFetch × DirectoryServer
  | some lost => (.error lost, s)
  | none =>
    let r := s.directory.directoryFor s.memberships actor
    (directoryAnswer knownVersion r.1, { s with directory := r.2 })

/-- `directoryPresence` of the client. -/
def fetchPresence (afterVersion : Option ℕ) (observedAt : TimePoint) :
    Option ControlPlaneError → ControlPlaneResult DirectoryPresenceView × DirectoryServer
  | some lost => (.error lost, s)
  | none =>
    let r := s.directory.presenceFor s.memberships s.connectedScopeCount actor afterVersion
      observedAt
    (presenceAnswer r.1, { s with directory := r.2 })

end DirectoryServer

namespace DirectorySync

/-! ## The session -/

/-- How a call of the voice session goes: it gets as far as its answers from the server let it, or
it fails before or, without a connection afterwards, behind them. -/
inductive Authorization
  | answered
  | failed (error : VoiceSessionError)
  | disconnected (error : VoiceSessionError)

def controlPlaneError (error : ControlPlaneError) : VoiceSessionError :=
  ⟨.controlPlane, error.code, error.message, error.statusCode⟩

/-- `refreshAuthorization`, with the membership the client has afterwards. -/
def refreshAuthorization (answer : ControlPlaneResult MembershipView)
    (membership : Option MembershipView) (authorization : Authorization) :
    Except VoiceSessionError Unit × Option MembershipView :=
  match membership with
  | none =>
    (.error ⟨.clientState, bytes "not_connected",
      bytes "membership refresh requires a connected voice session", 0⟩, none)
  | some known =>
    match authorization, answer with
    | .failed error, _ => (.error error, some known)
    | .disconnected error, _ => (.error error, none)
    | .answered, .error error => (.error (controlPlaneError error), some known)
    | .answered, .ok current =>
      if current.version = known.version then (.ok (), some known)
      else if current.version < known.version then
        (.error ⟨.controlPlane, bytes "voice_membership_stale",
          bytes "the server returned an obsolete membership version", 0⟩, some known)
      else (.ok (), some current)

def voiceSessionMessage (error : VoiceSessionError) : Bytes :=
  if error.message ≠ [] then error.message else error.code

/-- The variables of the refresh loop. -/
structure RefreshLoop where
  knownVersion : ℕ := 0
  knownDirectoryVersion : ℕ := 0
  knownPresenceVersion : ℕ := 0
  knownGroupId : Bytes := []
  nextPresencePoll : TimePoint := 0

/-- Where the session is: at the requests of `connect`, or at those of a round of the loop. -/
inductive Pc
  | offline
  | connectDirectory (membership : MembershipView)
  | connectPresence (membership : MembershipView) (directory : DirectoryView)
  | sleeping
  | directory
  | presence
  | presenceSnapshot
  deriving DecidableEq

/-- `cutOff` records, and nothing depends on it, whether the server was restarted or an answer about
another group than the loop's was used since the model has its directory. -/
structure State where
  server : DirectoryServer := {}
  membership : Option MembershipView := none
  pc : Pc := .offline
  loop : RefreshLoop := {}
  model : DesktopModel := {}
  cutOff : Bool := false

inductive Action
  | server (change : ServerChange)
  | connect (authorization : Authorization)
  | refresh (authorization : Authorization)
  | directory (lost : Option ControlPlaneError) (clock : TimePoint)
  | presence (lost : Option ControlPlaneError) (observedAt asked answered : TimePoint)
  | disconnect

/-- A version that is known, if it is not zero. -/
def known (version : ℕ) : Option ℕ := if version = 0 then none else some version

def seconds (n : ℕ) : TimePoint := n * 1000000000

namespace State

variable (s : State)

def change (change : ServerChange) : State :=
  { s with
    server := s.server.apply change
    cutOff := s.cutOff || change.isRestart }

/-- An event, which the model is given at once. -/
def report (event : SessionEvent) : State :=
  { s with model := s.model.handleSessionEvent event }

variable (actor : PlayerId)

/-- Whether presence is answered for another group than the given one. -/
def foreign (groupId : Bytes) : Bool :=
  (s.server.groupOf actor).all fun current => current.value ≠ groupId

/-! ## Connecting -/

def connectionFailed (errorCode diagnostic : Bytes) : State :=
  { s with
    membership := none
    pc := .offline
    model := s.model.connectionFailed errorCode diagnostic }

def connect (authorization : Authorization) : State :=
  let begun := s.model.beginConnect
  if !begun.1.ok then s
  else
    let s := { s with model := begun.2 }
    match authorization, s.server.membership actor with
    | .failed error, _ | .disconnected error, _ =>
      s.connectionFailed (bytes "connection_failed") (voiceSessionMessage error)
    | .answered, .error error =>
      s.connectionFailed (bytes "connection_failed") (voiceSessionMessage (controlPlaneError error))
    | .answered, .ok membership =>
      { s with membership := some membership, pc := .connectDirectory membership }

def connectDirectory (membership : MembershipView) (lost : Option ControlPlaneError) : State :=
  let r := s.server.fetchDirectory actor none lost
  let s := { s with server := r.2 }
  match r.1 with
  | .error error => s.connectionFailed (bytes "connection_failed") error.message
  | .ok none =>
    s.connectionFailed (bytes "connection_failed")
      (bytes "The server returned no initial directory snapshot.")
  | .ok (some directory) =>
    { s with pc := .connectPresence membership directory, cutOff := false }

/-- The results of `connect` are given to the model, and the loop starts with their versions. -/
def connected (membership : MembershipView) (directory : DirectoryView)
    (presence : DirectoryPresenceView) (answered : TimePoint) : State :=
  let succeeded := s.model.connectionSucceeded membership
  if !succeeded.1.ok then
    s.connectionFailed (errorCodeName succeeded.1.error)
      (bytes "the initial membership is invalid for presentation")
  else
    let directoryApplied := succeeded.2.applyDirectory directory
    let presenceApplied := directoryApplied.2.applyPresence presence
    if !directoryApplied.1.ok ∨ !presenceApplied.1.ok then
      let failed := if !directoryApplied.1.ok then directoryApplied.1 else presenceApplied.1
      s.connectionFailed (errorCodeName failed.error) failed.field
    else
      { s with
        pc := .sleeping
        loop :=
          { knownVersion := s.membership.elim 0 MembershipView.version
            knownDirectoryVersion := directory.version
            knownPresenceVersion := presence.version
            knownGroupId := directory.groupId
            nextPresencePoll := answered + seconds presence.retryAfter }
        model := presenceApplied.2
        cutOff := s.cutOff || s.foreign actor directory.groupId }

def connectPresence (membership : MembershipView) (directory : DirectoryView)
    (lost : Option ControlPlaneError) (observedAt answered : TimePoint) : State :=
  let r := s.server.fetchPresence actor none observedAt lost
  let s := { s with server := r.2 }
  match r.1 with
  | .error error => s.connectionFailed (bytes "connection_failed") error.message
  | .ok presence => s.connected actor membership directory presence answered

/-! ## A round of the loop -/

/-- A membership with a higher version is noted and reported; that of another group resets the
versions. -/
def noteMembership : State :=
  match s.membership with
  | none => s
  | some current =>
    if s.loop.knownVersion < current.version then
      let loop := { s.loop with knownVersion := current.version }
      let noted :=
        if current.groupId.value ≠ s.loop.knownGroupId then
          { s with
            loop :=
              { loop with
                knownGroupId := current.groupId.value
                knownDirectoryVersion := 0
                knownPresenceVersion := 0 }
            cutOff := false }
        else { s with loop }
      noted.report (.membershipUpdated current)
    else s

def refresh (authorization : Authorization) : State :=
  let r := refreshAuthorization (s.server.membership actor) s.membership authorization
  let s := { s with membership := r.2 }
  match r.1 with
  | .error error => s.report (.error error.code (voiceSessionMessage error))
  | .ok _ => { s with pc := .directory }.noteMembership

/-- A directory snapshot was received. -/
def directoryReceived (directory : DirectoryView) (clock : TimePoint) : State :=
  { s with
    loop :=
      { s.loop with
        knownDirectoryVersion := directory.version
        knownPresenceVersion := 0
        nextPresencePoll := clock }
    cutOff := !(s.model.applyDirectory directory).1.ok
      && (s.cutOff || directory.groupId ≠ s.loop.knownGroupId)
    }.report (.directoryUpdated directory)

def refreshDirectory (lost : Option ControlPlaneError) (clock : TimePoint) : State :=
  let r := s.server.fetchDirectory actor (known s.loop.knownDirectoryVersion) lost
  let s := { s with server := r.2, pc := .presence }
  match r.1 with
  | .error error => s.report (.error error.code error.message)
  | .ok none => s
  | .ok (some directory) => s.directoryReceived directory clock

def presenceFailed (error : ControlPlaneError) (answered : TimePoint) : State :=
  { s with
    pc := .sleeping
    loop := { s.loop with nextPresencePoll := answered + seconds 1 } }.report
    (.error error.code error.message)

def presenceReceived (presence : DirectoryPresenceView) (answered : TimePoint) : State :=
  { s with
    pc := .sleeping
    loop :=
      { s.loop with
        knownPresenceVersion := presence.version
        nextPresencePoll := answered + seconds presence.retryAfter }
    cutOff := s.cutOff || s.foreign actor s.loop.knownGroupId }.report (.presenceUpdated presence)

/-- Presence is only asked for when it is due. -/
def refreshPresence (lost : Option ControlPlaneError) (observedAt asked answered : TimePoint) :
    State :=
  if asked < s.loop.nextPresencePoll then { s with pc := .sleeping }
  else
    let r := s.server.fetchPresence actor (known s.loop.knownPresenceVersion) observedAt lost
    let s := { s with server := r.2 }
    match r.1 with
    | .error error =>
      if error.code = bytes "presence_snapshot_required" then
        { s with pc := .presenceSnapshot, loop := { s.loop with knownPresenceVersion := 0 } }
      else s.presenceFailed error answered
    | .ok presence => s.presenceReceived actor presence answered

/-- The second presence request of a round. -/
def refreshPresenceSnapshot (lost : Option ControlPlaneError) (observedAt answered : TimePoint) :
    State :=
  let r := s.server.fetchPresence actor none observedAt lost
  let s := { s with server := r.2 }
  match r.1 with
  | .error error => s.presenceFailed error answered
  | .ok presence => s.presenceReceived actor presence answered

/-- `disconnectAsync`. -/
def disconnect : State :=
  let begun := s.model.beginDisconnect
  if !begun.1.ok then s
  else { s with membership := none, pc := .offline, model := begun.2.disconnected }

end State

/-! ## Steps -/

variable (actor : PlayerId)

def step (s : State) : Action → Option State
  | .server change => some (s.change change)
  | .connect authorization =>
    match s.pc with
    | .offline => some (s.connect actor authorization)
    | _ => none
  | .refresh authorization =>
    match s.pc with
    | .sleeping => some (s.refresh actor authorization)
    | _ => none
  | .directory lost clock =>
    match s.pc with
    | .connectDirectory membership => some (s.connectDirectory actor membership lost)
    | .directory => some (s.refreshDirectory actor lost clock)
    | _ => none
  | .presence lost observedAt asked answered =>
    match s.pc with
    | .connectPresence membership directory =>
      some (s.connectPresence actor membership directory lost observedAt answered)
    | .presence => some (s.refreshPresence actor lost observedAt asked answered)
    | .presenceSnapshot => some (s.refreshPresenceSnapshot actor lost observedAt answered)
    | _ => none
  | .disconnect =>
    match s.pc with
    | .offline | .connectDirectory _ | .connectPresence .. => none
    | _ => some s.disconnect

/-! ## What is asked of a round -/

/-- The step is a request of the loop, and it succeeds; a refused delta may be the first of two
presence requests. -/
def succeeds (s : State) : Action → Bool
  | .refresh authorization =>
    (refreshAuthorization (s.server.membership actor) s.membership authorization).1.toOption.isSome
  | .directory lost _ =>
    (s.server.fetchDirectory actor (known s.loop.knownDirectoryVersion) lost).1.toOption.isSome
  | .presence lost observedAt asked _ =>
    match s.pc with
    | .presence =>
      s.loop.nextPresencePoll ≤ asked
        && match (s.server.fetchPresence actor (known s.loop.knownPresenceVersion) observedAt
            lost).1 with
          | .ok _ => true
          | .error error => error.code = bytes "presence_snapshot_required"
    | _ => (s.server.fetchPresence actor none observedAt lost).1.toOption.isSome
  | _ => false

/-- The step is a request that succeeds, or the server does not change. -/
def Undisturbed (s : State) (a : Action) : Prop :=
  succeeds actor s a = true ∨ ∃ change, a = .server change ∧ s.server.apply change = s.server

/-- The model has the server's state for everybody who is listed. -/
def ShowsPresence (s : State) (snapshot : DirectorySnapshot) : Prop :=
  ∀ participant ∈ snapshot.participants,
    s.model.serverPresence[participant.playerId.value]?
      = some (s.server.connectedScopeCount participant.playerId ≠ 0 : Bool)

instance (s : State) (snapshot : DirectorySnapshot) : Decidable (ShowsPresence s snapshot) :=
  inferInstanceAs (Decidable (∀ participant ∈ snapshot.participants, _))

/-- The model has the directory that is served, with the presence of the server. -/
def Synced (s : State) : Prop :=
  ∃ snapshot, s.server.served actor = some snapshot ∧ s.model.directory = some snapshot.view
    ∧ ShowsPresence s snapshot

/-! ## When the two keep together -/

def nodeFields (node : DirectoryNodeView) : List Bytes :=
  [node.nodeId,
    match node.kind with
      | .group => bytes "group"
      | .specialization => bytes "specialization"
      | .team => bytes "team",
    node.parentNodeId.getD [], node.displayName, decimal node.sortIndex]

/-- What the fingerprint of a directory is made of. -/
def fields (directory : DirectoryView) : List Bytes :=
  directory.nodes.flatMap nodeFields
    ++ directory.publicRoles.flatMap (fun role => [role.roleId, role.displayName])
    ++ directory.participants.flatMap fun participant =>
      participant.playerId :: participant.displayName :: participant.primaryTeamId
        :: participant.publicRoleIds

/-- How many nodes and roles there are, and how many roles each participant has. -/
def division (directory : DirectoryView) : ℕ × ℕ × List ℕ :=
  (directory.nodes.length, directory.publicRoles.length,
    directory.participants.map fun participant => participant.publicRoleIds.length)

/-- The base of the presence request that is next. -/
def presenceBase (s : State) : Option ℕ :=
  match s.pc with
  | .presence => known s.loop.knownPresenceVersion
  | _ => none

/-- Whether a step keeps the session together with the server. A membership that is answered under
the version the client has is of the client's group. A directory of the loop's group that is
answered when the client was cut off is the one the model has, or is newer than it and than what
the loop knows, and presence is then a newer snapshot or not needed. Otherwise a directory does not
divide the fields of the model's differently under the same version. -/
def keepsUp (s : State) : Action → Bool
  | .refresh .answered =>
    match s.membership, s.server.membership actor with
    | some known, .ok current => current.version ≠ known.version || current.groupId = known.groupId
    | _, _ => true
  | .directory none _ =>
    match s.pc, s.server.served actor with
    | .directory, some snapshot =>
      snapshot.groupId.value ≠ s.loop.knownGroupId
        || if s.cutOff then
            s.model.directory = some snapshot.view
              || known s.loop.knownDirectoryVersion ≠ some snapshot.version
                && s.model.directory.all fun directory => directory.version < snapshot.version
          else s.model.directory.all fun directory =>
            directory.version ≠ snapshot.version || fields directory ≠ fields snapshot.view
              || division directory = division snapshot.view
    | _, _ => true
  | .presence none observedAt _ _ =>
    match s.server.served actor,
      (s.server.fetchPresence actor (presenceBase s) observedAt none).1 with
    | some snapshot, .ok presence =>
      !s.cutOff || s.model.directory ≠ some snapshot.view || ShowsPresence s snapshot
        || presence.mode = .snapshot
          && s.model.presenceVersion.all fun version => version < presence.version
    | _, _ => true
  | _ => true

end DirectorySync

end VoxTree

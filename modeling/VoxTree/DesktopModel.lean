import VoxTree.ControlPlaneClient
import Mathlib.Data.Rat.Defs

/-!
# The desktop model

`DesktopModel` as far as membership, directory and presence go: connecting, the updates that the
refresh loop reports, and the state a voice event would change, which some of these clear. The
settings are left out.
-/

namespace VoxTree

namespace Presentation

open Client

inductive ConnectionPhase
  | signedOut | connecting | ready | reconnecting | disconnecting
  deriving DecidableEq

inductive PresenceState
  | unknown | offline | online
  deriving DecidableEq

inductive ErrorCode
  | none | invalidState | invalidArgument | notFound | forbidden | staleVersion | operationFailed
  deriving DecidableEq

def errorCodeName : ErrorCode → Bytes
  | .none => bytes "none"
  | .invalidState => bytes "invalid_state"
  | .invalidArgument => bytes "invalid_argument"
  | .notFound => bytes "not_found"
  | .forbidden => bytes "forbidden"
  | .staleVersion => bytes "stale_version"
  | .operationFailed => bytes "operation_failed"

structure ValidationResult where
  error : ErrorCode := .none
  field : Bytes := []
  deriving DecidableEq

namespace ValidationResult

def success : ValidationResult := {}

def failure (error : ErrorCode) (field : String) : ValidationResult := ⟨error, bytes field⟩

/-- `explicit operator bool`. -/
def ok (r : ValidationResult) : Bool := r.error = .none

end ValidationResult

open ValidationResult

structure ChannelSelection where
  scope : VoiceScope
  nodeId : Bytes
  deriving DecidableEq

structure ParticipantState where
  participantId : Bytes := []
  displayName : Bytes := []
  primaryTeamId : Bytes := []
  roleIds : List Bytes := []
  presence : PresenceState := .unknown
  connectedScopes : VoiceScope → Bool := fun _ => false
  audioAvailableScopes : VoiceScope → Bool := fun _ => false
  audioAvailable : Bool := false
  speaking : Bool := false
  speakingScope : Option VoiceScope := none
  volume : ℚ := 1
  muted : Bool := false
  blocked : Bool := false

abbrev Participants := Std.ExtTreeMap Bytes ParticipantState

abbrev ServerPresence := Std.ExtTreeMap Bytes Bool

structure AdministrationState where
  canModerate : Bool := false
  canAdministrate : Bool := false
  deriving DecidableEq

structure DiagnosticsState where
  voiceState : VoiceTransportState := .disconnected
  lastErrorCode : Bytes := []
  lastDiagnostic : Bytes := []
  errorCount : ℕ := 0
  deriving DecidableEq

structure ParticipantVoiceSequences where
  connected : VoiceScope → ℕ := fun _ => 0
  audioAvailable : VoiceScope → ℕ := fun _ => 0
  speaking : VoiceScope → ℕ := fun _ => 0

/-- The model with its `DesktopState`. -/
structure DesktopModel where
  connection : ConnectionPhase := .signedOut
  membership : Option MembershipView := none
  selectedChannel : Option ChannelSelection := none
  directory : Option DirectoryView := none
  presenceVersion : Option ℕ := none
  presenceObservedAt : Option TimePoint := none
  participants : Participants := ∅
  activeTransmissionScope : Option VoiceScope := none
  administration : AdministrationState := {}
  diagnostics : DiagnosticsState := {}
  serverPresence : ServerPresence := ∅
  participantVoiceSequences : Std.ExtTreeMap Bytes ParticipantVoiceSequences := ∅
  voiceGeneration : ℕ := 0
  lastConnectionSequence : ℕ := 0

/-! ## Derived state -/

def scopes : List VoiceScope := [.team, .specialization, .group]

def refreshParticipantDerivedState (serverPresence : ServerPresence)
    (participant : ParticipantState) : ParticipantState :=
  let locallyConnected := scopes.any participant.connectedScopes
  { participant with
    audioAvailable := scopes.any participant.audioAvailableScopes
    presence :=
      match serverPresence[participant.participantId]? with
      | some server => if server || locallyConnected then .online else .offline
      | none => if locallyConnected then .online else .unknown }

/-- The loop over the participants that refreshes each. -/
def refreshParticipants (serverPresence : ServerPresence) (participants : Participants) :
    Participants :=
  participants.map fun _ participant => refreshParticipantDerivedState serverPresence participant

def hasRole (membership : MembershipView) (expectedRole : String) : Bool :=
  membership.roleIds.any fun roleId => Network.asciiLower roleId.value = bytes expectedRole

def administrationFor (membership : MembershipView) : AdministrationState :=
  let administrator := hasRole membership "administrator" || hasRole membership "admin"
  ⟨administrator || hasRole membership "moderator", administrator⟩

namespace DesktopModel

variable (m : DesktopModel)

/-! ## Connecting -/

def isSessionAvailable (phase : ConnectionPhase) : Bool := phase = .ready || phase = .reconnecting

def clearAuthenticatedState : DesktopModel :=
  { m with
    membership := none
    selectedChannel := none
    directory := none
    presenceVersion := none
    presenceObservedAt := none
    participants := ∅
    activeTransmissionScope := none
    administration := {}
    diagnostics := {}
    serverPresence := ∅
    participantVoiceSequences := ∅
    voiceGeneration := 0
    lastConnectionSequence := 0 }

def clearRemoteTransportState : DesktopModel :=
  { m with participants := m.participants.map fun _ participant =>
      refreshParticipantDerivedState m.serverPresence { participant with
        connectedScopes := fun _ => false
        audioAvailableScopes := fun _ => false
        audioAvailable := false
        speaking := false
        speakingScope := none } }

def recordError (errorCode diagnostic : Bytes) : DesktopModel :=
  { m with diagnostics :=
      { m.diagnostics with
        lastErrorCode := errorCode
        lastDiagnostic := diagnostic
        errorCount := m.diagnostics.errorCount + 1 } }

def beginConnect : ValidationResult × DesktopModel :=
  if m.connection = .signedOut then
    let cleared := m.clearAuthenticatedState
    (success, { cleared with
      connection := .connecting
      diagnostics := { cleared.diagnostics with voiceState := .connecting } })
  else (failure .invalidState "connection", m)

def connectionFailed (errorCode diagnostic : Bytes) : DesktopModel :=
  { m.clearAuthenticatedState with connection := .signedOut }.recordError errorCode diagnostic

def beginDisconnect : ValidationResult × DesktopModel :=
  if isSessionAvailable m.connection then
    (success, { m with connection := .disconnecting, activeTransmissionScope := none })
  else (failure .invalidState "connection", m)

def disconnected : DesktopModel :=
  let cleared := m.clearAuthenticatedState
  { cleared with
    connection := .signedOut
    diagnostics := { cleared.diagnostics with voiceState := .disconnected } }

/-! ## Membership -/

/-- What `applyMembership` resets where the group has changed. -/
def clearGroup : DesktopModel :=
  { m with
    directory := none
    presenceVersion := none
    presenceObservedAt := none
    participants := ∅
    serverPresence := ∅
    participantVoiceSequences := ∅ }.clearRemoteTransportState

def applyMembership (membership : MembershipView) : DesktopModel :=
  let groupChanged := m.membership.any fun current =>
    current.groupId.value ≠ membership.groupId.value
  { (if groupChanged then m.clearGroup else m) with
    administration := administrationFor membership
    selectedChannel := some ⟨.team, membership.teamId.value⟩
    membership := some membership }

def connectionSucceeded (membership : MembershipView) : ValidationResult × DesktopModel :=
  if m.connection ≠ .connecting then (failure .invalidState "connection", m)
  else if membership.version = 0 ∨ membership.playerId.value = []
      ∨ membership.groupId.value = [] ∨ membership.specializationId.value = []
      ∨ membership.teamId.value = [] then
    (failure .invalidArgument "membership", m)
  else
    let applied := m.applyMembership membership
    (success, { applied with
      connection := .ready
      diagnostics := { applied.diagnostics with voiceState := .connected } })

def updateMembership (membership : MembershipView) : ValidationResult × DesktopModel :=
  match m.membership with
  | none => (failure .invalidState "membership", m)
  | some current =>
    if membership.version ≤ current.version then (failure .staleVersion "membership.version", m)
    else (success, m.applyMembership membership)

/-! ## Directory -/

/-- The row of a listed participant, with what the model already has of it. -/
def rowFor (source : DirectoryParticipantView) : ParticipantState :=
  refreshParticipantDerivedState m.serverPresence
    { (m.participants[source.playerId]?).getD {} with
      participantId := source.playerId
      displayName := source.displayName
      primaryTeamId := source.primaryTeamId
      roleIds := source.publicRoleIds }

/-- The loop of `applyDirectory` over the listed participants. -/
def rowsFor (listed : List DirectoryParticipantView) : Participants :=
  listed.foldl (fun rows source => rows.insertIfNew source.playerId (m.rowFor source)) ∅

def applyDirectory (directory : DirectoryView) : ValidationResult × DesktopModel :=
  match m.membership with
  | none => (failure .invalidState "directory", m)
  | some membership =>
    if directory.groupId ≠ membership.groupId.value then
      (failure .forbidden "directory.group_id", m)
    else if directory.version = 0 ∨
        m.directory.any fun current => directory.version ≤ current.version then
      (failure .staleVersion "directory.version", m)
    else
      (success, { m with
        participants := refreshParticipants ∅ (m.rowsFor directory.participants)
        directory := some directory
        presenceVersion := none
        presenceObservedAt := none
        serverPresence := ∅ })

/-! ## Presence -/

/-- The loop of `applyPresence` over the entries; only participants are recorded. -/
def recordPresence (serverPresence : ServerPresence)
    (entries : List Client.DirectoryPresenceEntry) : ServerPresence :=
  entries.foldl (fun recorded entry =>
    if m.participants.contains entry.playerId then recorded.insert entry.playerId entry.online
    else recorded) serverPresence

def applyPresence (presence : DirectoryPresenceView) : ValidationResult × DesktopModel :=
  if m.directory.isNone then (failure .invalidState "presence", m)
  else if presence.version = 0 ∨
      m.presenceVersion.any fun current => presence.version ≤ current then
    (failure .staleVersion "presence.version", m)
  else if presence.mode = .delta ∧ m.presenceVersion.isNone then
    (failure .invalidState "presence.mode", m)
  else
    let recorded := m.recordPresence (if presence.mode = .snapshot then ∅ else m.serverPresence)
      presence.entries
    (success, { m with
      serverPresence := recorded
      presenceVersion := some presence.version
      presenceObservedAt := some presence.observedAt
      participants := refreshParticipants recorded m.participants })

end DesktopModel

/-! ## Session events -/

/-- The events that the refresh loop reports. -/
inductive SessionEvent
  | membershipUpdated (membership : MembershipView)
  | directoryUpdated (directory : DirectoryView)
  | presenceUpdated (presence : DirectoryPresenceView)
  | error (errorCode diagnostic : Bytes)

namespace DesktopModel

/-- What the window does with an update: only a stale one is refused silently. -/
def noted (updated : ValidationResult × DesktopModel) : DesktopModel :=
  if !updated.1.ok ∧ updated.1.error ≠ .staleVersion then
    updated.2.recordError (errorCodeName updated.1.error) updated.1.field
  else updated.2

/-- `MainWindow::handleSessionEvent`. -/
def handleSessionEvent (m : DesktopModel) : SessionEvent → DesktopModel
  | .membershipUpdated membership => noted (m.updateMembership membership)
  | .directoryUpdated directory => noted (m.applyDirectory directory)
  | .presenceUpdated presence => noted (m.applyPresence presence)
  | .error errorCode diagnostic => m.recordError errorCode diagnostic

end DesktopModel

end Presentation

end VoxTree

import VoxTree.ClientTypes
import VoxTree.Lib.Machine
import VoxTree.Lib.Numbering
import VoxTree.VoiceEvents

/-!
# The client core behind its C interface

`hvc_client_core` with the structures of the C interface: what its functions make of them, the
events it tells its host, and the C++ wrapper on the host's side. A thread goes through a call in
three steps: what it does up to the end of the region under the mutex, the number of the event, and
the host's callback. The results of the voice client come with the call.
-/

namespace VoxTree

namespace ClientCore

/-! ## The C interface -/

/-- `hvc_client_core_string_view`; no data is a null pointer. -/
structure StringView where
  data : Option Bytes
  size : ℕ

def validString (value : StringView) : Bool := value.size = 0 || value.data.isSome

/-- The bytes behind the pointer, of which the caller promises `size`. -/
def copyString (value : StringView) : Bytes :=
  if value.size = 0 then [] else (value.data.getD []).take value.size

def stringView (value : Bytes) : StringView := ⟨some value, value.length⟩

/-- `sizeof` of the structures on a 64-bit system. -/
def roomGrantSize : ℕ := 40

def membershipSize : ℕ := 120

def eventSize : ℕ := 88

/-- `hvc_client_core_room_grant_v1`. -/
structure RoomGrant where
  structSize : ℕ
  scope : ℕ
  url : StringView
  token : StringView

/-- `hvc_client_core_membership_v1`; no role identifiers are a null pointer. -/
structure Membership where
  structSize : ℕ
  version : ℕ
  hierarchyId : StringView
  playerId : StringView
  groupId : StringView
  specializationId : StringView
  teamId : StringView
  roleIds : Option (List StringView)
  roleCount : ℕ
  connected : UInt8
  canReceiveVoice : UInt8
  transmitMuted : UInt8

/-- `hvc_client_core_event_v1`. -/
structure Event where
  structSize : ℕ
  abiVersion : ℕ
  sequence : UInt64
  kind : ℕ
  connectionState : ℕ
  scope : ℕ
  membership : Option Membership := none
  participantId : StringView := ⟨none, 0⟩
  errorCode : StringView := ⟨none, 0⟩
  message : StringView := ⟨none, 0⟩

def abiVersion : ℕ := 0x10000

def validScope (scope : ℕ) : Bool := scope = 0 || scope = 1 || scope = 2

/-- The cast to `VoiceScope`, of a valid scope. -/
def domainScope : ℕ → VoiceScope
  | 1 => .specialization
  | 2 => .group
  | _ => .team

/-- The cast back. -/
def coreScope : VoiceScope → ℕ
  | .team => 0
  | .specialization => 1
  | .group => 2

def coreState : VoiceTransportState → ℕ
  | .disconnected => 0
  | .connecting => 1
  | .connected => 2
  | .reconnecting => 3

inductive Result
  | ok | invalidArgument | incompatibleAbi | invalidState | transportError | internalError
  deriving DecidableEq

def voiceErrorCode : VoiceTransportError → String
  | .none => "voice_transport_none"
  | .invalidArgument => "voice_transport_invalid_argument"
  | .invalidState => "voice_transport_invalid_state"
  | .connectionFailed => "voice_transport_connection_failed"
  | .audioDeviceUnavailable => "voice_transport_audio_device_unavailable"
  | .audioDeviceSwitchFailed => "voice_transport_audio_device_switch_failed"
  | .publicationFailed => "voice_transport_publication_failed"
  | .internalError => "voice_transport_internal_error"

/-! ## Copies -/

structure MembershipStorage where
  version : ℕ
  hierarchyId : Bytes
  playerId : Bytes
  groupId : Bytes
  specializationId : Bytes
  teamId : Bytes
  roleIds : List Bytes
  connected : Bool
  canReceiveVoice : Bool
  transmitMuted : Bool
  deriving DecidableEq

/-- A text that must not be empty. -/
def copyRequired (value : StringView) : Option Bytes :=
  if !validString value || value.size = 0 then none else some (copyString value)

def copyMembership (value : Membership) : Option MembershipStorage :=
  if value.structSize < membershipSize ∨ value.version = 0
      ∨ (value.roleCount ≠ 0 ∧ value.roleIds.isNone) then none
  else do
    let hierarchyId ← copyRequired value.hierarchyId
    let playerId ← copyRequired value.playerId
    let groupId ← copyRequired value.groupId
    let specializationId ← copyRequired value.specializationId
    let teamId ← copyRequired value.teamId
    let roleIds ← ((value.roleIds.getD []).take value.roleCount).mapM copyRequired
    pure
      { version := value.version
        hierarchyId, playerId, groupId, specializationId, teamId, roleIds
        connected := value.connected ≠ 0
        canReceiveVoice := value.canReceiveVoice ≠ 0
        transmitMuted := value.transmitMuted ≠ 0 }

/-- The loop of `hvc_client_core_connect` over the grants. -/
def copyGrants : List RoomGrant → Option (List VoiceRoomGrant)
  | [] => some []
  | grant :: grants =>
    if grant.structSize < roomGrantSize ∨ !validScope grant.scope ∨ !validString grant.url
        ∨ !validString grant.token ∨ grant.url.size = 0 ∨ grant.token.size = 0 then none
    else
      (copyGrants grants).map
        ({ scope := domainScope grant.scope
           url := copyString grant.url
           token := copyString grant.token } :: ·)

/-! ## Events -/

/-- What is told, without its number. -/
inductive Body
  | connectionStateChanged (state : VoiceTransportState)
  | speakerStarted (scope : VoiceScope) (participantId : Bytes)
  | speakerStopped (scope : VoiceScope) (participantId : Bytes)
  | error (code message : Bytes)
  | membershipUpdated (value : MembershipStorage)
  | membershipCleared

def initializeEvent (sequence : UInt64) (kind : ℕ) : Event where
  structSize := eventSize
  abiVersion := abiVersion
  sequence
  kind
  connectionState := coreState .disconnected
  scope := coreScope .team

/-- The structure that `emitMembership` puts on its stack. -/
def eventMembership (value : MembershipStorage) : Membership where
  structSize := membershipSize
  version := value.version
  hierarchyId := stringView value.hierarchyId
  playerId := stringView value.playerId
  groupId := stringView value.groupId
  specializationId := stringView value.specializationId
  teamId := stringView value.teamId
  roleIds := some (value.roleIds.map stringView)
  roleCount := value.roleIds.length
  connected := value.connected.toUInt8
  canReceiveVoice := value.canReceiveVoice.toUInt8
  transmitMuted := value.transmitMuted.toUInt8

/-- The event the callback gets. -/
def Body.event (sequence : UInt64) : Body → Event
  | connectionStateChanged state =>
    { initializeEvent sequence 3 with connectionState := coreState state }
  | speakerStarted scope participantId =>
    { initializeEvent sequence 4 with
      scope := coreScope scope
      participantId := stringView participantId }
  | speakerStopped scope participantId =>
    { initializeEvent sequence 5 with
      scope := coreScope scope
      participantId := stringView participantId }
  | error code message =>
    { initializeEvent sequence 6 with
      errorCode := stringView code
      message := stringView message }
  | membershipUpdated value =>
    { initializeEvent sequence 1 with membership := some (eventMembership value) }
  | membershipCleared => initializeEvent sequence 2

/-- The membership a body tells of, none where it is cleared. -/
def Body.change? : Body → Option (Option MembershipStorage)
  | membershipUpdated value => some (some value)
  | membershipCleared => some none
  | _ => none

/-! ## Calls -/

/-- The functions of the interface that may tell something, and the callbacks of the voice client.
The result is what the voice client returns. -/
inductive Call
  | connect (grants : Option (List RoomGrant)) (grantCount : ℕ) (result : VoiceTransportResult)
  | disconnect (result : VoiceTransportResult)
  | pressPushToTalk (scope : ℕ) (result : VoiceTransportResult)
  | releasePushToTalk (result : VoiceTransportResult)
  | updateMembership (membership : Option Membership)
  | clearMembership
  | voiceStateChanged (state : VoiceTransportState)
  | voiceRemoteEvent (event : VoiceRemoteEvent)
  | voiceError (error : VoiceTransportError) (message : Bytes)

/-- What a call leaves behind at the end of its region under the mutex, what it is going to tell,
and what it is going to return. -/
structure Entered where
  membership : Option MembershipStorage
  body : Option Body := none
  result : Result := .ok

section Calls

variable (membership : Option MembershipStorage)

def operationResult (result : VoiceTransportResult) : Entered :=
  if result.ok then { membership }
  else
    { membership
      body := some (.error (bytes (voiceErrorCode result.error)) result.message)
      result := match result.error with
        | .invalidArgument => .invalidArgument
        | .invalidState => .invalidState
        | _ => .transportError }

def reportArgumentError (message : String) : Entered where
  membership
  body := some (.error (bytes "client_invalid_argument") (bytes message))
  result := .invalidArgument

def enter : Call → Entered
  | .connect grants grantCount result =>
    if grants.isNone ∨ grantCount = 0 ∨ 3 < grantCount then
      reportArgumentError membership "between one and three room grants are required"
    else
      match copyGrants ((grants.getD []).take grantCount) with
      | none => reportArgumentError membership "room grants contain an invalid entry"
      | some _ => operationResult membership result
  | .disconnect result => operationResult membership result
  | .pressPushToTalk scope result =>
    if !validScope scope then reportArgumentError membership "push-to-talk scope is invalid"
    else operationResult membership result
  | .releasePushToTalk result => operationResult membership result
  | .updateMembership none => reportArgumentError membership "membership is required"
  | .updateMembership (some update) =>
    match copyMembership update with
    | none => reportArgumentError membership "membership contains an invalid field"
    | some value =>
      if membership.any fun current => value.version ≤ current.version then
        reportArgumentError membership "membership version must increase strictly"
      else { membership := some value, body := some (.membershipUpdated value) }
  | .clearMembership => { membership := none, body := some .membershipCleared }
  | .voiceStateChanged state => { membership, body := some (.connectionStateChanged state) }
  | .voiceRemoteEvent event =>
    match event.kind with
    | .speakerStarted =>
      { membership, body := some (.speakerStarted event.scope event.participantId) }
    | .speakerStopped =>
      { membership, body := some (.speakerStopped event.scope event.participantId) }
    | _ => { membership }
  | .voiceError error message =>
    { membership, body := some (.error (bytes (voiceErrorCode error)) message) }

end Calls

/-! ## Threads -/

/-- The core, what its threads have in hand, and the memberships it has taken. -/
structure State (κ : Type*) where
  membership : Option MembershipStorage := none
  tellers : Numbering.State κ Body := { next := 1 }
  changes : List (κ × Option MembershipStorage) := []

inductive Action (κ : Type*)
  | enter (thread : κ) (call : Call)
  | number (thread : κ)
  | callback (thread : κ)

variable {κ : Type*} [DecidableEq κ]

def step (s : State κ) : Action κ → Option (State κ)
  | .enter thread call =>
    if (s.tellers.phase thread).isIdle then
      let entered := enter s.membership call
      match entered.body with
      | none => some { s with membership := entered.membership }
      | some body =>
        some
          { membership := entered.membership
            tellers := s.tellers.choose thread body
            changes := s.changes ++ body.change?.toList.map fun change => (thread, change) }
    else none
  | .number thread => (s.tellers.draw thread).map fun tellers => { s with tellers }
  | .callback thread => (s.tellers.deliver thread).map fun tellers => { s with tellers }

/-- The events in the order of their callbacks. -/
def State.events (s : State κ) : List (κ × Event) :=
  s.tellers.delivered.map fun d => (d.thread, d.item.event (UInt64.ofNat d.number))

/-! ## The wrapper -/

namespace Wrapper

/-- `hvc::client_core::Membership`, which has the fields of the core's copy. -/
abbrev Membership := MembershipStorage

/-- `hvc::client_core::Event`. -/
structure Event where
  sequence : UInt64
  kind : ℕ
  connectionState : ℕ
  scope : ℕ
  membership : Option Membership
  participantId : Bytes
  errorCode : Bytes
  message : Bytes

/-- The structure that `updateMembership` hands to the core. -/
def updateMembership (membership : Membership) : ClientCore.Membership :=
  eventMembership membership

/-- The copy that `eventThunk` makes of a membership. -/
def readMembership (source : ClientCore.Membership) : Membership where
  version := source.version
  hierarchyId := copyString source.hierarchyId
  playerId := copyString source.playerId
  groupId := copyString source.groupId
  specializationId := copyString source.specializationId
  teamId := copyString source.teamId
  roleIds := ((source.roleIds.getD []).take source.roleCount).map copyString
  connected := source.connected ≠ 0
  canReceiveVoice := source.canReceiveVoice ≠ 0
  transmitMuted := source.transmitMuted ≠ 0

def eventThunk (event : ClientCore.Event) : Event where
  sequence := event.sequence
  kind := event.kind
  connectionState := event.connectionState
  scope := event.scope
  membership := event.membership.map readMembership
  participantId := copyString event.participantId
  errorCode := copyString event.errorCode
  message := copyString event.message

/-- The array that `connect` hands to the core, and `CVoiceTransport::connect` to the host. -/
def grantArray (grants : List VoiceRoomGrant) : List RoomGrant :=
  grants.map fun grant => ⟨roomGrantSize, coreScope grant.scope, stringView grant.url,
    stringView grant.token⟩

/-- What `connectThunk` hands to the host's transport. -/
def connectThunk (grants : List RoomGrant) : List VoiceRoomGrant :=
  grants.map fun grant => ⟨domainScope grant.scope, copyString grant.url, copyString grant.token⟩

/-- What the host learns about the membership from an event. -/
def Event.change? (event : Event) : Option (Option Membership) :=
  if event.kind = 1 then some event.membership
  else if event.kind = 2 then some none
  else none

end Wrapper

/-- What the host has been told of the membership. -/
def State.told (s : State κ) : List (Option MembershipStorage) :=
  s.events.filterMap fun told => (Wrapper.eventThunk told.2).change?

end ClientCore

end VoxTree

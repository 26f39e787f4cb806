import VoxTree.Domain

/-!
# What the client's components exchange

Results of the control-plane client, of the voice transport and of the coordinated voice session.
-/

namespace VoxTree

/-- `std::to_string` of an unsigned number. -/
def decimal (n : ℕ) : Bytes := bytes (toString n)

inductive ControlPlaneErrorKind
  | invalidState | invalidArgument | transport | invalidResponse | server
  deriving DecidableEq, Repr

structure ControlPlaneError where
  kind : ControlPlaneErrorKind
  statusCode : Int
  code : Bytes
  message : Bytes
  deriving DecidableEq

/-- `ControlPlaneResult<Value>`: a value or an error. -/
abbrev ControlPlaneResult (α : Type*) := Except ControlPlaneError α

structure MembershipView where
  version : Nat
  hierarchyId : HierarchyId
  playerId : PlayerId
  groupId : GroupId
  specializationId : SpecializationId
  teamId : TeamId
  roleIds : List RoleId
  connected : Bool
  canReceiveVoice : Bool
  transmitMuted : Bool
  deriving DecidableEq

structure VoiceRoomGrant where
  scope : VoiceScope
  url : Bytes
  token : Bytes
  deriving DecidableEq

structure VoiceGrantSet where
  membershipVersion : Nat
  expiresAt : Int
  roomGrants : List VoiceRoomGrant
  deriving DecidableEq

structure StartedTransmission where
  transmissionId : TransmissionId
  clientTransmissionId : ClientTransmissionId
  scope : VoiceScope
  membershipVersion : Nat
  recipientCount : Nat
  deriving DecidableEq

structure EndedTransmissionView where
  transmissionId : TransmissionId
  stopReason : Bytes
  deriving DecidableEq

inductive VoiceTransportState
  | disconnected | connecting | connected | reconnecting
  deriving DecidableEq

/-- `VoiceTransportError`, in the order of its numbers. -/
inductive VoiceTransportError
  | none | invalidArgument | invalidState | connectionFailed | audioDeviceUnavailable
  | audioDeviceSwitchFailed | publicationFailed | internalError
  deriving DecidableEq

structure VoiceTransportResult where
  error : VoiceTransportError := .none
  message : Bytes := []
  deriving DecidableEq

namespace VoiceTransportResult

def success : VoiceTransportResult := {}

def failure (error : VoiceTransportError) (message : Bytes) : VoiceTransportResult :=
  ⟨error, message⟩

/-- `explicit operator bool`. -/
def ok (r : VoiceTransportResult) : Bool := r.error = .none

end VoiceTransportResult

inductive MicrophonePublicationState
  | idle | starting | active | stopping
  deriving DecidableEq

inductive VoiceSessionErrorSource
  | clientState | controlPlane | voiceTransport
  deriving DecidableEq

structure VoiceSessionError where
  source : VoiceSessionErrorSource
  code : Bytes
  message : Bytes
  statusCode : Int
  deriving DecidableEq

structure VoiceSessionResult where
  successful : Bool := false
  transmission : Option StartedTransmission := none
  error : Option VoiceSessionError := none
  deriving DecidableEq

namespace VoiceSessionResult

def success (startedTransmission : Option StartedTransmission := none) : VoiceSessionResult :=
  ⟨true, startedTransmission, none⟩

def failure (actionError : VoiceSessionError) : VoiceSessionResult := ⟨false, none, some actionError⟩

end VoiceSessionResult

/-- A failure that local client state is the source of. -/
def clientStateFailure (code message : Bytes) : VoiceSessionResult :=
  .failure ⟨.clientState, code, message, 0⟩

def controlPlaneFailure (error : ControlPlaneError) : VoiceSessionResult :=
  .failure ⟨.controlPlane, error.code, error.message, error.statusCode⟩

def transportFailure (result : VoiceTransportResult) : VoiceSessionResult :=
  .failure ⟨.voiceTransport, bytes "voice_transport_" ++ decimal result.error.ctorIdx,
    result.message, 0⟩

end VoxTree

import VoxTree.ClientTypes
import VoxTree.Transmission

/-!
# How the server answers a start and an end

Codes and statuses of the adapter's error responses for transmissions, and what the control-plane
client makes of the answers of `TransmissionApplicationService`.
-/

namespace VoxTree

def startErrorCode : StartTransmissionError → Bytes
  | .sessionNotFound => bytes "session_not_found"
  | .sessionDeviceMismatch => bytes "session_device_mismatch"
  | .sessionExpired => bytes "session_expired"
  | .membershipUnavailable => bytes "membership_unavailable"
  | .voiceNotConnected => bytes "voice_not_connected"
  | .voiceNoActiveMembership => bytes "voice_no_active_membership"
  | .voiceScopeNotFound => bytes "voice_scope_not_found"
  | .voiceScopeNotAuthorized => bytes "voice_scope_not_authorized"
  | .voiceTransmitMuted => bytes "voice_transmit_muted"
  | .voiceMembershipStale => bytes "voice_membership_stale"
  | .sessionChangedDuringStart => bytes "session_changed_during_start"
  | .membershipChangedDuringStart => bytes "membership_changed_during_start"
  | .senderAlreadyTransmitting => bytes "sender_already_transmitting"
  | .speakerLimitReached => bytes "speaker_limit_reached"
  | .voiceControlUnavailable => bytes "voice_control_unavailable"
  | .transmissionIdConflict => bytes "transmission_id_conflict"
  | .rateLimited => bytes "rate_limited"

def startErrorStatus : StartTransmissionError → Int
  | .sessionNotFound | .sessionExpired => 401
  | .sessionDeviceMismatch | .voiceScopeNotAuthorized | .voiceTransmitMuted => 403
  | .rateLimited => 429
  | .membershipUnavailable | .voiceNotConnected | .voiceNoActiveMembership | .voiceScopeNotFound
  | .voiceMembershipStale | .sessionChangedDuringStart | .membershipChangedDuringStart
  | .senderAlreadyTransmitting | .speakerLimitReached | .transmissionIdConflict => 409
  | .voiceControlUnavailable => 502

def endErrorCode : EndTransmissionError → Bytes
  | .sessionNotFound => bytes "session_not_found"
  | .sessionDeviceMismatch => bytes "session_device_mismatch"
  | .sessionExpired => bytes "session_expired"
  | .transmissionNotFound => bytes "transmission_not_found"
  | .transmissionNotOwned => bytes "transmission_not_owned"
  | .rateLimited => bytes "rate_limited"

def endErrorStatus : EndTransmissionError → Int
  | .sessionNotFound | .sessionExpired => 401
  | .sessionDeviceMismatch | .transmissionNotOwned => 403
  | .transmissionNotFound => 404
  | .rateLimited => 429

/-- What `startTransmission` makes of the answer of `TransmissionApplicationService::start`. -/
def startAnswer : Except StartTransmissionError ActiveTransmission →
    ControlPlaneResult StartedTransmission
  | .ok transmission =>
    .ok
      { transmissionId := transmission.authorization.transmissionId
        clientTransmissionId := transmission.authorization.clientTransmissionId
        scope := transmission.authorization.scope
        membershipVersion := transmission.authorization.membershipVersion
        recipientCount := transmission.authorization.recipients.length }
  | .error e =>
    .error ⟨.server, startErrorStatus e, startErrorCode e,
      bytes "The transmission could not be started."⟩

/-- What `endTransmission` makes of the answer of `TransmissionApplicationService::end`. -/
def endAnswer (transmissionId : TransmissionId) : Except EndTransmissionError EndedTransmission →
    ControlPlaneResult EndedTransmissionView
  | .ok _ => .ok ⟨transmissionId, bytes "push_to_talk_released"⟩
  | .error e =>
    .error ⟨.server, endErrorStatus e, endErrorCode e,
      bytes "The transmission could not be ended."⟩

end VoxTree

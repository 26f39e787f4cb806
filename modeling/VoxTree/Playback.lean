import Mathlib.Data.Finset.Basic
import Mathlib.Data.Rat.Defs
import VoxTree.ClientTypes
import VoxTree.Lib.Deferred

/-!
# Which remote streams are played, and how loud

The playback state of `VoiceClient`: which remote streams are available, what the user and the
configuration decide about them, and the decisions handed to the transport. Gains and volumes are
exact rationals. `playback` is the component whose messages are the decisions: they are computed
under the client's mutex and handed on one at a time after it is released.
-/

namespace VoxTree

structure AudioEngineConfig where
  maximumStreams : ℕ := 8
  /-- `maximum_streams_per_scope`, indexed by the scope's number. -/
  maximumStreamsPerScope : VoiceScope → ℕ := fun
    | .team => 5
    | .specialization => 4
    | .group => 2
  teamGainUnderSpecialization : ℚ := 1 / 2
  teamGainUnderGroup : ℚ := 1 / 4
  specializationGainUnderGroup : ℚ := 1 / 2

/-- What names a remote stream to the client: its scope and its participant. -/
structure RemoteStreamKey where
  scope : VoiceScope
  participantId : Bytes
  deriving DecidableEq

structure AvailableRemoteAudio where
  key : RemoteStreamKey
  admissionOrder : ℕ
  admitted : Bool := false
  gain : ℚ := 0
  deriving DecidableEq

/-- A call of the transport's `configureRemoteAudio`. -/
structure PlaybackChange where
  key : RemoteStreamKey
  admitted : Bool
  gain : ℚ
  deriving DecidableEq

def AvailableRemoteAudio.change (stream : AvailableRemoteAudio) : PlaybackChange :=
  ⟨stream.key, stream.admitted, stream.gain⟩

/-- The order of the tuple of descending scope, admission order and participant. -/
def streamBefore (left right : AvailableRemoteAudio) : Bool :=
  (compare right.key.scope.ctorIdx left.key.scope.ctorIdx).then
    ((compare left.admissionOrder right.admissionOrder).then
      (compare left.key.participantId right.key.participantId)) = .lt

/-- The part of `VoiceClient` that decides about remote audio. -/
structure PlaybackState where
  audioConfig : AudioEngineConfig := {}
  availableRemoteAudio : List AvailableRemoteAudio := []
  mutedParticipants : Finset Bytes := ∅
  blockedParticipants : Finset Bytes := ∅
  participantVolumes : Std.ExtTreeMap Bytes ℚ := ∅
  nextAdmissionOrder : ℕ := 0

namespace PlaybackState

variable (p : PlaybackState)

def suppressed (participantId : Bytes) : Bool :=
  participantId ∈ p.mutedParticipants || participantId ∈ p.blockedParticipants

/-- The loop of `recomputePlaybackLocked` that admits streams in order, with its counters; it ends
with the admitted streams of each scope. -/
def admitStreams (admittedPerScope : VoiceScope → ℕ) (admittedTotal : ℕ) :
    List AvailableRemoteAudio → List AvailableRemoteAudio × (VoiceScope → ℕ)
  | [] => ([], admittedPerScope)
  | stream :: rest =>
    let withinLimits : Bool := admittedPerScope stream.key.scope
        < p.audioConfig.maximumStreamsPerScope stream.key.scope
      && admittedTotal < p.audioConfig.maximumStreams
    if !p.suppressed stream.key.participantId && withinLimits then
      let r := admitStreams (Function.update admittedPerScope stream.key.scope
        (admittedPerScope stream.key.scope + 1)) (admittedTotal + 1) rest
      ({ stream with admitted := true } :: r.1, r.2)
    else
      let r := admitStreams admittedPerScope admittedTotal rest
      ({ stream with admitted := false } :: r.1, r.2)

def gainOf (groupActive specializationActive : Bool) (stream : AvailableRemoteAudio) : ℚ :=
  if stream.admitted then
    let volume := (p.participantVolumes[stream.key.participantId]?).getD 1
    match stream.key.scope with
    | .team =>
      if groupActive then volume * p.audioConfig.teamGainUnderGroup
      else if specializationActive then volume * p.audioConfig.teamGainUnderSpecialization
      else volume
    | .specialization =>
      if groupActive then volume * p.audioConfig.specializationGainUnderGroup else volume
    | .group => volume
  else 0

/-- The streams with their new decisions, in the order in which they are decided. -/
def decided : List AvailableRemoteAudio :=
  let ordered := p.availableRemoteAudio.mergeSort fun left right => !streamBefore right left
  let r := p.admitStreams (fun _ => 0) 0 ordered
  r.1.map fun stream =>
    { stream with gain := p.gainOf (r.2 .group ≠ 0) (r.2 .specialization ≠ 0) stream }

/-- The source writes each decision back through a pointer; the model finds it by the key. -/
def recomputePlaybackLocked : PlaybackState × List PlaybackChange :=
  let decided := p.decided
  ({ p with
      availableRemoteAudio := p.availableRemoteAudio.map fun stream =>
        (decided.find? fun new => new.key = stream.key).getD stream },
    decided.map AvailableRemoteAudio.change)

def validGain (gain : ℚ) : Bool := 0 ≤ gain && gain ≤ 1

def validateAudioConfig (config : AudioEngineConfig) : VoiceTransportResult :=
  if config.maximumStreams = 0
      ∨ ([VoiceScope.team, .specialization, .group].any fun scope =>
        config.maximumStreamsPerScope scope = 0)
      ∨ !validGain config.teamGainUnderSpecialization ∨ !validGain config.teamGainUnderGroup
      ∨ !validGain config.specializationGainUnderGroup then
    .failure .invalidArgument (bytes
      "audio engine limits must be positive and ducking gains must be between zero and one")
  else .success

def setAudioEngineConfig (config : AudioEngineConfig) : PlaybackState × List PlaybackChange :=
  if (validateAudioConfig config).ok then { p with audioConfig := config }.recomputePlaybackLocked
  else (p, [])

/-- `updateParticipantFlag` for the muted or the blocked participants. -/
def updateParticipantFlag (participantId : Bytes) (enabled : Bool) (values : Finset Bytes)
    (store : Finset Bytes → PlaybackState) : PlaybackState × List PlaybackChange :=
  if participantId = [] then (p, [])
  else
    (store (if enabled then insert participantId values
      else values.erase participantId)).recomputePlaybackLocked

def setParticipantMuted (participantId : Bytes) (muted : Bool) :
    PlaybackState × List PlaybackChange :=
  p.updateParticipantFlag participantId muted p.mutedParticipants fun values =>
    { p with mutedParticipants := values }

def setParticipantBlocked (participantId : Bytes) (blocked : Bool) :
    PlaybackState × List PlaybackChange :=
  p.updateParticipantFlag participantId blocked p.blockedParticipants fun values =>
    { p with blockedParticipants := values }

def setParticipantVolume (participantId : Bytes) (volume : ℚ) :
    PlaybackState × List PlaybackChange :=
  if participantId = [] ∨ !validGain volume then (p, [])
  else
    { p with
      participantVolumes :=
        if volume = 1 then p.participantVolumes.erase participantId
        else p.participantVolumes.insert participantId volume }.recomputePlaybackLocked

def onRemoteAudioAvailable (key : RemoteStreamKey) : PlaybackState × List PlaybackChange :=
  if key.participantId = [] ∨ p.availableRemoteAudio.any fun stream => stream.key = key then (p, [])
  else
    let stream : AvailableRemoteAudio := { key, admissionOrder := p.nextAdmissionOrder }
    { p with
      availableRemoteAudio := p.availableRemoteAudio ++ [stream]
      nextAdmissionOrder := p.nextAdmissionOrder + 1 }.recomputePlaybackLocked

def onRemoteAudioUnavailable (key : RemoteStreamKey) : PlaybackState × List PlaybackChange :=
  { p with
    availableRemoteAudio := p.availableRemoteAudio.filter fun stream => stream.key ≠ key
    }.recomputePlaybackLocked

end PlaybackState

inductive PlaybackOp
  | setAudioEngineConfig (config : AudioEngineConfig)
  | setParticipantMuted (participantId : Bytes) (muted : Bool)
  | setParticipantBlocked (participantId : Bytes) (blocked : Bool)
  | setParticipantVolume (participantId : Bytes) (volume : ℚ)
  | onRemoteAudioAvailable (key : RemoteStreamKey)
  | onRemoteAudioUnavailable (key : RemoteStreamKey)

/-- The locked section of an operation, and the decisions it then applies. -/
def PlaybackOp.call (p : PlaybackState) : PlaybackOp → PlaybackState × List PlaybackChange
  | .setAudioEngineConfig config => p.setAudioEngineConfig config
  | .setParticipantMuted participantId muted => p.setParticipantMuted participantId muted
  | .setParticipantBlocked participantId blocked => p.setParticipantBlocked participantId blocked
  | .setParticipantVolume participantId volume => p.setParticipantVolume participantId volume
  | .onRemoteAudioAvailable key => p.onRemoteAudioAvailable key
  | .onRemoteAudioUnavailable key => p.onRemoteAudioUnavailable key

/-- What the transport answers to a decision changes nothing about the next one. -/
def playback : Deferred.Component PlaybackState PlaybackOp PlaybackChange Unit Unit where
  call p op := ((op.call p).1, [], (op.call p).2)
  receive := fun _ _ _ => ()

abbrev PlaybackConfig := Deferred.Config PlaybackState PlaybackChange Unit

abbrev PlaybackStep := Deferred.Action PlaybackOp PlaybackChange Unit

end VoxTree

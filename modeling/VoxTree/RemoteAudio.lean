import VoxTree.Playback

/-!
# Remote streams of the client and of the transport

`VoiceClient` lists remote streams by scope and participant, `LiveKitVoiceTransport` keeps a
publication for each, with the session id of its track. One step is a callback of the SDK or a
command of the user, handled to its end with everything the two call of each other. `connect` is
two steps: while the rooms are connected the SDK already reports publications. What the SDK throws
when a subscription is changed comes with the step. Playouts, and the tracks that are playing, are
left out: they change neither list.
-/

namespace VoxTree

/-- `VoiceClient` without its microphone. -/
structure VoiceClient where
  state : VoiceTransportState := .disconnected
  connectionGeneration : ℕ := 0
  playback : PlaybackState := {}

structure RemoteAudioPublication where
  publicationId : Bytes
  admitted : Bool := false
  gain : ℚ := 0
  deriving DecidableEq

/-- `LiveKitVoiceTransport` without its microphone. Without a playout backend there is the error
of its initialization. -/
structure LiveKitVoiceTransport where
  state : VoiceTransportState := .disconnected
  nextRoomGeneration : ℕ := 0
  activeRoomGeneration : ℕ := 0
  playoutInitializationError : Option Bytes := none
  remotePublications : VoiceScope → Std.ExtTreeMap Bytes RemoteAudioPublication := fun _ => ∅

/-! ## Grants -/

/-- The loop over the grants that the client and the transport both run before they connect, each
with its own messages. -/
def checkGrants (duplicate incomplete : Bytes) (seen : List VoiceScope) :
    List VoiceRoomGrant → VoiceTransportResult
  | [] => .success
  | grant :: rest =>
    if grant.scope ∈ seen then .failure .invalidArgument duplicate
    else if grant.url = [] ∨ grant.token = [] then .failure .invalidArgument incomplete
    else checkGrants duplicate incomplete (grant.scope :: seen) rest

def checkGrantSet (count duplicate incomplete : Bytes) (grants : List VoiceRoomGrant) :
    VoiceTransportResult :=
  if grants = [] ∨ 3 < grants.length then .failure .invalidArgument count
  else checkGrants duplicate incomplete [] grants

def VoiceClient.validateGrants : List VoiceRoomGrant → VoiceTransportResult :=
  checkGrantSet (bytes "between one and three authorized voice room grants are required")
    (bytes "voice room grants contain a duplicate scope")
    (bytes "voice room grants require a URL and a non-empty token")

def LiveKitVoiceTransport.validateGrants : List VoiceRoomGrant → VoiceTransportResult :=
  checkGrantSet (bytes "between one and three LiveKit room grants are required")
    (bytes "LiveKit grants require unique scopes, URLs, and tokens")
    (bytes "LiveKit grants require unique scopes, URLs, and tokens")

/-! ## The transport -/

namespace LiveKitVoiceTransport

variable (t : LiveKitVoiceTransport)

def publication (key : RemoteStreamKey) : Option RemoteAudioPublication :=
  (t.remotePublications key.scope)[key.participantId]?

def setPublication (key : RemoteStreamKey) (publication : RemoteAudioPublication) :
    LiveKitVoiceTransport :=
  { t with
    remotePublications := Function.update t.remotePublications key.scope
      ((t.remotePublications key.scope).insert key.participantId publication) }

def erasePublication (key : RemoteStreamKey) : LiveKitVoiceTransport :=
  { t with
    remotePublications := Function.update t.remotePublications key.scope
      ((t.remotePublications key.scope).erase key.participantId) }

def resetRemotePublications : LiveKitVoiceTransport := { t with remotePublications := fun _ => ∅ }

def isCurrentRoomGeneration (generation : ℕ) : Bool :=
  generation ≠ 0 && t.activeRoomGeneration = generation

/-- `sdkError` is what the SDK throws when the subscription is changed, if it does. -/
def configureRemoteAudio (change : PlaybackChange) (sdkError : Option Bytes) :
    LiveKitVoiceTransport × VoiceTransportResult :=
  if change.key.participantId = [] ∨ !PlaybackState.validGain change.gain then
    (t, .failure .invalidArgument
      (bytes "remote audio policy requires a participant ID and gain from zero to one"))
  else
    match change.admitted, t.playoutInitializationError with
    | true, some error => (t, .failure .audioDeviceUnavailable error)
    | _, _ =>
      match t.publication change.key with
      | none =>
        (t, .failure .invalidState (bytes "remote microphone publication is unavailable"))
      | some publication =>
        (t.setPublication change.key
          { publication with
            admitted := change.admitted
            gain := if change.admitted then change.gain else 0 },
          match sdkError with
          | none => .success
          | some error => .failure .internalError error)

/-- `VoiceClient::applyPlaybackChanges`; its result is the first failure. -/
def applyPlaybackChanges (sdk : PlaybackChange → Option Bytes) (changes : List PlaybackChange) :
    LiveKitVoiceTransport × VoiceTransportResult :=
  changes.foldl (fun r change =>
    let current := r.1.configureRemoteAudio change (sdk change)
    (current.1, if !current.2.ok && r.2.ok then current.2 else r.2)) (t, .success)

end LiveKitVoiceTransport

def VoiceClient.onTransportStateChanged (c : VoiceClient) (state : VoiceTransportState) :
    VoiceClient where
  state
  connectionGeneration :=
    if state = .reconnecting ∧ c.state ≠ .reconnecting then c.connectionGeneration + 1
    else c.connectionGeneration
  playback :=
    if state ≠ .connected then { c.playback with availableRemoteAudio := [] } else c.playback

/-! ## Both together -/

namespace RemoteAudio

/-- `connecting` holds between the two steps of `connect`. -/
structure State where
  client : VoiceClient := {}
  transport : LiveKitVoiceTransport := {}
  connecting : Bool := false

inductive Event
  -- commands of the user
  | connectBegin (grants : List VoiceRoomGrant)
  | connectEnd (connected : Bool)
  | disconnect (stopped : VoiceTransportResult)
  | setAudioEngineConfig (config : AudioEngineConfig)
  | setParticipantMuted (participantId : Bytes) (muted : Bool)
  | setParticipantBlocked (participantId : Bytes) (blocked : Bool)
  | setParticipantVolume (participantId : Bytes) (volume : ℚ)
  -- callbacks of the SDK
  | trackPublished (key : RemoteStreamKey) (publicationId : Bytes) (generation : ℕ)
  | trackUnpublished (key : RemoteStreamKey) (publicationId : Bytes) (generation : ℕ)
  | participantDisconnected (key : RemoteStreamKey) (generation : ℕ)
  | reconnecting (generation : ℕ)
  | reconnected (generation : ℕ) (allRoomsConnected : Bool)
  | roomDisconnected (generation : ℕ)

structure Action where
  event : Event
  sdk : PlaybackChange → Option Bytes := fun _ => none

namespace State

variable (s : State)

/-- The transport enters a state and tells the client. -/
def enter (state : VoiceTransportState) : State :=
  { s with
    client := s.client.onTransportStateChanged state
    transport := { s.transport with state } }

/-- An operation of the client's playback state, whose decisions the transport then gets. -/
def playbackOp (sdk : PlaybackChange → Option Bytes) (op : PlaybackOp) : State :=
  let r := op.call s.client.playback
  { s with
    client := { s.client with playback := r.1 }
    transport := (s.transport.applyPlaybackChanges sdk r.2).1 }

/-- `VoiceClient::connect` until the rooms are being connected. -/
def connectBegin (grants : List VoiceRoomGrant) : State :=
  if !(VoiceClient.validateGrants grants).ok ∨ s.client.state ≠ .disconnected then s
  else
    let client := { s.client with
      state := .connecting
      connectionGeneration := s.client.connectionGeneration + 1 }
    if s.transport.state ≠ .disconnected ∨ !(LiveKitVoiceTransport.validateGrants grants).ok then
      { s with client := { client with state := .disconnected } }
    else
      let s' : State :=
        { client
          transport := { s.transport with
            nextRoomGeneration := s.transport.nextRoomGeneration + 1
            activeRoomGeneration := s.transport.nextRoomGeneration + 1 }
          connecting := true }
      s'.enter .connecting

/-- The rest of `connect`. -/
def connectEnd (connected : Bool) : State :=
  if connected then { s with connecting := false }.enter .connected
  else
    let s' := { s with
      transport := { s.transport with activeRoomGeneration := 0 }
      connecting := false }.enter .disconnected
    { s' with client := { s'.client with state := .disconnected } }

/-- `stopped` is what `releasePushToTalk` returns to `VoiceClient::disconnect`. -/
def disconnect (stopped : VoiceTransportResult) : State :=
  if s.client.state = .disconnected then s
  else if !stopped.ok ∧ stopped.error ≠ .invalidState then s
  else if s.transport.state = .disconnected then s
  else
    let s' := { s with
      transport := { s.transport with activeRoomGeneration := 0 }.resetRemotePublications
      }.enter .disconnected
    { s' with client := { s'.client with state := .disconnected } }

/-- `remoteAudioAvailable`, as `onTrackPublished` and `onTrackSubscribed` call it. -/
def remoteAudioAvailable (sdk : PlaybackChange → Option Bytes) (key : RemoteStreamKey)
    (publicationId : Bytes) (generation : ℕ) : State :=
  if !s.transport.isCurrentRoomGeneration generation then s
  else if (s.transport.publication key).any fun existing => existing.publicationId = publicationId
    then s
  else
    { s with transport := s.transport.setPublication key { publicationId } }.playbackOp sdk
      (.onRemoteAudioAvailable key)

/-- `remoteAudioUnavailable`, as `onTrackUnpublished` calls it. -/
def remoteAudioUnavailable (sdk : PlaybackChange → Option Bytes) (key : RemoteStreamKey)
    (publicationId : Bytes) (generation : ℕ) : State :=
  if !s.transport.isCurrentRoomGeneration generation then s
  else if (s.transport.publication key).any fun existing => existing.publicationId = publicationId
    then
      { s with transport := s.transport.erasePublication key }.playbackOp sdk
        (.onRemoteAudioUnavailable key)
  else s

def participantDisconnected (sdk : PlaybackChange → Option Bytes) (key : RemoteStreamKey)
    (generation : ℕ) : State :=
  if !s.transport.isCurrentRoomGeneration generation then s
  else if (s.transport.publication key).isSome then
    { s with transport := s.transport.erasePublication key }.playbackOp sdk
      (.onRemoteAudioUnavailable key)
  else s

/-- `reconnecting`, `reconnected` and `roomDisconnected`: a change of state, if the room is one of
the current connection. -/
def roomState (state : VoiceTransportState) (generation : ℕ) : State :=
  if !s.transport.isCurrentRoomGeneration generation then s else s.enter state

end State

def Event.byUser : Event → Bool
  | .connectBegin _ | .disconnect _ | .setAudioEngineConfig _ | .setParticipantMuted ..
  | .setParticipantBlocked .. | .setParticipantVolume .. => true
  | _ => false

/-- No command begins before `connect` has returned. -/
def step (s : State) (a : Action) : Option State :=
  if s.connecting && a.event.byUser then none
  else
    match a.event with
    | .connectBegin grants => some (s.connectBegin grants)
    | .connectEnd connected => if s.connecting then some (s.connectEnd connected) else none
    | .disconnect stopped => some (s.disconnect stopped)
    | .setAudioEngineConfig config => some (s.playbackOp a.sdk (.setAudioEngineConfig config))
    | .setParticipantMuted participantId muted =>
      some (s.playbackOp a.sdk (.setParticipantMuted participantId muted))
    | .setParticipantBlocked participantId blocked =>
      some (s.playbackOp a.sdk (.setParticipantBlocked participantId blocked))
    | .setParticipantVolume participantId volume =>
      some (s.playbackOp a.sdk (.setParticipantVolume participantId volume))
    | .trackPublished key publicationId generation =>
      some (s.remoteAudioAvailable a.sdk key publicationId generation)
    | .trackUnpublished key publicationId generation =>
      some (s.remoteAudioUnavailable a.sdk key publicationId generation)
    | .participantDisconnected key generation =>
      some (s.participantDisconnected a.sdk key generation)
    | .reconnecting generation => some (s.roomState .reconnecting generation)
    | .reconnected generation allRoomsConnected =>
      some (if allRoomsConnected then s.roomState .connected generation else s)
    | .roomDisconnected generation => some (s.roomState .disconnected generation)

/-- Every publication the transport keeps is listed by the client, and admitted exactly if the
client admits the stream. -/
def Agreement (s : State) : Prop :=
  ∀ key publication, s.transport.publication key = some publication →
    ∃ stream ∈ s.client.playback.availableRemoteAudio, stream.key = key
      ∧ publication.admitted = stream.admitted

/-- Whether the transport keeps no publication. -/
def keepsNone (s : State) : Bool :=
  [VoiceScope.team, .specialization, .group].all fun scope =>
    (s.transport.remotePublications scope).isEmpty

/-- There is a playout backend, and the step neither publishes a track of a nameless participant,
nor publishes one anew under another id while the old publication is admitted, nor makes the client
drop its list while the transport keeps a publication. -/
def harmless (s : State) (a : Action) : Bool :=
  s.transport.playoutInitializationError.isNone &&
    match a.event with
    | .trackPublished key publicationId generation =>
      !s.transport.isCurrentRoomGeneration generation
        || key.participantId ≠ [] && (s.transport.publication key).all fun existing =>
          existing.publicationId = publicationId || !existing.admitted
    | .connectBegin grants =>
      !(VoiceClient.validateGrants grants).ok || s.client.state ≠ .disconnected
        || s.transport.state ≠ .disconnected || keepsNone s
    | .connectEnd false => keepsNone s
    | .reconnecting generation | .roomDisconnected generation =>
      !s.transport.isCurrentRoomGeneration generation || keepsNone s
    | _ => true

def initial (playoutInitializationError : Option Bytes) : State :=
  { transport := { playoutInitializationError } }

end RemoteAudio

end VoxTree

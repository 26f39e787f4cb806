import Mathlib.Logic.Function.Basic
import VoxTree.DesktopModel

/-!
# Voice events and the operations of the desktop model

The rest of `DesktopModel`: the two voice callbacks, the local transmission, the selected channel
and what the user sets for a participant. `Operation` lists everything that changes the model, in
whatever order the window calls it.
-/

namespace VoxTree

/-- An aggregate voice state. Its numbers are those of `VoiceClient`, which counts up. -/
structure VoiceConnectionEvent where
  state : VoiceTransportState
  generation : ℕ
  sequence : ℕ
  deriving DecidableEq

inductive VoiceRemoteEventKind
  | participantConnected | participantDisconnected | audioAvailable | audioUnavailable
  | speakerStarted | speakerStopped
  deriving DecidableEq

structure VoiceRemoteEvent where
  kind : VoiceRemoteEventKind
  scope : VoiceScope
  participantId : Bytes
  generation : ℕ
  sequence : ℕ
  deriving DecidableEq

namespace Presentation

open Client ValidationResult

/-! ## Sequences -/

/-- The lambda `advance` on the counters of one kind: whether the event is newer than what its
scope has seen, and the counters. -/
def advance (counters : VoiceScope → ℕ) (event : VoiceRemoteEvent) : Bool × (VoiceScope → ℕ) :=
  if event.sequence ≤ counters event.scope then (false, counters)
  else (true, Function.update counters event.scope event.sequence)

/-- `update_connected`, `update_audio` and `update_speaking`. -/
structure VoiceUpdates where
  connected : Bool := false
  audio : Bool := false
  speaking : Bool := false
  deriving DecidableEq

def ParticipantVoiceSequences.advanced (sequences : ParticipantVoiceSequences)
    (event : VoiceRemoteEvent) : VoiceUpdates × ParticipantVoiceSequences :=
  let connected := advance sequences.connected event
  let audio := advance sequences.audioAvailable event
  let speaking := advance sequences.speaking event
  match event.kind with
  | .participantConnected =>
    ({ connected := connected.1 }, { sequences with connected := connected.2 })
  | .participantDisconnected =>
    (⟨connected.1, audio.1, speaking.1⟩, ⟨connected.2, audio.2, speaking.2⟩)
  | .audioAvailable => ({ audio := audio.1 }, { sequences with audioAvailable := audio.2 })
  | .audioUnavailable | .speakerStarted =>
    ({ audio := audio.1, speaking := speaking.1 },
      { sequences with audioAvailable := audio.2, speaking := speaking.2 })
  | .speakerStopped => ({ speaking := speaking.1 }, { sequences with speaking := speaking.2 })

/-! ## Participants -/

namespace ParticipantState

variable (participant : ParticipantState)

def setConnected (scope : VoiceScope) (connected : Bool) : ParticipantState :=
  { participant with
    connectedScopes := Function.update participant.connectedScopes scope connected }

def setAudioAvailable (scope : VoiceScope) (available : Bool) : ParticipantState :=
  { participant with
    audioAvailableScopes := Function.update participant.audioAvailableScopes scope available }

def startSpeaking (scope : VoiceScope) : ParticipantState :=
  { participant with speaking := true, speakingScope := some scope }

/-- Only the scope that is shown as speaking can stop. -/
def stopSpeaking (scope : VoiceScope) : ParticipantState :=
  if participant.speakingScope = some scope then
    { participant with speaking := false, speakingScope := none }
  else participant

/-- The second `switch` of `applyVoiceRemoteEvent`. -/
def hear (event : VoiceRemoteEvent) (update : VoiceUpdates) : ParticipantState :=
  let scope := event.scope
  match event.kind with
  | .participantConnected =>
    if update.connected then participant.setConnected scope true else participant
  | .participantDisconnected =>
    let left := if update.connected then participant.setConnected scope false else participant
    let mute := if update.audio then left.setAudioAvailable scope false else left
    if update.speaking then mute.stopSpeaking scope else mute
  | .audioAvailable =>
    if update.audio then participant.setAudioAvailable scope true else participant
  | .audioUnavailable =>
    let mute := if update.audio then participant.setAudioAvailable scope false else participant
    if update.speaking then mute.stopSpeaking scope else mute
  | .speakerStarted =>
    let audible := if update.audio then participant.setAudioAvailable scope true else participant
    if update.speaking then audible.startSpeaking scope else audible
  | .speakerStopped => if update.speaking then participant.stopSpeaking scope else participant

/-- The row of a participant whom no directory has named yet. -/
def placeholder (participantId : Bytes) : ParticipantState :=
  { participantId, displayName := participantId }

end ParticipantState

/-! ## Commands -/

/-- The commands that the model itself validates before it changes, with their payload. -/
inductive Command
  | connect
  | disconnect
  | selectChannel (channel : Option ChannelSelection)
  | setParticipantVolume (participantId : Bytes) (participantVolume : ℚ)
  | setParticipantMuted (participantId : Bytes)

namespace DesktopModel

variable (m : DesktopModel)

def validate : Command → ValidationResult
  | .connect =>
    if m.connection = .signedOut then success else failure .invalidState "connection"
  | .disconnect =>
    if isSessionAvailable m.connection then success else failure .invalidState "connection"
  | .selectChannel channel =>
    if !isSessionAvailable m.connection then failure .invalidState "connection"
    else if !(channel.any fun selection => selection.nodeId ≠ []) then
      failure .invalidArgument "channel"
    else success
  | .setParticipantVolume participantId participantVolume =>
    if !isSessionAvailable m.connection then failure .invalidState "connection"
    else if participantId = [] ∨ !m.participants.contains participantId then
      failure .notFound "participant_id"
    else if 0 ≤ participantVolume ∧ participantVolume ≤ 1 then success
    else failure .invalidArgument "participant_volume"
  | .setParticipantMuted participantId =>
    if !isSessionAvailable m.connection then failure .invalidState "connection"
    else if participantId ≠ [] ∧ m.participants.contains participantId then success
    else failure .notFound "participant_id"

def selectChannel (selection : ChannelSelection) : ValidationResult × DesktopModel :=
  let result := m.validate (.selectChannel (some selection))
  (result, if result.ok then { m with selectedChannel := some selection } else m)

/-- `participants.at(participant_id)`, changed in place. -/
def modifyParticipant (participantId : Bytes) (change : ParticipantState → ParticipantState) :
    DesktopModel :=
  { m with participants := m.participants.modify participantId change }

def setParticipantVolume (participantId : Bytes) (volume : ℚ) : ValidationResult × DesktopModel :=
  let result := m.validate (.setParticipantVolume participantId volume)
  (result, if result.ok then
    m.modifyParticipant participantId fun participant => { participant with volume }
  else m)

def setParticipantMuted (participantId : Bytes) (muted : Bool) :
    ValidationResult × DesktopModel :=
  let result := m.validate (.setParticipantMuted participantId)
  (result, if result.ok then
    m.modifyParticipant participantId fun participant => { participant with muted }
  else m)

def transmissionStarted (scope : VoiceScope) : DesktopModel :=
  { m with activeTransmissionScope := some scope }

def transmissionStopped : DesktopModel := { m with activeTransmissionScope := none }

/-! ## Voice callbacks -/

/-- What both callbacks do first with an event of a newer generation. -/
def enterGeneration (generation : ℕ) : DesktopModel :=
  if m.voiceGeneration < generation then
    { m.clearRemoteTransportState with
      voiceGeneration := generation
      participantVoiceSequences := ∅
      lastConnectionSequence := 0 }
  else m

/-- The `switch` of `updateVoiceState`. -/
def enterVoiceState : VoiceTransportState → DesktopModel
  | .disconnected =>
    { m with
      connection :=
        if m.connection ≠ .signedOut ∧ m.connection ≠ .disconnecting then .reconnecting
        else m.connection
      activeTransmissionScope := none }
  | .connecting =>
    { m with connection := if m.connection ≠ .signedOut then .connecting else m.connection }
  | .connected =>
    { m with connection := if m.membership.isSome then .ready else m.connection }
  | .reconnecting =>
    { m with
      connection := if m.connection ≠ .signedOut then .reconnecting else m.connection
      activeTransmissionScope := none }

def updateVoiceState (event : VoiceConnectionEvent) : DesktopModel :=
  if event.generation < m.voiceGeneration then m
  else
    let current := m.enterGeneration event.generation
    if event.sequence ≤ current.lastConnectionSequence then current
    else
      let noted : DesktopModel :=
        { current with
          lastConnectionSequence := event.sequence
          diagnostics := { current.diagnostics with voiceState := event.state } }
      noted.enterVoiceState event.state

def sequencesOf (participantId : Bytes) : ParticipantVoiceSequences :=
  (m.participantVoiceSequences[participantId]?).getD {}

/-- The row that an event has changed, its derived state refreshed. -/
def setParticipant (participantId : Bytes) (participant : ParticipantState) : DesktopModel :=
  let refreshed := refreshParticipantDerivedState m.serverPresence participant
  { m with participants := m.participants.insert participantId refreshed }

/-- The participant's row after the event; who is not listed in a directory has none. -/
def hearParticipant (event : VoiceRemoteEvent) (update : VoiceUpdates) : DesktopModel :=
  match m.participants[event.participantId]? with
  | none =>
    if m.directory.isSome then m
    else
      m.setParticipant event.participantId
        ((ParticipantState.placeholder event.participantId).hear event update)
  | some participant => m.setParticipant event.participantId (participant.hear event update)

/-- An event of the generation that the model is in. -/
def hear (event : VoiceRemoteEvent) : DesktopModel :=
  let (update, sequences) := (m.sequencesOf event.participantId).advanced event
  let counted : DesktopModel :=
    { m with
      participantVoiceSequences :=
        m.participantVoiceSequences.insert event.participantId sequences }
  if !update.connected && !update.audio && !update.speaking then counted
  else counted.hearParticipant event update

/-- The check of the scope's number is left out: a `VoiceScope` has no other. -/
def applyVoiceRemoteEvent (event : VoiceRemoteEvent) : DesktopModel :=
  if event.participantId = [] ∨ event.generation < m.voiceGeneration then m
  else (m.enterGeneration event.generation).hear event

def applyVoiceRemoteEvents (events : List VoiceRemoteEvent) : DesktopModel :=
  events.foldl applyVoiceRemoteEvent m

end DesktopModel

/-! ## Operations -/

/-- Every operation that changes the model. -/
inductive Operation
  | beginConnect
  | connectionSucceeded (membership : MembershipView)
  | connectionFailed (errorCode diagnostic : Bytes)
  | beginDisconnect
  | disconnected
  | updateVoiceState (event : VoiceConnectionEvent)
  | updateMembership (membership : MembershipView)
  | selectChannel (selection : ChannelSelection)
  | applyDirectory (directory : DirectoryView)
  | applyPresence (presence : DirectoryPresenceView)
  | applyVoiceRemoteEvent (event : VoiceRemoteEvent)
  | transmissionStarted (scope : VoiceScope)
  | transmissionStopped
  | replaceSettings
  | setParticipantVolume (participantId : Bytes) (volume : ℚ)
  | setParticipantMuted (participantId : Bytes) (muted : Bool)
  | recordError (errorCode diagnostic : Bytes)

namespace DesktopModel

def apply (m : DesktopModel) : Operation → DesktopModel
  | .beginConnect => m.beginConnect.2
  | .connectionSucceeded membership => (m.connectionSucceeded membership).2
  | .connectionFailed errorCode diagnostic => m.connectionFailed errorCode diagnostic
  | .beginDisconnect => m.beginDisconnect.2
  | .disconnected => m.disconnected
  | .updateVoiceState event => m.updateVoiceState event
  | .updateMembership membership => (m.updateMembership membership).2
  | .selectChannel selection => (m.selectChannel selection).2
  | .applyDirectory directory => (m.applyDirectory directory).2
  | .applyPresence presence => (m.applyPresence presence).2
  | .applyVoiceRemoteEvent event => m.applyVoiceRemoteEvent event
  | .transmissionStarted scope => m.transmissionStarted scope
  | .transmissionStopped => m.transmissionStopped
  -- it writes nothing but the settings, which are left out
  | .replaceSettings => m
  | .setParticipantVolume participantId volume => (m.setParticipantVolume participantId volume).2
  | .setParticipantMuted participantId muted => (m.setParticipantMuted participantId muted).2
  | .recordError errorCode diagnostic => m.recordError errorCode diagnostic

/-- The model after operations since it was made. -/
def after (operations : List Operation) : DesktopModel := operations.foldl apply {}

end DesktopModel

end Presentation

end VoxTree

import VoxTree.ClientTypes
import VoxTree.Lib.Machine

/-!
# The local publication of the LiveKit transport on several threads

`startMicrophone`, `stopMicrophone` and `disconnect` of `LiveKitVoiceTransport` and the SDK's
callback `localAudioPublished`, on one connection. A thread's `Phase` is where it stands in a call;
one step runs one region under `publication_mutex_`, one access to another shared field or one call
of the SDK, whose answer comes with the step. A timed wait may end at any time.
-/

namespace VoxTree.LocalPublication

inductive PublicationState
  | idle | starting | active | stopping
  deriving DecidableEq

/-- Nanoseconds of `std::chrono::steady_clock`. -/
abbrev SteadyTime := Int

/-- A track is known by the generation of the call that created it. -/
abbrev LocalAudioTrack := ℕ

structure PublishedAudio where
  scope : VoiceScope
  generation : ℕ
  track : Option LocalAudioTrack := none
  publicationId : Bytes := []
  safeUnpublishAt : SteadyTime := 0
  deriving DecidableEq

/-- The fields of the transport; each room with the generation of its observer. -/
structure Transport where
  state : VoiceTransportState
  activeRoomGeneration : ℕ
  rooms : VoiceScope → Option ℕ
  publicationState : PublicationState := .idle
  publicationGeneration : ℕ := 0
  publishedAudio : Option PublishedAudio := none
  retiredPublications : List PublishedAudio := []

/-- Where a track was published. -/
structure Publishing where
  scope : VoiceScope
  roomGeneration : ℕ
  deriving DecidableEq

/-- What the SDK has: the local participant, the tracks given to `publishTrack`, the session ids it
assigned to them and those given to `unpublishTrack`. -/
structure Sdk where
  localParticipant : Bool := true
  published : LocalAudioTrack → Option Publishing := fun _ => none
  sessionIds : List (LocalAudioTrack × Bytes) := []
  unpublished : List Bytes := []

/-- The session id of `track->publication()`. -/
def Sdk.sessionId (sdk : Sdk) (track : LocalAudioTrack) : Option Bytes :=
  (sdk.sessionIds.find? fun entry => entry.1 = track).map Prod.snd

/-- What the SDK reports: the track's publication got its session id. -/
structure Confirmation where
  track : LocalAudioTrack
  scope : VoiceScope
  roomGeneration : ℕ
  sid : Bytes
  deriving DecidableEq

inductive Op
  | startMicrophone (scope : VoiceScope) | stopMicrophone | disconnect
  | localAudioPublished (track : LocalAudioTrack)

/-- A started call of `startMicrophone`, with the room it found. -/
structure Start where
  scope : VoiceScope
  generation : ℕ
  roomGeneration : ℕ

/-- The track is given to `publishTrack`. -/
def Sdk.publish (sdk : Sdk) (start : Start) : Sdk :=
  { sdk with
    published := Function.update sdk.published start.generation
      (some ⟨start.scope, start.roomGeneration⟩) }

/-- What `stopMicrophoneIfActive` returns to. -/
inductive Caller
  | stopMicrophone | disconnect

inductive Phase
  | outside (result : Option VoiceTransportResult)
  -- `startMicrophone`
  | startChecks (scope : VoiceScope)
  | startRoom (scope : VoiceScope)
  | startBegin (scope : VoiceScope) (roomGeneration : ℕ)
  | prepare (start : Start)
  | attach (start : Start)
  | publish (start : Start)
  | published (start : Start)
  | poll (start : Start)
  | query (start : Start)
  | record (start : Start) (sid : Bytes)
  | confirm (start : Start)
  | cancelled (start : Start)
  | reset (start : Start) (error : VoiceTransportError) (message : Bytes)
  -- `stopMicrophoneIfActive`
  | stopBegin (caller : Caller)
  | stopAwaitId (caller : Caller) (scope : VoiceScope) (generation : ℕ)
  | stopSettle (caller : Caller) (scope : VoiceScope) (generation : ℕ)
  | stopUnpublish (caller : Caller) (audio : PublishedAudio)
  | stopFinish (caller : Caller) (generation : ℕ) (result : VoiceTransportResult)
  -- `disconnect`
  | disconnectBegin
  | disconnectState
  | disconnectGeneration
  | disconnectRooms
  | disconnectReset
  -- `localAudioPublished`
  | callbackBegin (confirmation : Confirmation)
  | callbackRegion (confirmation : Confirmation)
  | callbackUnpublish (confirmation : Confirmation)

/-- What the step of a thread gets from outside: nothing, the time of the steady clock, whether
something holds (the room is connected, the publication is in the participant's map), what is
missing, that the time of a loop is over, or an exception. -/
inductive Answer
  | silent
  | clock (now : SteadyTime)
  | holds (value : Bool)
  | missing (message : Bytes)
  | elapsed
  | exception (message : Bytes)

def returned (result : VoiceTransportResult) : Phase := .outside (some result)

def failure (error : VoiceTransportError) (message : Bytes) : Phase :=
  returned (.failure error message)

def scopeName : VoiceScope → Bytes
  | .team => bytes "team"
  | .specialization => bytes "specialization"
  | .group => bytes "group"

def publicationDiagnostic (scope : VoiceScope) (generation : ℕ) (fromState toState : String)
    (message : Bytes) : Bytes :=
  message ++ bytes "; scope=" ++ scopeName scope ++ bytes "; transition=" ++ bytes fromState
    ++ bytes "->" ++ bytes toState ++ bytes "; generation=" ++ decimal generation

/-- The failure of a start, with its diagnostic. -/
def Start.failure (start : Start) (error : VoiceTransportError) (toState : String)
    (message : Bytes) : Phase :=
  LocalPublication.failure error
    (publicationDiagnostic start.scope start.generation "starting" toState message)

/-- The failure of a stop, with its diagnostic. -/
def stopFailure (scope : VoiceScope) (generation : ℕ) (error : VoiceTransportError)
    (message : String) : VoiceTransportResult :=
  .failure error (publicationDiagnostic scope generation "stopping" "idle" (bytes message))

/-- `maximum_publication_settle_time`. -/
def maximumPublicationSettleTime : SteadyTime := 250000000

namespace Transport

variable (c : Transport)

def isCurrentRoomGeneration (generation : ℕ) : Bool :=
  generation ≠ 0 && c.activeRoomGeneration = generation

/-- `published_audio_.has_value() && published_audio_->generation == generation`. -/
def holds (generation : ℕ) : Bool := c.publishedAudio.any fun audio => audio.generation = generation

def retirePublicationLocked (generation : ℕ) : Transport :=
  match c.publishedAudio with
  | none => c
  | some audio =>
    if audio.generation ≠ generation then c
    else
      { c with
        publishedAudio := none
        retiredPublications :=
          if audio.track.isSome then c.retiredPublications ++ [audio] else c.retiredPublications }

/-- The retirement that ends a start or a stop without a confirmation. -/
def retireToIdle (generation : ℕ) : Transport :=
  { c.retirePublicationLocked generation with publicationState := .idle }

def resetFailedPublication (generation : ℕ) : Transport :=
  if c.holds generation then c.retireToIdle generation else c

/-- A stop cancels a publication that is starting. -/
def cancel : Transport :=
  { c with
    publicationState := if c.publicationState = .starting then .stopping else c.publicationState }

/-- The session id is known. -/
def confirmed (sid : Bytes) (safeUnpublishAt : SteadyTime) : Transport :=
  { c with
    publishedAudio := c.publishedAudio.map fun audio =>
      { audio with publicationId := sid, safeUnpublishAt }
    publicationState :=
      if c.publicationState = .starting then .active else c.publicationState }

end Transport

/-- The steps of `startMicrophone`. -/
def startStep (c : Transport) (sdk : Sdk) : Phase → Answer → Option (Transport × Sdk × Phase)
  | .startChecks scope, .silent =>
    if c.state ≠ .connected then
      some (c, sdk, failure .invalidState (bytes "LiveKit transport is not connected"))
    else some (c, sdk, .startRoom scope)
  | .startRoom scope, .holds connected =>
    match c.rooms scope with
    | none =>
      some (c, sdk, failure .invalidState
        (bytes "the requested LiveKit scope is not connected"))
    | some roomGeneration =>
      if connected then some (c, sdk, .startBegin scope roomGeneration)
      else
        some (c, sdk, failure .invalidState
          (bytes "the requested LiveKit scope is not connected"))
  | .startBegin scope roomGeneration, .silent =>
    if c.publicationState ≠ .idle ∨ c.publishedAudio.isSome then
      some (c, sdk, failure .invalidState (bytes "a microphone publication is already active"))
    else
      let generation := c.publicationGeneration + 1
      some ({ c with
        publicationGeneration := generation
        publicationState := .starting
        publishedAudio := some { scope, generation } }, sdk,
        .prepare ⟨scope, generation, roomGeneration⟩)
  -- the microphone backend, its devices, a source with its track, and the participant
  | .prepare start, .missing message =>
    some (c, sdk, .reset start .audioDeviceUnavailable message)
  | .prepare start, .exception message => some (c, sdk, .reset start .publicationFailed message)
  | .prepare start, .silent =>
    if sdk.localParticipant then some (c, sdk, .attach start)
    else
      some (c, sdk, .reset start .publicationFailed
        (bytes "LiveKit local participant is unavailable"))
  | .attach start, .silent =>
    if c.holds start.generation then
      some ({ c with
        publishedAudio := c.publishedAudio.map fun audio =>
          { audio with track := some start.generation } }, sdk, .publish start)
    else
      some (c, sdk, start.failure .invalidState "idle"
        (bytes "publication generation was superseded"))
  -- a call that throws may have published
  | .publish start, .silent => some (c, sdk.publish start, .published start)
  | .publish start, .exception message =>
    some (c, sdk.publish start, .reset start .publicationFailed message)
  | .published start, .silent =>
    if c.holds start.generation then some (c, sdk, .poll start)
    else
      some (c, sdk, start.failure .invalidState "idle"
        (bytes "publication generation completed after teardown"))
  | .poll start, .silent =>
    if c.publishedAudio.any fun audio =>
        audio.generation = start.generation && audio.publicationId = [] then
      some (c, sdk, .query start)
    else some (c, sdk, .confirm start)
  | .poll start, .elapsed => some (c, sdk, .confirm start)
  | .query start, .holds visible =>
    match sdk.sessionId start.generation with
    | none => some (c, sdk, .poll start)
    | some sid => some (c, sdk, if visible then .record start sid else .poll start)
  | .query start, .exception message => some (c, sdk, .reset start .publicationFailed message)
  | .record start sid, .clock now =>
    some (if c.holds start.generation then c.confirmed sid (now + maximumPublicationSettleTime)
      else c, sdk, .confirm start)
  | .confirm start, .silent =>
    let confirmed := !c.holds start.generation || c.publicationState ≠ .starting
    if confirmed ∧ c.publicationState = .active ∧ c.publishedAudio.any (fun audio =>
        audio.generation = start.generation && audio.publicationId ≠ []) then
      some (c, sdk, returned .success)
    else if confirmed ∧ c.publicationState = .stopping then some (c, sdk, .cancelled start)
    else
      some (c.retireToIdle start.generation, sdk, start.failure .publicationFailed "idle"
        (bytes "LiveKit did not confirm the local publication in time"))
  | .cancelled start, .silent =>
    some (c, sdk, start.failure .invalidState "stopping"
      (bytes "publication was cancelled before confirmation"))
  | .reset start error message, .silent =>
    some (c.resetFailedPublication start.generation, sdk, start.failure error "idle" message)
  | _, _ => none

/-- Where a call stands when the stop inside it has returned. -/
def Caller.afterStop (result : VoiceTransportResult) : Caller → Phase
  | .stopMicrophone => returned result
  | .disconnect => .disconnectState

/-- The end of the waits of a stop: the publication is taken out. -/
def take (c : Transport) (caller : Caller) (scope : VoiceScope) (generation : ℕ) :
    Transport × Phase :=
  match c.publishedAudio with
  | none =>
    (c, caller.afterStop (stopFailure scope generation .invalidState
      "publication generation changed during cancellation"))
  | some audio =>
    if audio.generation = generation then
      ({ c with publishedAudio := none, publicationState := .stopping },
        .stopUnpublish caller audio)
    else
      (c, caller.afterStop (stopFailure scope generation .invalidState
        "publication generation changed during cancellation"))

/-- A stop whose publication is confirmed waits until it can be taken out safely. -/
def settle (c : Transport) (caller : Caller) (audio : PublishedAudio) (now : SteadyTime) :
    Transport × Phase :=
  if now < audio.safeUnpublishAt then (c, .stopSettle caller audio.scope audio.generation)
  else take c caller audio.scope audio.generation

/-- The steps of `stopMicrophoneIfActive` under the mutex. -/
def stopStep (c : Transport) : Phase → Answer → Option (Transport × Phase)
  | .stopBegin caller, .clock now =>
    match c.publishedAudio with
    | none =>
      some (c, caller.afterStop
        (.failure .invalidState (bytes "no microphone publication is active")))
    | some audio =>
      if c.publicationState = .idle then
        some (c, caller.afterStop
          (.failure .invalidState (bytes "no microphone publication is active")))
      else if c.cancel.publicationState = .stopping ∧ audio.publicationId = [] then
        some (c.cancel, .stopAwaitId caller audio.scope audio.generation)
      else some (settle c.cancel caller audio now)
  | .stopAwaitId caller scope generation, .clock now =>
    match c.publishedAudio.filter fun audio =>
      audio.generation = generation && audio.publicationId ≠ [] with
    | some audio => some (settle c caller audio now)
    | none =>
      some (c.retireToIdle generation, caller.afterStop (stopFailure scope generation
        .publicationFailed "cancelled publication did not produce a LiveKit SID"))
  | .stopSettle caller scope generation, .silent => some (take c caller scope generation)
  | .stopFinish caller generation result, .silent =>
    some (if c.publicationGeneration = generation then { c with publicationState := .idle } else c,
      caller.afterStop result)
  | _, _ => none

/-- The call of `unpublishTrack` in a stop; the answer is whether a publication remains. -/
def unpublishStep (c : Transport) (sdk : Sdk) (audio : PublishedAudio) (answer : Answer) :
    Option (Sdk × VoiceTransportResult) :=
  let failed := stopFailure audio.scope audio.generation .publicationFailed
  if c.rooms audio.scope = none then
    some (sdk, failed "the publishing LiveKit room is unavailable")
  else if !sdk.localParticipant then
    some (sdk, failed "LiveKit local participant is unavailable during PTT release")
  else if audio.publicationId = [] then
    some (sdk, failed "published microphone has no LiveKit publication SID")
  else
    let sdk' : Sdk := { sdk with unpublished := sdk.unpublished ++ [audio.publicationId] }
    match answer with
    | .holds remaining =>
      some (sdk', if remaining then failed "microphone publication remained after PTT release"
        else .success)
    | .exception message => some (sdk', .failure .publicationFailed message)
    | _ => none

/-- The steps of `disconnect`. -/
def disconnectStep (c : Transport) : Phase → Answer → Option (Transport × Phase)
  | .disconnectBegin, .silent =>
    if c.state = .disconnected then
      some (c, failure .invalidState (bytes "LiveKit transport is already disconnected"))
    else some (c, .stopBegin .disconnect)
  | .disconnectState, .silent => some ({ c with state := .disconnected }, .disconnectGeneration)
  | .disconnectGeneration, .silent => some ({ c with activeRoomGeneration := 0 }, .disconnectRooms)
  | .disconnectRooms, .silent => some ({ c with rooms := fun _ => none }, .disconnectReset)
  | .disconnectReset, .silent =>
    some ({ c with
      publishedAudio := none
      retiredPublications := []
      publicationState := .idle }, returned .success)
  | _, _ => none

def matchesPublication (sdk : Sdk) (confirmation : Confirmation) (audio : PublishedAudio) : Bool :=
  audio.scope = confirmation.scope && audio.track.any fun track =>
    track = confirmation.track || sdk.sessionId track = some confirmation.sid

/-- The steps of `localAudioPublished`. -/
def callbackStep (c : Transport) (sdk : Sdk) : Phase → Answer → Option (Transport × Sdk × Phase)
  | .callbackBegin confirmation, .silent =>
    some (c, sdk, if c.isCurrentRoomGeneration confirmation.roomGeneration then
      .callbackRegion confirmation else .outside none)
  | .callbackRegion confirmation, .clock now =>
    if c.publishedAudio.any (matchesPublication sdk confirmation) then
      some (c.confirmed confirmation.sid now, sdk, .outside none)
    else if c.retiredPublications.any (matchesPublication sdk confirmation) then
      some ({ c with
        retiredPublications := c.retiredPublications.eraseP (matchesPublication sdk confirmation) },
        sdk, .callbackUnpublish confirmation)
    else some (c, sdk, .outside none)
  | .callbackUnpublish confirmation, .silent =>
    if (c.rooms confirmation.scope).isSome && sdk.localParticipant then
      some (c, { sdk with unpublished := sdk.unpublished ++ [confirmation.sid] }, .outside none)
    else some (c, sdk, .outside none)
  | _, _ => none

/-- One step of a thread inside a call. -/
def resume (c : Transport) (sdk : Sdk) (phase : Phase) (answer : Answer) :
    Option (Transport × Sdk × Phase) :=
  match phase with
  | .stopBegin _ | .stopAwaitId .. | .stopSettle .. | .stopFinish .. =>
    (stopStep c phase answer).map fun r => (r.1, sdk, r.2)
  | .stopUnpublish caller audio =>
    (unpublishStep c sdk audio answer).map fun r =>
      (c, r.1, .stopFinish caller audio.generation r.2)
  | .disconnectBegin | .disconnectState | .disconnectGeneration | .disconnectRooms
  | .disconnectReset => (disconnectStep c phase answer).map fun r => (r.1, sdk, r.2)
  | .callbackBegin _ | .callbackRegion _ | .callbackUnpublish _ => callbackStep c sdk phase answer
  | _ => startStep c sdk phase answer

structure State where
  transport : Transport
  sdk : Sdk := {}
  threads : ℕ → Phase := fun _ => .outside none

/-- The SDK reports a track that was given to it and has a session id. -/
def Op.entry (sdk : Sdk) : Op → Option Phase
  | .startMicrophone scope => some (.startChecks scope)
  | .stopMicrophone => some (.stopBegin .stopMicrophone)
  | .disconnect => some .disconnectBegin
  | .localAudioPublished track =>
    match sdk.published track, sdk.sessionId track with
    | some publishing, some sid =>
      some (.callbackBegin ⟨track, publishing.scope, publishing.roomGeneration, sid⟩)
    | _, _ => none

/-- Besides the threads the SDK steps: it assigns a session id that no other track has, and it may
lose its local participant. -/
inductive Action
  | call (t : ℕ) (op : Op)
  | resume (t : ℕ) (answer : Answer)
  | assign (track : LocalAudioTrack) (sid : Bytes)
  | loseParticipant

def step (s : State) : Action → Option State
  | .call t op =>
    match s.threads t with
    | .outside _ =>
      (op.entry s.sdk).map fun phase => { s with threads := Function.update s.threads t phase }
    | _ => none
  | .resume t answer =>
    (resume s.transport s.sdk (s.threads t) answer).map fun r =>
      ⟨r.1, r.2.1, Function.update s.threads t r.2.2⟩
  | .assign track sid =>
    if (s.sdk.published track).isSome ∧ s.sdk.sessionId track = none ∧ sid ≠ []
        ∧ s.sdk.sessionIds.all fun entry => entry.2 ≠ sid then
      some { s with sdk := { s.sdk with sessionIds := s.sdk.sessionIds ++ [(track, sid)] } }
    else none
  | .loseParticipant => some { s with sdk := { s.sdk with localParticipant := false } }

/-- A transport that is connected to the rooms of a generation. -/
def initial (publicationGeneration roomGeneration : ℕ) (granted : VoiceScope → Bool) : State where
  transport := {
    state := .connected
    activeRoomGeneration := roomGeneration
    rooms := fun scope => if granted scope then some roomGeneration else none
    publicationGeneration }

end VoxTree.LocalPublication

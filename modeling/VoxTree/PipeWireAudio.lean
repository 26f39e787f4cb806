import VoxTree.SampleQueue

/-!
# The microphone and the playout over PipeWire

`PipeWireMicrophoneSource` and `PipeWireRemotePlayout`, each with its thread and the thread of
PipeWire's loop at the two ends of a `SampleQueue`. What PipeWire puts into a buffer and what
LiveKit reads come with the step. The processing of captured frames, and the setup of the streams,
are left out.
-/

namespace VoxTree

/-- `livekit::AudioFrame`. -/
structure AudioFrame where
  samples : List Int16
  sampleRate : ℤ
  channelCount : ℤ

namespace PipeWire

open SampleQueue (Action)

/-- `spa_chunk`. -/
structure Chunk where
  offset : ℕ
  size : ℕ

/-- `spa_data`; what is mapped has `maxsize` bytes. -/
structure SpaData where
  data : Option (List UInt8)
  chunk : Option Chunk
  maxsize : ℕ

/-- The bytes as `std::int16_t` in little-endian order. -/
def samplesOf : List UInt8 → List Int16
  | low :: high :: rest => (low.toUInt16 ||| high.toUInt16 <<< 8).toInt16 :: samplesOf rest
  | _ => []

/-! ## The microphone -/

def samplesPerFrame : ℕ := 480

/-- A sample times `1.0F` is the sample. -/
def unityGain : Unit → Int16 → Int16 := fun _ sample => sample

/-- What `onProcess` pushes. -/
def capturedSamples (buffer : SpaData) : Option (List Int16) :=
  match buffer.data, buffer.chunk with
  | some data, some chunk =>
    let offset := min chunk.offset buffer.maxsize
    let available := buffer.maxsize - offset
    let byteCount := min chunk.size available
    some (samplesOf ((data.drop offset).take byteCount))
  | _, _ => none

/-- Where the thread of `capture` stands. -/
inductive CaptureThread
  | looping | sizing | filled | popping | finished
  deriving DecidableEq

structure MicrophoneSource where
  sampleQueue : SampleQueue.State Unit := {}
  captureThread : CaptureThread := .looping
  stopRequested : Bool := false
  -- the frames that LiveKit has been handed
  frames : List (List Int16) := []

inductive MicrophoneAction
  | process (buffer : SpaData)
  | requestStop
  | loop
  | queue (action : Action Unit)

namespace MicrophoneSource

variable (s : MicrophoneSource)

/-- A step within `push`, `size` or `pop`. -/
def within (action : Action Unit) : Option MicrophoneSource :=
  (SampleQueue.step unityGain s.sampleQueue action).map fun sampleQueue => { s with sampleQueue }

/-- `capture` from the return of `size`. -/
def sized : MicrophoneSource :=
  { s with
    captureThread :=
      if (s.sampleQueue.sizes.getLast?.getD 0).toNat < samplesPerFrame then .looping else .filled }

/-- `capture` from the return of `pop`. -/
def popped : MicrophoneSource :=
  let frameSamples := s.sampleQueue.pops.getLast?.getD []
  if frameSamples.length ≠ samplesPerFrame then { s with captureThread := .looping }
  else { s with captureThread := .looping, frames := s.frames ++ [frameSamples] }

def step : MicrophoneAction → Option MicrophoneSource
  | .process buffer =>
    match capturedSamples buffer with
    | some samples => s.within (.push samples ())
    | none => some s
  | .requestStop => some { s with stopRequested := true }
  | .loop =>
    match s.captureThread with
    | .looping =>
      if s.stopRequested then some { s with captureThread := .finished }
      else { s with captureThread := .sizing }.within .size
    | .filled => { s with captureThread := .popping }.within (.pop samplesPerFrame)
    | _ => none
  | .queue action =>
    match action with
    | .pushLoad | .pushWrite | .pushStore | .popLoad | .popRead => s.within action
    | .sizeLoad => (s.within action).map sized
    | .popStore => (s.within action).map popped
    | .push .. | .pop _ | .size => none

end MicrophoneSource

/-! ## The playout -/

/-- A call of `onProcess` that has filled a buffer, when its read of `write_position_` found `found`
samples. -/
structure Play where
  capacity : ℕ
  found : ℕ
  copied : List Int16

/-- The samples of the buffer. -/
def Play.samples (p : Play) : List Int16 :=
  p.copied ++ List.replicate (p.capacity - p.copied.length) 0

structure RemotePlayout (γ : Type*) where
  sampleQueue : SampleQueue.State γ := {}
  gain : γ
  /-- The sample rate and the channels of the stream, if there is one. -/
  format : Option (ℤ × ℤ) := none
  closed : Bool := false
  /-- The local variables of `onProcess`. -/
  capacity : ℕ := 0
  found : ℕ := 0
  -- the frames that have been pushed, and the buffers that PipeWire has been handed
  frames : List AudioFrame := []
  plays : List Play := []

/-- LiveKit's reader is closed by the destructor and where `read` fails. -/
inductive PlayoutAction (γ : Type*)
  | read (frame : AudioFrame) (initialized : Bool)
  | setGain (gain : γ)
  | close
  | process (buffer : SpaData)
  | queue (action : Action γ)

namespace RemotePlayout

variable {γ : Type*} (scaled : γ → Int16 → Int16) (s : RemotePlayout γ)

def within (action : Action γ) : Option (RemotePlayout γ) :=
  (SampleQueue.step scaled s.sampleQueue action).map fun sampleQueue => { s with sampleQueue }

/-- The stream's format after `initializeStream`, where that succeeds. -/
def formatFor (frame : AudioFrame) (initialized : Bool) : Option (ℤ × ℤ) :=
  match s.format with
  | some format => some format
  | none => if initialized then some (frame.sampleRate, frame.channelCount) else none

/-- One turn of the loop of `read`. -/
def read (frame : AudioFrame) (initialized : Bool) : Option (RemotePlayout γ) :=
  if frame.samples = [] ∨ frame.sampleRate ≤ 0 ∨ frame.channelCount ≤ 0 then some s
  else
    let format := s.formatFor frame initialized
    if format = some (frame.sampleRate, frame.channelCount) then
      { s with format, frames := s.frames ++ [frame] }.within scaled (.push frame.samples s.gain)
    else some { s with format, closed := true }

/-- `onProcess` from the return of `pop`. -/
def filled : RemotePlayout γ :=
  { s with
    plays := s.plays ++ [⟨s.capacity, s.found, s.sampleQueue.pops.getLast?.getD []⟩] }

def step : PlayoutAction γ → Option (RemotePlayout γ)
  | .read frame initialized =>
    match s.sampleQueue.producer with
    | .idle => if s.closed then none else s.read scaled frame initialized
    | _ => none
  | .setGain gain => some { s with gain }
  | .close => some { s with closed := true }
  | .process buffer =>
    match s.format, buffer.data with
    | some _, some _ =>
      { s with capacity := buffer.maxsize / 2 }.within scaled (.pop (buffer.maxsize / 2))
    | some _, none => some s
    | none, _ => none
  | .queue action =>
    match action with
    | .pushLoad | .pushWrite | .pushStore | .popRead => s.within scaled action
    | .popLoad => { s with found := s.sampleQueue.occupancy }.within scaled action
    | .popStore => (s.within scaled action).map filled
    | .push .. | .pop _ | .size | .sizeLoad => none

end RemotePlayout

end PipeWire

end VoxTree

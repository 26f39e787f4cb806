import VoxTree.Lib.Lending
import VoxTree.PipeWireAudio

/-!
# The playout over XAudio2

`XAudio2RemotePlayout`: its thread, the thread of its owner and that of the audio engine, which
reads the buffers it is lent and says when it has done with one. One step is one region under a
mutex, or what a thread does outside of them. Whether the SDK, the engine or an allocation fails,
and where an allocation puts a buffer, comes with the step.
-/

namespace VoxTree

namespace XAudio2

open Lending (Heap)

def maximumQueuedAudioFrames : ℕ := 12

/-- `IXAudio2SourceVoice`. The buffers in `ended` have been played or flushed, and their
`OnBufferEnd` is still to come; `refused` says that the last `SetVolume` has failed. -/
structure SourceVoice (γ : Type*) where
  queue : List ℕ := []
  ended : List ℕ := []
  volume : γ
  refused : Bool := false

/-- `SetVolume`; where it fails, the voice keeps the volume that it has. -/
def SourceVoice.setVolume {γ : Type*} (voice : SourceVoice γ) (volume : γ) (applied : Bool) :
    SourceVoice γ :=
  if applied then { voice with volume, refused := false } else { voice with refused := true }

/-- Where the thread of `run` stands; from `creating` on it is still in `ensureVoice`, and has the
mutex of the voice. -/
inductive Reader (γ : Type*)
  | looping
  | reading
  | ensuring (frame : AudioFrame)
  | creating (frame : AudioFrame) (volume : γ)
  | waiting (frame : AudioFrame)
  | ready (frame : AudioFrame)
  | copied (samplesPointer : ℕ)
  | inserted (samplesPointer : ℕ)
  | finished

/-- Where the owner stands, between `setGain` and the destructor. -/
inductive Owner (γ : Type*)
  | idle
  | setting (gain : γ)
  | closing | flushed | destroyed | released

structure RemotePlayout (γ : Type*) where
  heap : Heap (List Int16) := {}
  gain : γ
  reader : Reader γ := .looping
  owner : Owner γ := .idle
  stopRequested : Bool := false
  voice : Option (SourceVoice γ) := none
  sampleRate : ℤ := 0
  channels : ℤ := 0
  pendingBuffers : Finset ℕ := ∅
  -- the frames that the voice has been handed, and those it has played
  submitted : List (List Int16) := []
  played : List (List Int16) := []

inductive Action (γ : Type*)
  | loop
  | read (frame : Option AudioFrame)
  | ensureVoice (created : Bool)
  | startVoice (started : Bool)
  | waitForQueue
  | copy (address : Option ℕ)
  | insert (inserted : Bool)
  | submit (accepted : Bool)
  | bufferEnd
  | onBufferEnd
  | storeGain (gain : γ)
  | applyGain (applied : Bool)
  | close
  | flush (flushed : Bool)
  | destroyVoice
  | releasePendingBuffers

namespace RemotePlayout

variable {γ : Type*} (s : RemotePlayout γ)

def releaseBuffer (buffer : ℕ) : RemotePlayout γ :=
  if buffer ∈ s.pendingBuffers then
    { s with
      pendingBuffers := s.pendingBuffers.erase buffer
      heap := s.heap.free buffer }
  else s

/-! ## The thread of `run` -/

/-- The head of the loop. -/
def loop : RemotePlayout γ :=
  if s.stopRequested then { s with reader := .finished } else { s with reader := .reading }

/-- After the end of the stream, or an error, the thread is finished. -/
def read (frame : Option AudioFrame) : RemotePlayout γ :=
  match frame with
  | none => { s with reader := .finished }
  | some frame =>
    if frame.samples = [] ∨ frame.sampleRate ≤ 0 ∨ frame.channelCount ≤ 0 then
      { s with reader := .looping }
    else { s with reader := .ensuring frame }

/-- `ensureVoice` up to the volume of a new voice, which is the gain. -/
def ensureVoice (frame : AudioFrame) (created : Bool) (unset : γ) : RemotePlayout γ :=
  match s.voice with
  | some _ =>
    if s.sampleRate = frame.sampleRate ∧ s.channels = frame.channelCount then
      { s with reader := .waiting frame }
    else { s with reader := .looping }
  | none =>
    if created then
      { s with
        voice := some { volume := unset }
        sampleRate := frame.sampleRate
        channels := frame.channelCount
        reader := .creating frame s.gain }
    else { s with reader := .looping }

/-- `ensureVoice` from the volume of a new voice on. -/
def startVoice (frame : AudioFrame) (volume : γ) (started : Bool) : RemotePlayout γ :=
  if started then
    { s with
      voice := s.voice.map fun voice => voice.setVolume volume true
      reader := .waiting frame }
  else { s with voice := none, reader := .looping }

def waitForQueue (frame : AudioFrame) : Option (RemotePlayout γ) :=
  if s.stopRequested then some { s with reader := .finished }
  else if s.voice.all fun voice => voice.queue.length < maximumQueuedAudioFrames then
    some { s with reader := .ready frame }
  else none

/-- `make_unique`, at an address that nothing has. -/
def copy (frame : AudioFrame) : Option ℕ → Option (RemotePlayout γ)
  | none => some { s with reader := .finished }
  | some address =>
    if s.heap.content address = none then
      some { s with
        heap := s.heap.alloc address frame.samples
        reader := .copied address }
    else none

/-- The insertion into `pending_buffers_`; where it throws, `samples` frees its buffer. -/
def insert (samplesPointer : ℕ) (inserted : Bool) : RemotePlayout γ :=
  if inserted then
    { s with
      pendingBuffers := Insert.insert samplesPointer s.pendingBuffers
      reader := .inserted samplesPointer }
  else { s with heap := s.heap.free samplesPointer, reader := .finished }

/-- The submission to the voice, which keeps the pointer to the samples. -/
def submit (samplesPointer : ℕ) (accepted : Bool) : RemotePlayout γ :=
  match s.voice with
  | some voice =>
    if accepted then
      { s with
        heap := s.heap.touch samplesPointer
        voice := some { voice with queue := voice.queue ++ [samplesPointer] }
        reader := .looping
        submitted := s.submitted ++ (s.heap.content samplesPointer).toList }
    else { s.releaseBuffer samplesPointer with reader := .finished }
  | none => { s.releaseBuffer samplesPointer with reader := .finished }

/-! ## The audio engine -/

/-- The engine has played a buffer to its end. -/
def bufferEnd (voice : SourceVoice γ) : Option (RemotePlayout γ) :=
  match voice.queue with
  | [] => none
  | samplesPointer :: queue =>
    some { s with
      heap := s.heap.touch samplesPointer
      voice := some { voice with queue, ended := voice.ended ++ [samplesPointer] }
      played := s.played ++ (s.heap.content samplesPointer).toList }

def onBufferEnd (voice : SourceVoice γ) : Option (RemotePlayout γ) :=
  match voice.ended with
  | [] => none
  | context :: ended =>
    some ({ s with voice := some { voice with ended } }.releaseBuffer context)

/-! ## The owner -/

/-- The second half of `setGain`, which does not look at what `SetVolume` returns. -/
def applyGain (gain : γ) (applied : Bool) : RemotePlayout γ :=
  { s with
    voice := s.voice.map fun voice => voice.setVolume gain applied
    owner := .idle }

/-- The destructor, up to the join. -/
def close : RemotePlayout γ :=
  { s with stopRequested := true, owner := .closing }

/-- `FlushSourceBuffers`; the callbacks of what is flushed may come later or not at all. Where it
fails, the engine goes on with the queue. -/
def flush (flushed : Bool) : RemotePlayout γ :=
  if flushed then
    { s with
      voice := s.voice.map fun voice =>
        { voice with queue := [], ended := voice.ended ++ voice.queue }
      owner := .flushed }
  else { s with owner := .flushed }

def releasePendingBuffers : RemotePlayout γ :=
  { s with
    heap := s.heap.freeAll s.pendingBuffers
    pendingBuffers := ∅
    owner := .released }

end RemotePlayout

/-! ## Steps -/

section Step

variable {γ : Type*} (unset : γ)

/-- `unset` is the volume of a new voice before it is set. -/
def step (s : RemotePlayout γ) : Action γ → Option (RemotePlayout γ)
  | .loop =>
    match s.reader with
    | .looping => some s.loop
    | _ => none
  | .read frame =>
    match s.reader with
    | .reading => some (s.read frame)
    | _ => none
  | .ensureVoice created =>
    match s.reader with
    | .ensuring frame => some (s.ensureVoice frame created unset)
    | _ => none
  | .startVoice started =>
    match s.reader with
    | .creating frame volume => some (s.startVoice frame volume started)
    | _ => none
  | .waitForQueue =>
    match s.reader with
    | .waiting frame => s.waitForQueue frame
    | _ => none
  | .copy address =>
    match s.reader with
    | .ready frame => s.copy frame address
    | _ => none
  | .insert inserted =>
    match s.reader with
    | .copied samplesPointer => some (s.insert samplesPointer inserted)
    | _ => none
  | .submit accepted =>
    match s.reader with
    | .inserted samplesPointer => some (s.submit samplesPointer accepted)
    | _ => none
  | .bufferEnd => s.voice.bind s.bufferEnd
  | .onBufferEnd => s.voice.bind s.onBufferEnd
  | .storeGain gain =>
    match s.owner with
    | .idle => some { s with gain, owner := .setting gain }
    | _ => none
  | .applyGain applied =>
    match s.owner, s.reader with
    | .setting _, .creating .. => none
    | .setting gain, _ => some (s.applyGain gain applied)
    | _, _ => none
  | .close =>
    match s.owner with
    | .idle => some s.close
    | _ => none
  | .flush flushed =>
    match s.owner, s.reader with
    | .closing, .finished => some (s.flush flushed)
    | _, _ => none
  | .destroyVoice =>
    match s.owner with
    | .flushed => some { s with voice := none, owner := .destroyed }
    | _ => none
  | .releasePendingBuffers =>
    match s.owner with
    | .destroyed => some s.releasePendingBuffers
    | _ => none

end Step

end XAudio2

end VoxTree

import VoxTree.PipeWireAudio
import VoxTree.Proofs.SampleQueue

/-!
# No sample is lost at the ends of a sample queue

The thread of `capture` pops only when it has seen enough samples, and nobody else pops, so that it
never throws away a frame that came out short (`capture_lossless`). The playout plays what has been
pushed, and silence only where there is nothing else to play (`playout_gapless`).
-/

namespace VoxTree

namespace SampleQueue

/-! ## The two threads of a queue -/

section Threads

variable {γ : Type*} {scaled : γ → Int16 → Int16} {s s' : State γ}

/-- A step of the producer leaves the consumer alone, and does not take samples out. -/
structure Produces (s s' : State γ) : Prop where
  consumer : s'.consumer = s.consumer
  pops : s'.pops = s.pops
  sizes : s'.sizes = s.sizes
  occupancy : s.occupancy ≤ s'.occupancy

theorem produces_push {samples : List Int16} {gain : γ}
    (h : step scaled s (.push samples gain) = some s') : Produces s s' := by
  simp only [step] at h
  split at h
  · cases h
    exact ⟨rfl, rfl, rfl, le_rfl⟩
  · cases h

theorem produces_pushLoad (h : step scaled s .pushLoad = some s') : Produces s s' := by
  simp only [step] at h
  split at h
  · cases h
    exact ⟨rfl, rfl, rfl, le_rfl⟩
  · cases h

theorem produces_pushWrite (h : step scaled s .pushWrite = some s') : Produces s s' := by
  simp only [step] at h
  split at h
  · split_ifs at h
    obtain ⟨sample, -, rfl⟩ := Option.map_eq_some_iff.1 h
    exact ⟨rfl, rfl, rfl, le_rfl⟩
  · cases h

theorem produces_pushStore (h : step scaled s .pushStore = some s') : Produces s s' := by
  simp only [step] at h
  split at h
  · split_ifs at h
    cases h
    refine ⟨rfl, rfl, rfl, ?_⟩
    simp only [State.occupancy, List.map_append, List.sum_append]
    omega
  · cases h

theorem step_size : step scaled s .size = some s' ↔
    s.consumer = .idle ∧ s' = { s with consumer := .sizing s.readPosition } := by
  unfold step
  cases s.consumer <;> simp [eq_comm]

theorem step_sizeLoad : step scaled s .sizeLoad = some s' ↔ ∃ position,
    s.consumer = .sizing position ∧ s' = { s with
      consumer := .idle
      sizes := s.sizes ++ [s.writePosition - position] } := by
  unfold step
  cases s.consumer <;> simp [eq_comm]

theorem step_pop {destinationSize : ℕ} : step scaled s (.pop destinationSize) = some s' ↔
    s.consumer = .idle
      ∧ s' = { s with consumer := .loadedRead destinationSize s.readPosition } := by
  unfold step
  cases s.consumer <;> simp [eq_comm]

theorem step_popLoad : step scaled s .popLoad = some s' ↔ ∃ destinationSize position,
    s.consumer = .loadedRead destinationSize position ∧ s' = { s with
      consumer := .reading [] (min destinationSize (s.writePosition - position).toNat)
        position } := by
  unfold step
  cases s.consumer <;> simp [eq_comm]

theorem step_popRead : step scaled s .popRead = some s' ↔ ∃ destination count position,
    s.consumer = .reading destination count position ∧ destination.length < count
      ∧ s' = { s with
        consumer := .reading
          (destination ++ [s.samples (position % sampleQueueCapacity).toNat]) count
          (position + 1) } := by
  unfold step
  cases s.consumer <;> simp [eq_comm]

theorem step_popStore : step scaled s .popStore = some s' ↔ ∃ destination count position,
    s.consumer = .reading destination count position ∧ ¬destination.length < count
      ∧ s' = { s with
        readPosition := position
        consumer := .idle
        pops := s.pops ++ [destination] } := by
  unfold step
  cases s.consumer <;> simp [eq_comm]

/-- What the consumer computes of the queue, whose own position nobody else changes. -/
theorem Inv.toNat_loaded (h : Inv scaled s) {position : UInt64}
    (hown : position = .ofNat s.pops.flatten.length) :
    (s.writePosition - position).toNat = s.occupancy := by
  rw [hown, ← h.readPosition]
  exact h.toNat_sub

end Threads

end SampleQueue

namespace PipeWire

open Machine SampleQueue

/-! ## The microphone -/

namespace MicrophoneSource

variable {s s' : MicrophoneSource}

/-- Where the thread of `capture` stands in the queue. A frame's worth of samples that it has seen
stays there until it pops. -/
def ThreadOk (queue : SampleQueue.State Unit) : CaptureThread → Prop
  | .looping | .finished => queue.consumer = .idle
  | .sizing => ∃ position, queue.consumer = .sizing position
  | .filled => queue.consumer = .idle ∧ samplesPerFrame ≤ queue.occupancy
  | .popping =>
    (∃ position, queue.consumer = .loadedRead samplesPerFrame position)
        ∧ samplesPerFrame ≤ queue.occupancy
      ∨ ∃ destination position, queue.consumer = .reading destination samplesPerFrame position

theorem ThreadOk.produces {queue queue' : SampleQueue.State Unit} (h : Produces queue queue') :
    ∀ {thread : CaptureThread}, ThreadOk queue thread → ThreadOk queue' thread
  | .looping, hok | .finished, hok | .sizing, hok => by
    simpa only [ThreadOk, h.consumer] using hok
  | .filled, ⟨hidle, hfilled⟩ => ⟨h.consumer.trans hidle, hfilled.trans h.occupancy⟩
  | .popping, .inl ⟨⟨position, hloaded⟩, hfilled⟩ =>
    .inl ⟨⟨position, h.consumer.trans hloaded⟩, hfilled.trans h.occupancy⟩
  | .popping, .inr ⟨destination, position, hreading⟩ =>
    .inr ⟨destination, position, h.consumer.trans hreading⟩

structure Inv (s : MicrophoneSource) : Prop where
  queue : SampleQueue.Inv unityGain s.sampleQueue
  /-- Everything that was popped is a frame. -/
  frames : s.sampleQueue.pops = s.frames
  size : ∀ frame ∈ s.frames, frame.length = samplesPerFrame
  thread : ThreadOk s.sampleQueue s.captureThread

theorem inv_initial : Inv ({} : MicrophoneSource) where
  queue := SampleQueue.inv_initial
  frames := rfl
  size := by simp
  thread := rfl

theorem within_eq_some {action : Action Unit} : s.within action = some s' ↔
    ∃ sampleQueue, SampleQueue.step unityGain s.sampleQueue action = some sampleQueue
      ∧ s' = { s with sampleQueue } := by
  unfold within
  rw [Option.map_eq_some_iff]
  simp only [eq_comm]

theorem Inv.produces (h : Inv s) {queue : SampleQueue.State Unit} {action : Action Unit}
    (hstep : SampleQueue.step unityGain s.sampleQueue action = some queue)
    (hproduces : Produces s.sampleQueue queue) : Inv { s with sampleQueue := queue } where
  queue := inv_step h.queue hstep
  frames := hproduces.pops.trans h.frames
  size := h.size
  thread := h.thread.produces hproduces

theorem Inv.loop (h : Inv s) (hstep : s.step .loop = some s') : Inv s' := by
  have hthread := h.thread
  simp only [step] at hstep
  split at hstep
  · rename_i hlooping
    rw [hlooping] at hthread
    split_ifs at hstep
    · cases hstep
      exact ⟨h.queue, h.frames, h.size, hthread⟩
    · obtain ⟨queue, hqueue, rfl⟩ := within_eq_some.1 hstep
      obtain ⟨-, rfl⟩ := step_size.1 hqueue
      exact ⟨inv_step h.queue hqueue, h.frames, h.size, ⟨_, rfl⟩⟩
  · rename_i hfilled
    rw [hfilled] at hthread
    obtain ⟨queue, hqueue, rfl⟩ := within_eq_some.1 hstep
    obtain ⟨-, rfl⟩ := step_pop.1 hqueue
    exact ⟨inv_step h.queue hqueue, h.frames, h.size, .inl ⟨⟨_, rfl⟩, hthread.2⟩⟩
  · cases hstep

theorem Inv.sizeLoad (h : Inv s) (hstep : s.step (.queue .sizeLoad) = some s') : Inv s' := by
  obtain ⟨_, hwithin, rfl⟩ := Option.map_eq_some_iff.1 hstep
  obtain ⟨queue, hqueue, rfl⟩ := within_eq_some.1 hwithin
  obtain ⟨position, hconsumer, rfl⟩ := step_sizeLoad.1 hqueue
  have hown := h.queue.consumer
  rw [hconsumer] at hown
  have hoccupancy := h.queue.toNat_loaded hown
  refine ⟨inv_step h.queue hqueue, h.frames, h.size, ?_⟩
  simp only [sized, List.getLast?_append, List.getLast?_singleton, Option.some_or,
    Option.getD_some, hoccupancy]
  split_ifs with hshort
  · rfl
  · exact ⟨rfl, not_lt.1 hshort⟩

theorem Inv.popLoad (h : Inv s) (hstep : s.step (.queue .popLoad) = some s') : Inv s' := by
  obtain ⟨queue, hqueue, rfl⟩ := within_eq_some.1 hstep
  obtain ⟨destinationSize, position, hconsumer, rfl⟩ := step_popLoad.1 hqueue
  have hown := h.queue.consumer
  rw [hconsumer] at hown
  have hoccupancy := h.queue.toNat_loaded hown
  refine ⟨inv_step h.queue hqueue, h.frames, h.size, ?_⟩
  have hthread := h.thread
  rcases hphase : s.captureThread <;> rw [hphase] at hthread <;>
    simp only [ThreadOk, hconsumer, reduceCtorEq, false_and, exists_false, or_false] at hthread
  obtain ⟨⟨_, hloaded⟩, hfilled⟩ := hthread
  obtain ⟨rfl, rfl⟩ := Consumer.loadedRead.inj hloaded
  exact .inr ⟨[], _, by rw [hoccupancy, min_eq_left hfilled]⟩

theorem Inv.popRead (h : Inv s) (hstep : s.step (.queue .popRead) = some s') : Inv s' := by
  obtain ⟨queue, hqueue, rfl⟩ := within_eq_some.1 hstep
  obtain ⟨destination, count, position, hconsumer, -, rfl⟩ := step_popRead.1 hqueue
  refine ⟨inv_step h.queue hqueue, h.frames, h.size, ?_⟩
  have hthread := h.thread
  rcases hphase : s.captureThread <;> rw [hphase] at hthread <;>
    simp only [ThreadOk, hconsumer, reduceCtorEq, false_and, exists_false, false_or] at hthread
  obtain ⟨_, _, hreading⟩ := hthread
  obtain ⟨rfl, rfl, rfl⟩ := Consumer.reading.inj hreading
  exact .inr ⟨_, _, rfl⟩

theorem popped_of_length {frame : List Int16}
    (hlast : s.sampleQueue.pops.getLast? = some frame) (hlength : frame.length = samplesPerFrame) :
    s.popped = { s with captureThread := .looping, frames := s.frames ++ [frame] } := by
  simp [popped, hlast, hlength]

theorem Inv.popStore (h : Inv s) (hstep : s.step (.queue .popStore) = some s') : Inv s' := by
  obtain ⟨_, hwithin, rfl⟩ := Option.map_eq_some_iff.1 hstep
  obtain ⟨queue, hqueue, rfl⟩ := within_eq_some.1 hwithin
  obtain ⟨destination, count, position, hconsumer, hfilled, rfl⟩ := step_popStore.1 hqueue
  have hok := h.queue.consumer
  rw [hconsumer] at hok
  obtain ⟨-, hle, -⟩ := hok
  have hthread := h.thread
  rcases hphase : s.captureThread <;> rw [hphase] at hthread <;>
    simp only [ThreadOk, hconsumer, reduceCtorEq, false_and, exists_false, false_or] at hthread
  obtain ⟨_, _, hreading⟩ := hthread
  obtain ⟨rfl, rfl, rfl⟩ := Consumer.reading.inj hreading
  have hlength : destination.length = samplesPerFrame := by omega
  rw [popped_of_length (by simp) hlength]
  refine ⟨inv_step h.queue hqueue, congrArg (· ++ [destination]) h.frames, fun frame hframe => ?_,
    rfl⟩
  rcases List.mem_append.1 hframe with hframe | hframe
  · exact h.size frame hframe
  · exact List.mem_singleton.1 hframe ▸ hlength

theorem Inv.step (h : Inv s) {action : MicrophoneAction} (hstep : s.step action = some s') :
    Inv s' := by
  cases action with
  | process buffer =>
    simp only [MicrophoneSource.step] at hstep
    split at hstep
    · obtain ⟨queue, hqueue, rfl⟩ := within_eq_some.1 hstep
      exact h.produces hqueue (produces_push hqueue)
    · cases hstep
      exact h
  | requestStop =>
    cases hstep
    exact ⟨h.queue, h.frames, h.size, h.thread⟩
  | loop => exact h.loop hstep
  | queue action =>
    cases action with
    | pushLoad =>
      obtain ⟨queue, hqueue, rfl⟩ := within_eq_some.1 hstep
      exact h.produces hqueue (produces_pushLoad hqueue)
    | pushWrite =>
      obtain ⟨queue, hqueue, rfl⟩ := within_eq_some.1 hstep
      exact h.produces hqueue (produces_pushWrite hqueue)
    | pushStore =>
      obtain ⟨queue, hqueue, rfl⟩ := within_eq_some.1 hstep
      exact h.produces hqueue (produces_pushStore hqueue)
    | sizeLoad => exact h.sizeLoad hstep
    | popLoad => exact h.popLoad hstep
    | popRead => exact h.popRead hstep
    | popStore => exact h.popStore hstep
    | push samples gain => cases hstep
    | pop destinationSize => cases hstep
    | size => cases hstep

section Samples

end Samples

end MicrophoneSource

/-! ## The playout -/

namespace RemotePlayout

variable {γ : Type*} {scaled : γ → Int16 → Int16} {s s' : RemotePlayout γ}

/-- What the running `pop` was called for and has found. -/
def CallbackOk (capacity found : ℕ) : Consumer → Prop
  | .loadedRead destinationSize _ => destinationSize = capacity
  | .reading _ count _ => count = min capacity found
  | _ => True

/-- The frame that is being pushed. -/
def pushing : SampleQueue.Producer γ → List (List Int16)
  | .idle => []
  | .loadedWrite samples .. | .writing samples .. => [samples]

structure Inv (scaled : γ → Int16 → Int16) (s : RemotePlayout γ) : Prop where
  queue : SampleQueue.Inv scaled s.sampleQueue
  plays : s.sampleQueue.pops = s.plays.map Play.copied
  filled : ∀ play ∈ s.plays, play.copied.length = min play.capacity play.found
  callback : CallbackOk s.capacity s.found s.sampleQueue.consumer
  format : ∀ frame ∈ s.frames, s.format = some (frame.sampleRate, frame.channelCount)
  frames : s.frames.map AudioFrame.samples
    = s.sampleQueue.pushes.map Push.samples ++ pushing s.sampleQueue.producer

theorem inv_initial (gain : γ) : Inv scaled { gain } where
  queue := SampleQueue.inv_initial
  plays := rfl
  filled := by simp
  callback := trivial
  format := by simp
  frames := rfl

theorem within_eq_some {action : Action γ} : s.within scaled action = some s' ↔
    ∃ sampleQueue, SampleQueue.step scaled s.sampleQueue action = some sampleQueue
      ∧ s' = { s with sampleQueue } := by
  unfold within
  rw [Option.map_eq_some_iff]
  simp only [eq_comm]

theorem Inv.produces (h : Inv scaled s) {queue : SampleQueue.State γ} {action : Action γ}
    (hstep : SampleQueue.step scaled s.sampleQueue action = some queue)
    (hproduces : Produces s.sampleQueue queue)
    (hframes : queue.pushes.map Push.samples ++ pushing queue.producer
      = s.sampleQueue.pushes.map Push.samples ++ pushing s.sampleQueue.producer) :
    Inv scaled { s with sampleQueue := queue } where
  queue := inv_step h.queue hstep
  plays := hproduces.pops.trans h.plays
  filled := h.filled
  callback := by
    show CallbackOk s.capacity s.found queue.consumer
    rw [hproduces.consumer]
    exact h.callback
  format := h.format
  frames := h.frames.trans hframes.symm

section Frames

variable {queue queue' : SampleQueue.State γ}

/-- The samples of all pushes, the running one included. -/
def pushed (queue : SampleQueue.State γ) : List (List Int16) :=
  queue.pushes.map Push.samples ++ pushing queue.producer

theorem pushed_pushLoad (h : SampleQueue.step scaled queue .pushLoad = some queue') :
    pushed queue' = pushed queue := by
  simp only [SampleQueue.step] at h
  split at h
  · rename_i hproducer
    cases h
    simp [pushed, hproducer, pushing]
  · cases h

theorem pushed_pushWrite (h : SampleQueue.step scaled queue .pushWrite = some queue') :
    pushed queue' = pushed queue := by
  simp only [SampleQueue.step] at h
  split at h
  · rename_i hproducer
    split_ifs at h
    obtain ⟨sample, -, rfl⟩ := Option.map_eq_some_iff.1 h
    simp [pushed, hproducer, pushing]
  · cases h

theorem pushed_pushStore (h : SampleQueue.step scaled queue .pushStore = some queue') :
    pushed queue' = pushed queue := by
  simp only [SampleQueue.step] at h
  split at h
  · rename_i hproducer
    split_ifs at h
    cases h
    simp [pushed, hproducer, pushing]
  · cases h

end Frames

theorem Inv.read (h : Inv scaled s) (hidle : s.sampleQueue.producer = .idle) {frame : AudioFrame}
    {initialized : Bool} (hstep : s.read scaled frame initialized = some s') : Inv scaled s' := by
  have hformat : ∀ old ∈ s.frames,
      s.formatFor frame initialized = some (old.sampleRate, old.channelCount) := by
    intro old hold
    simp only [formatFor, h.format old hold]
  simp only [RemotePlayout.read] at hstep
  split_ifs at hstep with hempty hmatches
  · cases hstep
    exact h
  · obtain ⟨queue, hqueue, rfl⟩ := within_eq_some.1 hstep
    have hproduces := produces_push hqueue
    simp only [SampleQueue.step, hidle, Option.some.injEq] at hqueue
    refine ⟨?_, hproduces.pops.trans h.plays, h.filled, ?_, fun old hold => ?_, ?_⟩
    · exact hqueue ▸ h.queue.push hidle
    · show CallbackOk s.capacity s.found queue.consumer
      rw [hproduces.consumer]
      exact h.callback
    · rcases List.mem_append.1 hold with hold | hold
      · exact hformat old hold
      · obtain rfl := List.mem_singleton.1 hold
        exact hmatches
    · have hframes := h.frames
      rw [hidle, pushing, List.append_nil] at hframes
      simp [← hqueue, pushing, hframes]
  · cases hstep
    exact ⟨h.queue, h.plays, h.filled, h.callback, hformat, h.frames⟩

theorem Inv.process (h : Inv scaled s) {buffer : SpaData}
    (hstep : s.step scaled (.process buffer) = some s') : Inv scaled s' := by
  simp only [step] at hstep
  split at hstep
  · obtain ⟨queue, hqueue, rfl⟩ := within_eq_some.1 hstep
    obtain ⟨-, rfl⟩ := step_pop.1 hqueue
    exact ⟨inv_step h.queue hqueue, h.plays, h.filled, rfl, h.format, h.frames⟩
  · cases hstep
    exact h
  · cases hstep

theorem Inv.popLoad (h : Inv scaled s) (hstep : s.step scaled (.queue .popLoad) = some s') :
    Inv scaled s' := by
  obtain ⟨queue, hqueue, rfl⟩ := within_eq_some.1 hstep
  obtain ⟨destinationSize, position, hconsumer, rfl⟩ := step_popLoad.1 hqueue
  have hcallback := h.callback
  have hown := h.queue.consumer
  rw [hconsumer] at hcallback hown
  refine ⟨inv_step h.queue hqueue, h.plays, h.filled, ?_, h.format, h.frames⟩
  show min destinationSize _ = min s.capacity s.sampleQueue.occupancy
  rw [h.queue.toNat_loaded hown, hcallback]

theorem Inv.popRead (h : Inv scaled s) (hstep : s.step scaled (.queue .popRead) = some s') :
    Inv scaled s' := by
  obtain ⟨queue, hqueue, rfl⟩ := within_eq_some.1 hstep
  obtain ⟨destination, count, position, hconsumer, -, rfl⟩ := step_popRead.1 hqueue
  have hcallback := h.callback
  rw [hconsumer] at hcallback
  exact ⟨inv_step h.queue hqueue, h.plays, h.filled, hcallback, h.format, h.frames⟩

theorem Inv.popStore (h : Inv scaled s) (hstep : s.step scaled (.queue .popStore) = some s') :
    Inv scaled s' := by
  obtain ⟨_, hwithin, rfl⟩ := Option.map_eq_some_iff.1 hstep
  obtain ⟨queue, hqueue, rfl⟩ := within_eq_some.1 hwithin
  obtain ⟨destination, count, position, hconsumer, hfull, rfl⟩ := step_popStore.1 hqueue
  have hcallback := h.callback
  have hok := h.queue.consumer
  rw [hconsumer] at hcallback hok
  obtain ⟨-, hle, -⟩ := hok
  have hlength : destination.length = count := by omega
  refine ⟨inv_step h.queue hqueue, ?_, fun play hplay => ?_, trivial, h.format, h.frames⟩
  · simp [RemotePlayout.filled, h.plays]
  · rcases List.mem_append.1 hplay with hplay | hplay
    · exact h.filled play hplay
    · obtain rfl := List.mem_singleton.1 hplay
      have hcount : count = min s.capacity s.found := hcallback
      simpa [hlength] using hcount

theorem Inv.step (h : Inv scaled s) {action : PlayoutAction γ}
    (hstep : s.step scaled action = some s') : Inv scaled s' := by
  cases action with
  | read frame initialized =>
    simp only [RemotePlayout.step] at hstep
    split at hstep
    · split_ifs at hstep
      exact h.read ‹_› hstep
    · cases hstep
  | setGain gain =>
    cases hstep
    exact ⟨h.queue, h.plays, h.filled, h.callback, h.format, h.frames⟩
  | close =>
    cases hstep
    exact ⟨h.queue, h.plays, h.filled, h.callback, h.format, h.frames⟩
  | process buffer => exact h.process hstep
  | queue action =>
    cases action with
    | pushLoad =>
      obtain ⟨queue, hqueue, rfl⟩ := within_eq_some.1 hstep
      exact h.produces hqueue (produces_pushLoad hqueue) (pushed_pushLoad hqueue)
    | pushWrite =>
      obtain ⟨queue, hqueue, rfl⟩ := within_eq_some.1 hstep
      exact h.produces hqueue (produces_pushWrite hqueue) (pushed_pushWrite hqueue)
    | pushStore =>
      obtain ⟨queue, hqueue, rfl⟩ := within_eq_some.1 hstep
      exact h.produces hqueue (produces_pushStore hqueue) (pushed_pushStore hqueue)
    | popLoad => exact h.popLoad hstep
    | popRead => exact h.popRead hstep
    | popStore => exact h.popStore hstep
    | push samples gain => cases hstep
    | pop destinationSize => cases hstep
    | size => cases hstep
    | sizeLoad => cases hstep

/-- What PipeWire is handed of what LiveKit has read. -/
structure Gapless (scaled : γ → Int16 → Int16) (s : RemotePlayout γ) : Prop where
  /-- Buffers are filled to their end, -/
  full : ∀ play ∈ s.plays, play.samples.length = play.capacity
  /-- with the samples that the queue had room for, in their order, -/
  inOrder : s.plays.flatMap Play.copied <+: s.sampleQueue.accepted scaled
  /-- and with silence only where all of these had been played. -/
  silence : ∀ play ∈ s.plays, play.copied.length < play.capacity →
    play.copied.length = play.found
  /-- They are the samples of whole frames, as far as there was room, -/
  frames : s.frames.map AudioFrame.samples
    = s.sampleQueue.pushes.map Push.samples ++ pushing s.sampleQueue.producer
  room : ∀ push ∈ s.sampleQueue.pushes, push.count = min push.samples.length push.free
  /-- and all of one format. -/
  format : ∀ frame ∈ s.frames, s.format = some (frame.sampleRate, frame.channelCount)

theorem playout_gapless {gain : γ} {actions : List (PlayoutAction γ)}
    (h : Runs (RemotePlayout.step scaled) Free { gain } actions s) : Gapless scaled s := by
  have hinv : Inv scaled s :=
    h.invariant (fun _ _ _ hs _ hstep => hs.step hstep) (inv_initial gain)
  refine ⟨fun play hplay => ?_, ?_, fun play hplay hshort => ?_, hinv.frames, hinv.queue.pushes,
    hinv.format⟩
  · have hfilled := hinv.filled play hplay
    simp only [Play.samples, List.length_append, List.length_replicate]
    omega
  · have hpopped := hinv.queue.popped
    rw [State.popped, hinv.plays, ← List.flatMap_def] at hpopped
    exact (List.prefix_append _ _).trans hpopped
  · have hfilled := hinv.filled play hplay
    omega

section Samples

/-- Two frames of one sample, of which the second has another format, and a buffer for two. -/
def formatChange : List (PlayoutAction Unit) :=
  [.read ⟨[7], 48000, 1⟩ true, .queue .pushLoad, .queue .pushWrite, .queue .pushStore,
    .process ⟨some [], none, 4⟩, .read ⟨[8], 44100, 1⟩ true, .queue .popLoad, .queue .popRead,
    .queue .popStore]

theorem playout_gapless_formatChange : ∃ s,
    Runs (RemotePlayout.step unityGain) Free { gain := () } formatChange s
      ∧ s.plays.map Play.samples = [[7, 0]] ∧ Gapless unityGain s := by
  have hexec : (exec (RemotePlayout.step unityGain) { gain := () } formatChange).any
      (fun s => s.plays.map Play.samples == [[7, 0]]) = true := by decide +kernel
  obtain ⟨s, hrun, hend⟩ := exists_run (RemotePlayout.step unityGain) formatChange hexec
  exact ⟨s, hrun, by simpa using hend, playout_gapless hrun⟩

end Samples

end RemotePlayout

end PipeWire

end VoxTree

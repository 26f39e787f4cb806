import VoxTree.Lib.Machine
import Mathlib.Algebra.GroupWithZero.Nat
import Mathlib.Data.Nat.Notation
import Mathlib.Logic.Function.Basic

/-!
# The sample queue of the PipeWire playout

`SampleQueue`: one thread pushes samples, another one pops them, and both go on in steps of one
load, store or slot access each. Positions are counted up in `std::size_t`. How a gain scales a
sample, which is floating-point arithmetic, is a parameter.
-/

namespace VoxTree

namespace SampleQueue

def sampleQueueCapacity : UInt64 := 32768

variable {γ : Type*} (scaled : γ → Int16 → Int16)

/-- A call of `push` that has returned `count`, when its read of `read_position_` found `free`
slots. -/
structure Push (γ : Type*) where
  samples : List Int16
  gain : γ
  free : ℕ
  count : ℕ

/-- The local variables of `push` at each place. -/
inductive Producer (γ : Type*)
  | idle
  | loadedWrite (samples : List Int16) (gain : γ) (writePosition : UInt64)
  | writing (samples : List Int16) (gain : γ) (free count index : ℕ) (writePosition : UInt64)

/-- The local variables of `pop` and of `size`, the destination as far as it is filled. -/
inductive Consumer
  | idle
  | loadedRead (destinationSize : ℕ) (readPosition : UInt64)
  | reading (destination : List Int16) (count : ℕ) (readPosition : UInt64)
  | sizing (readPosition : UInt64)

structure State (γ : Type*) where
  samples : ℕ → Int16 := fun _ => 0
  readPosition : UInt64 := 0
  writePosition : UInt64 := 0
  producer : Producer γ := .idle
  consumer : Consumer := .idle
  -- the calls that have returned
  pushes : List (Push γ) := []
  pops : List (List Int16) := []
  sizes : List UInt64 := []

inductive Action (γ : Type*)
  | push (samples : List Int16) (gain : γ)
  | pushLoad
  | pushWrite
  | pushStore
  | pop (destinationSize : ℕ)
  | popLoad
  | popRead
  | popStore
  | size
  | sizeLoad

namespace State

variable (s : State γ)

/-- The samples in the queue: those of the pushes that have returned less those of the pops that
have. -/
def occupancy : ℕ := (s.pushes.map Push.count).sum - s.pops.flatten.length

end State

def step (s : State γ) : Action γ → Option (State γ)
  | .push samples gain =>
    match s.producer with
    | .idle => some { s with producer := .loadedWrite samples gain s.writePosition }
    | _ => none
  | .pushLoad =>
    match s.producer with
    | .loadedWrite samples gain writePosition =>
      let available := sampleQueueCapacity - (writePosition - s.readPosition)
      some { s with
        producer := .writing samples gain (sampleQueueCapacity.toNat - s.occupancy)
          (min samples.length available.toNat) 0 writePosition }
    | _ => none
  | .pushWrite =>
    match s.producer with
    | .writing samples gain free count index writePosition =>
      if index < count then
        samples[index]?.map fun sample =>
          { s with
            samples := Function.update s.samples (writePosition % sampleQueueCapacity).toNat
              (scaled gain sample)
            producer := .writing samples gain free count (index + 1) (writePosition + 1) }
      else none
    | _ => none
  | .pushStore =>
    match s.producer with
    | .writing samples gain free count index writePosition =>
      if index < count then none
      else
        some { s with
          writePosition
          producer := .idle
          pushes := s.pushes ++ [⟨samples, gain, free, count⟩] }
    | _ => none
  | .pop destinationSize =>
    match s.consumer with
    | .idle => some { s with consumer := .loadedRead destinationSize s.readPosition }
    | _ => none
  | .popLoad =>
    match s.consumer with
    | .loadedRead destinationSize readPosition =>
      let count := min destinationSize (s.writePosition - readPosition).toNat
      some { s with consumer := .reading [] count readPosition }
    | _ => none
  | .popRead =>
    match s.consumer with
    | .reading destination count readPosition =>
      if destination.length < count then
        let sample := s.samples (readPosition % sampleQueueCapacity).toNat
        some { s with
          consumer := .reading (destination ++ [sample]) count (readPosition + 1) }
      else none
    | _ => none
  | .popStore =>
    match s.consumer with
    | .reading destination count readPosition =>
      if destination.length < count then none
      else
        some { s with
          readPosition
          consumer := .idle
          pops := s.pops ++ [destination] }
    | _ => none
  | .size =>
    match s.consumer with
    | .idle => some { s with consumer := .sizing s.readPosition }
    | _ => none
  | .sizeLoad =>
    match s.consumer with
    | .sizing readPosition =>
      some { s with consumer := .idle, sizes := s.sizes ++ [s.writePosition - readPosition] }
    | _ => none

/-! ## What has gone through -/

/-- The samples that a push has accepted, scaled. -/
def Push.accepted (p : Push γ) : List Int16 := (p.samples.take p.count).map (scaled p.gain)

namespace State

variable (s : State γ)

def accepted : List Int16 := s.pushes.flatMap (Push.accepted scaled)

/-- The samples of the pops that have returned and those that the running one has read. -/
def popped : List Int16 :=
  s.pops.flatten ++
    match s.consumer with
    | .reading destination _ _ => destination
    | _ => []

/-- The samples that the running push has written. -/
def pending : List Int16 :=
  match s.producer with
  | .writing samples gain _ _ index _ => (samples.take index).map (scaled gain)
  | _ => []

end State

end SampleQueue

end VoxTree

import VoxTree.Lib.RingWindow
import VoxTree.SampleQueue

/-!
# The sample queue is a bounded queue

The samples that have been written and not yet popped are a window of the stream of all accepted
samples, and each thread knows a position of it exactly (`Inv`): its own, while what it has loaded
of the other one can only have become more favourable. Every step of either thread keeps that
(`inv_step`).
-/

namespace VoxTree

namespace SampleQueue

open Machine RingWindow

variable {γ : Type*} {scaled : γ → Int16 → Int16} {s s' : State γ}

/-! ## The invariant -/

/-- What the producer's local variables are about, when `accepted` samples have been accepted and
`released` slots given back. -/
def ProducerOk (accepted released : ℕ) : Producer γ → Prop
  | .idle => True
  | .loadedWrite _ _ writePosition => writePosition = .ofNat accepted
  | .writing samples _ free count index writePosition =>
    writePosition = .ofNat (accepted + index) ∧ index ≤ count ∧ count = min samples.length free
      ∧ accepted + count ≤ released + 32768

def ConsumerOk (accepted released : ℕ) : Consumer → Prop
  | .idle => True
  | .loadedRead _ readPosition | .sizing readPosition => readPosition = .ofNat released
  | .reading destination count readPosition =>
    readPosition = .ofNat (released + destination.length) ∧ destination.length ≤ count
      ∧ released + count ≤ accepted

/-- Slots that are given back are no concern of the producer's. -/
theorem ProducerOk.mono {accepted released released' : ℕ} (hle : released ≤ released') :
    ∀ {producer : Producer γ}, ProducerOk accepted released producer →
      ProducerOk accepted released' producer
  | .idle, _ => trivial
  | .loadedWrite .., h => h
  | .writing .., ⟨hwrite, hindex, hcount, hfree⟩ => ⟨hwrite, hindex, hcount, by omega⟩

/-- Samples that are accepted are no concern of the consumer's. -/
theorem ConsumerOk.mono {accepted accepted' released : ℕ} (hle : accepted ≤ accepted') :
    ∀ {consumer : Consumer}, ConsumerOk accepted released consumer →
      ConsumerOk accepted' released consumer
  | .idle, _ => trivial
  | .loadedRead .., h | .sizing .., h => h
  | .reading .., ⟨hread, hfilled, hroom⟩ => ⟨hread, hfilled, hroom.trans hle⟩

structure Inv (scaled : γ → Int16 → Int16) (s : State γ) : Prop where
  readPosition : s.readPosition = .ofNat s.pops.flatten.length
  writePosition : s.writePosition = .ofNat (s.accepted scaled).length
  popped : s.popped <+: s.accepted scaled
  bound : (s.accepted scaled).length ≤ s.pops.flatten.length + 32768
  holds : Holds 32768 s.samples (s.accepted scaled ++ s.pending scaled) s.popped.length
  pushes : ∀ push ∈ s.pushes, push.count = min push.samples.length push.free
  sizes : ∀ size ∈ s.sizes, size.toNat ≤ 32768
  producer : ProducerOk (s.accepted scaled).length s.pops.flatten.length s.producer
  consumer : ConsumerOk (s.accepted scaled).length s.pops.flatten.length s.consumer

theorem inv_initial : Inv scaled ({} : State γ) where
  readPosition := rfl
  writePosition := rfl
  popped := List.prefix_refl _
  bound := Nat.zero_le _
  holds := ⟨le_rfl, Nat.zero_le _, by simp [State.accepted, State.pending]⟩
  pushes := by simp
  sizes := by simp
  producer := trivial
  consumer := trivial

namespace Inv

theorem released_le (h : Inv scaled s) : s.pops.flatten.length ≤ (s.accepted scaled).length := by
  have hle := h.popped.length_le
  unfold State.popped at hle
  rw [List.length_append] at hle
  omega

theorem length_accepted (h : Inv scaled s) :
    (s.accepted scaled).length = (s.pushes.map Push.count).sum := by
  have hpushes := h.pushes
  unfold State.accepted
  rw [List.length_flatMap]
  refine congrArg List.sum (List.map_congr_left fun push hpush => ?_)
  have hcount := hpushes push hpush
  unfold Push.accepted
  rw [List.length_map, List.length_take]
  omega

theorem occupancy_eq (h : Inv scaled s) :
    s.occupancy = (s.accepted scaled).length - s.pops.flatten.length := by
  unfold State.occupancy
  rw [h.length_accepted]

/-- What the positions tell of the queue. -/
theorem toNat_sub (h : Inv scaled s) : (s.writePosition - s.readPosition).toNat = s.occupancy := by
  have hbound := h.bound
  rw [h.writePosition, h.readPosition, h.occupancy_eq]
  refine toNat_ofNat_sub h.released_le ?_
  show _ < 18446744073709551616
  omega

theorem occupancy_le (h : Inv scaled s) : s.occupancy ≤ 32768 := by
  have hbound := h.bound
  rw [h.occupancy_eq]
  omega

/-- The slots that `push` computes to be free. -/
theorem toNat_available (h : Inv scaled s) :
    (sampleQueueCapacity - (s.writePosition - s.readPosition)).toNat = 32768 - s.occupancy := by
  have hle := h.occupancy_le
  have hsub := h.toNat_sub
  generalize s.writePosition - s.readPosition = used at hsub
  rw [← hsub] at hle ⊢
  exact UInt64.toNat_sub_of_le _ _ (UInt64.le_iff_toNat_le.2 hle)

end Inv

/-! ## Steps of the producer -/

namespace Inv

variable {samples : List Int16} {gain : γ} {free count index : ℕ} {position : UInt64}

theorem push (h : Inv scaled s) (hidle : s.producer = .idle) :
    Inv scaled { s with producer := .loadedWrite samples gain s.writePosition } :=
  { h with
    holds := by
      have hholds := h.holds
      simp only [State.pending, hidle] at hholds
      exact hholds
    producer := h.writePosition }

theorem pushLoad (h : Inv scaled s) (hproducer : s.producer = .loadedWrite samples gain position) :
    Inv scaled { s with
      producer := .writing samples gain (sampleQueueCapacity.toNat - s.occupancy)
        (min samples.length (sampleQueueCapacity - (position - s.readPosition)).toNat) 0
        position } := by
  have hposition := h.producer
  rw [hproducer] at hposition
  have hown : position = s.writePosition := hposition.trans h.writePosition.symm
  have hoccupancy := h.occupancy_eq
  have hreleased := h.released_le
  have hbound := h.bound
  exact { h with
    holds := by
      have hholds := h.holds
      simp only [State.pending, hproducer] at hholds
      simp only [State.pending, List.take_zero, List.map_nil]
      exact hholds
    producer := by
      refine ⟨hposition, Nat.zero_le _, ?_, ?_⟩
      · rw [hown, h.toNat_available]
        rfl
      · rw [hown, h.toNat_available]
        show (s.accepted scaled).length + _ ≤ s.pops.flatten.length + _
        omega }

theorem pushWrite {sample : Int16} (h : Inv scaled s)
    (hproducer : s.producer = .writing samples gain free count index position)
    (hindex : index < count) (hsample : samples[index]? = some sample) :
    Inv scaled { s with
      samples := Function.update s.samples (position % sampleQueueCapacity).toNat
        (scaled gain sample)
      producer := .writing samples gain free count (index + 1) (position + 1) } := by
  have hok := h.producer
  rw [hproducer] at hok
  obtain ⟨hposition, -, hcount, hbound⟩ := hok
  have hpending : s.pending scaled = (samples.take index).map (scaled gain) := by
    simp only [State.pending, hproducer]
  have hlength : (s.pending scaled).length = index := by
    rw [hpending, List.length_map, List.length_take]
    omega
  have hslot : (position % sampleQueueCapacity).toNat
      = (s.accepted scaled ++ s.pending scaled).length % 32768 := by
    rw [hposition, toNat_ofNat_mod (by decide), List.length_append, hlength]
    rfl
  have hreleased : s.pops.flatten.length ≤ s.popped.length := by
    unfold State.popped
    rw [List.length_append]
    omega
  have hwrite := h.holds.write (by rw [List.length_append, hlength]; omega) (scaled gain sample)
  exact { h with
    holds := by
      have hnext : (samples.take (index + 1)).map (scaled gain)
          = s.pending scaled ++ [scaled gain sample] := by
        rw [hpending, List.take_add_one, hsample, Option.toList_some, List.map_append,
          List.map_singleton]
      simp only [State.pending]
      rw [hslot, hnext, ← List.append_assoc]
      exact hwrite
    producer := by
      refine ⟨?_, hindex, hcount, hbound⟩
      rw [hposition, ofNat_succ]
      rfl }

theorem pushStore (h : Inv scaled s)
    (hproducer : s.producer = .writing samples gain free count index position)
    (hindex : ¬index < count) :
    Inv scaled { s with
      writePosition := position
      producer := .idle
      pushes := s.pushes ++ [⟨samples, gain, free, count⟩] } := by
  have hok := h.producer
  rw [hproducer] at hok
  obtain ⟨hposition, hle, hcount, hbound⟩ := hok
  obtain rfl : index = count := by omega
  have hpending : s.pending scaled = (samples.take index).map (scaled gain) := by
    simp only [State.pending, hproducer]
  have haccepted : State.accepted scaled { s with
      writePosition := position
      producer := .idle
      pushes := s.pushes ++ [⟨samples, gain, free, index⟩] }
        = s.accepted scaled ++ s.pending scaled := by
    unfold State.accepted
    rw [List.flatMap_append, List.flatMap_singleton, hpending]
    rfl
  have hlength : (s.accepted scaled ++ s.pending scaled).length
      = (s.accepted scaled).length + index := by
    rw [hpending, List.length_append, List.length_map, List.length_take]
    omega
  refine {
    readPosition := h.readPosition
    writePosition := by rw [haccepted, hlength, hposition]
    popped := ?_
    bound := by
      rw [haccepted, hlength]
      exact hbound
    holds := ?_
    pushes := fun push hpush => ?_
    sizes := h.sizes
    producer := trivial
    consumer := by
      rw [haccepted, hlength]
      exact h.consumer.mono (Nat.le_add_right _ _) }
  · rw [haccepted]
    exact h.popped.trans (List.prefix_append _ _)
  · rw [haccepted]
    show Holds 32768 s.samples ((s.accepted scaled ++ s.pending scaled) ++ []) s.popped.length
    rw [List.append_nil]
    exact h.holds
  · rcases List.mem_append.1 hpush with hpush | hpush
    · exact h.pushes push hpush
    · rw [List.mem_singleton.1 hpush]
      exact hcount

/-! ## Steps of the consumer -/

variable {destinationSize : ℕ} {destination : List Int16}

/-- A step of the consumer that pops nothing only has its own place to account for. -/
theorem consume (h : Inv scaled s) {consumer : Consumer}
    (hpopped : State.popped { s with consumer } = s.popped)
    (hconsumer : ConsumerOk (s.accepted scaled).length s.pops.flatten.length consumer) :
    Inv scaled { s with consumer } :=
  { h with
    popped := by
      rw [hpopped]
      exact h.popped
    holds := by
      rw [hpopped]
      exact h.holds
    consumer := hconsumer }

theorem pop (h : Inv scaled s) (hidle : s.consumer = .idle) :
    Inv scaled { s with consumer := .loadedRead destinationSize s.readPosition } := by
  refine h.consume ?_ h.readPosition
  simp only [State.popped, hidle]

theorem size (h : Inv scaled s) (hidle : s.consumer = .idle) :
    Inv scaled { s with consumer := .sizing s.readPosition } := by
  refine h.consume ?_ h.readPosition
  simp only [State.popped, hidle]

theorem sizeLoad (h : Inv scaled s) (hconsumer : s.consumer = .sizing position) :
    Inv scaled { s with
      consumer := .idle
      sizes := s.sizes ++ [s.writePosition - position] } := by
  have hown := h.consumer
  rw [hconsumer] at hown
  have hown : position = s.readPosition := hown.trans h.readPosition.symm
  have hpopped : State.popped { s with consumer := .idle } = s.popped := by
    simp only [State.popped, hconsumer]
  exact { h.consume hpopped trivial with
    sizes := fun size hsize => by
      rcases List.mem_append.1 hsize with hsize | hsize
      · exact h.sizes size hsize
      · rw [List.mem_singleton.1 hsize, hown, h.toNat_sub]
        exact h.occupancy_le }

theorem popLoad (h : Inv scaled s)
    (hconsumer : s.consumer = .loadedRead destinationSize position) :
    Inv scaled { s with
      consumer := .reading [] (min destinationSize (s.writePosition - position).toNat)
        position } := by
  have hown := h.consumer
  rw [hconsumer] at hown
  have hposition : position = s.readPosition := hown.trans h.readPosition.symm
  have hoccupancy := h.occupancy_eq
  have hreleased := h.released_le
  refine h.consume ?_ ⟨hown, Nat.zero_le _, ?_⟩
  · simp only [State.popped, hconsumer]
  · rw [hposition, h.toNat_sub]
    show s.pops.flatten.length + _ ≤ (s.accepted scaled).length
    omega

theorem popRead (h : Inv scaled s)
    (hconsumer : s.consumer = .reading destination count position)
    (hfilled : destination.length < count) :
    Inv scaled { s with
      consumer := .reading
        (destination ++ [s.samples (position % sampleQueueCapacity).toNat]) count
        (position + 1) } := by
  have hok := h.consumer
  rw [hconsumer] at hok
  obtain ⟨hposition, -, hroom⟩ := hok
  have hpopped : s.popped = s.pops.flatten ++ destination := by
    simp only [State.popped, hconsumer]
  have hlength : s.popped.length = s.pops.flatten.length + destination.length := by
    rw [hpopped, List.length_append]
  have hslot : (position % sampleQueueCapacity).toNat = s.popped.length % 32768 := by
    rw [hposition, toNat_ofNat_mod (by decide), hlength]
    rfl
  have hlt : s.popped.length < (s.accepted scaled).length := by omega
  have hlt' : s.popped.length < (s.accepted scaled ++ s.pending scaled).length := by
    rw [List.length_append]
    omega
  have hread := h.holds.read hlt'
  rw [List.getElem?_append_left hlt, ← hslot] at hread
  generalize s.samples (position % sampleQueueCapacity).toNat = sample at hread ⊢
  have hnext : State.popped { s with
      consumer := .reading (destination ++ [sample]) count (position + 1) }
        = s.popped ++ [sample] := by
    rw [hpopped, List.append_assoc]
    rfl
  exact { h with
    popped := by
      rw [hnext]
      show s.popped ++ [sample] <+: s.accepted scaled
      rw [List.prefix_iff_eq_take, List.length_append, List.length_singleton,
        List.take_add_one, hread, ← List.prefix_iff_eq_take.1 h.popped]
      rfl
    holds := by
      rw [hnext, List.length_append]
      exact h.holds.next hlt'
    consumer := by
      refine ⟨?_, ?_, hroom⟩
      · rw [hposition, ofNat_succ, List.length_append]
        rfl
      · rw [List.length_append]
        exact hfilled }

theorem popStore (h : Inv scaled s)
    (hconsumer : s.consumer = .reading destination count position)
    (hfilled : ¬destination.length < count) :
    Inv scaled { s with
      readPosition := position
      consumer := .idle
      pops := s.pops ++ [destination] } := by
  have hok := h.consumer
  rw [hconsumer] at hok
  obtain ⟨hposition, hle, hroom⟩ := hok
  have hpops : (s.pops ++ [destination]).flatten = s.pops.flatten ++ destination := by simp
  have hpopped : State.popped { s with
      readPosition := position
      consumer := .idle
      pops := s.pops ++ [destination] } = s.popped := by
    simp only [State.popped, hconsumer, hpops, List.append_nil]
  have hbound := h.bound
  refine {
    readPosition := by rw [hposition, hpops, List.length_append]
    writePosition := h.writePosition
    popped := by
      rw [hpopped]
      exact h.popped
    bound := by
      show (s.accepted scaled).length ≤ _
      rw [hpops, List.length_append]
      omega
    holds := by
      rw [hpopped]
      exact h.holds
    pushes := h.pushes
    sizes := h.sizes
    producer := ?_
    consumer := trivial }
  show ProducerOk (s.accepted scaled).length (s.pops ++ [destination]).flatten.length s.producer
  rw [hpops, List.length_append]
  exact h.producer.mono (Nat.le_add_right _ _)

end Inv

/-- Every step keeps the invariant. -/
theorem inv_step {action : Action γ} (h : Inv scaled s) (hstep : step scaled s action = some s') :
    Inv scaled s' := by
  rcases action with ⟨samples, gain⟩ | _ | _ | _ | destinationSize | _ | _ | _ | _ | _ <;>
    simp only [step] at hstep <;> split at hstep
  · cases hstep
    exact h.push ‹_›
  · cases hstep
  · cases hstep
    exact h.pushLoad ‹_›
  · cases hstep
  · split_ifs at hstep with hindex
    obtain ⟨sample, hsample, rfl⟩ := Option.map_eq_some_iff.1 hstep
    exact h.pushWrite ‹_› hindex hsample
  · cases hstep
  · split_ifs at hstep with hindex
    cases hstep
    exact h.pushStore ‹_› hindex
  · cases hstep
  · cases hstep
    exact h.pop ‹_›
  · cases hstep
  · cases hstep
    exact h.popLoad ‹_›
  · cases hstep
  · split_ifs at hstep with hfilled
    cases hstep
    exact h.popRead ‹_› hfilled
  · cases hstep
  · split_ifs at hstep with hfilled
    cases hstep
    exact h.popStore ‹_› hfilled
  · cases hstep
  · cases hstep
    exact h.size ‹_›
  · cases hstep
  · cases hstep
    exact h.sizeLoad ‹_›
  · cases hstep

theorem inv_run {actions : List (Action γ)} (h : Runs (step scaled) Free {} actions s) :
    Inv scaled s :=
  h.invariant (fun _ _ _ hs _ hstep => inv_step hs hstep) inv_initial

/-! ## The queue -/

/-- The slots that have been written, by the pushes that have returned and the running one. -/
def State.written (s : State γ) : ℕ :=
  (s.pushes.map Push.count).sum +
    match s.producer with
    | .writing _ _ _ _ index _ => index
    | _ => 0

/-- The queue is bounded and first in, first out. -/
structure BoundedFifo (scaled : γ → Int16 → Int16) (s : State γ) : Prop where
  inOrder : s.popped <+: s.accepted scaled
  accepts : ∀ push ∈ s.pushes, push.count = min push.samples.length push.free
  occupancy : s.occupancy ≤ 32768 ∧ (s.writePosition - s.readPosition).toNat = s.occupancy
  sizes : ∀ size ∈ s.sizes, size.toNat ≤ 32768
  keeps : ∀ s', step scaled s .pushWrite = some s' →
    ∀ k, k < s.written → k % 32768 = s.written % 32768 → k < s.popped.length

theorem written_lt (h : Inv scaled s) (hstep : step scaled s .pushWrite = some s') :
    s.written < s.popped.length + 32768 := by
  have hproducer := h.producer
  have hlength := h.length_accepted
  have hreleased : s.pops.flatten.length ≤ s.popped.length := by
    unfold State.popped
    rw [List.length_append]
    omega
  unfold State.written
  rcases heq : s.producer with _ | _ | ⟨samples, gain, free, count, index, position⟩
  · simp [step, heq] at hstep
  · simp [step, heq] at hstep
  · rw [heq] at hproducer
    obtain ⟨-, -, -, hbound⟩ := hproducer
    simp only [step, heq] at hstep
    split_ifs at hstep with hindex
    show _ + index < _
    omega

theorem sampleQueue_boundedFifo {actions : List (Action γ)}
    (h : Runs (step scaled) Free {} actions s) : BoundedFifo scaled s := by
  have hinv := inv_run h
  exact {
    inOrder := hinv.popped
    accepts := hinv.pushes
    occupancy := ⟨hinv.occupancy_le, hinv.toNat_sub⟩
    sizes := hinv.sizes
    keeps := fun s' hstep k hlt hslot => lt_of_slot_eq hlt hslot (written_lt hinv hstep) }

section Samples

/-- What the gain `1.0F` does. -/
def unscaled : Unit → Int16 → Int16 := fun _ sample => sample

/-- A push of three samples and a pop of two, which has begun in between. -/
def overlapping : List (Action Unit) :=
  [.push [5, -3, 7] (), .pushLoad, .pushWrite, .pushWrite, .pop 2, .pushWrite, .pushStore, .popLoad,
    .popRead, .popRead, .popStore, .size, .sizeLoad]

end Samples

theorem overlapping_boundedFifo : ∃ s, Runs (step unscaled) Free {} overlapping s
    ∧ s.popped = [5, -3] ∧ s.sizes = [1] ∧ BoundedFifo unscaled s := by
  have hexec : (exec (step unscaled) {} overlapping).any
      (fun s => s.popped = [5, -3] ∧ s.sizes = [1]) = true := by decide +kernel
  obtain ⟨s, hrun, hend⟩ := exists_run (step unscaled) overlapping hexec
  obtain ⟨hpopped, hsizes⟩ := of_decide_eq_true hend
  exact ⟨s, hrun, hpopped, hsizes, sampleQueue_boundedFifo hrun⟩

end SampleQueue

end VoxTree

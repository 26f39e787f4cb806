import Mathlib.Data.List.Perm.Basic
import VoxTree.XAudio2Audio

/-!
# The playout over XAudio2 keeps its buffers in order

Every buffer is in one place, so that it is freed once, and not while the engine may read it, and
after the destructor none is left. The engine plays the frames in order, and a voice has the volume
of the last gain unless it has refused it (`Inv`, `playout_orderly`). The destructor always comes to
its end (`teardown_ends`).
-/

namespace VoxTree

namespace XAudio2

open Machine Lending

/-- The buffer that the thread is about to register. -/
def Reader.own {γ : Type*} : Reader γ → Option ℕ
  | copied samplesPointer => some samplesPointer
  | _ => none

/-- The buffer that it has registered and not submitted. -/
def Reader.held {γ : Type*} : Reader γ → List ℕ
  | inserted samplesPointer => [samplesPointer]
  | _ => []

/-- The places in the queue that it is going to take. -/
def Reader.submits {γ : Type*} : Reader γ → ℕ
  | ready _ | copied _ | inserted _ => 1
  | _ => 0

/-- The destructor has begun. -/
def Owner.closed {γ : Type*} : Owner γ → Bool
  | idle | setting _ => false
  | _ => true

/-- The destructor has got past the join. -/
def Owner.joined {γ : Type*} : Owner γ → Bool
  | flushed | destroyed | released => true
  | _ => false

/-- The destructor has got past the voice. -/
def Owner.silenced {γ : Type*} : Owner γ → Bool
  | destroyed | released => true
  | _ => false

/-- The buffers that the engine may read. -/
def queued {γ : Type*} (voice : Option (SourceVoice γ)) : List ℕ := voice.elim [] SourceVoice.queue

/-- The buffers that the engine is going to give back. -/
def returning {γ : Type*} (voice : Option (SourceVoice γ)) : List ℕ :=
  voice.elim [] SourceVoice.ended

namespace RemotePlayout

variable {γ : Type*}

structure Inv (s : RemotePlayout γ) : Prop where
  lends : Lends s.heap s.pendingBuffers s.reader.own
    (queued s.voice ++ returning s.voice ++ s.reader.held)
  /-- As long as there is a voice, a registered buffer is with it or about to be. -/
  tracked : s.owner.silenced = false →
    ∀ a ∈ s.pendingBuffers, a ∈ queued s.voice ++ returning s.voice ++ s.reader.held
  room : (queued s.voice).length + s.reader.submits ≤ maximumQueuedAudioFrames
  /-- What is queued has been submitted after what has been played, until it is flushed. -/
  order : ∃ rest, s.submitted = s.played ++ rest
    ∧ (s.owner.joined = false ∨ queued s.voice ≠ [] →
      rest.map some = (queued s.voice).map s.heap.content)
  /-- A voice that has not refused it has the volume of the gain, unless somebody is about to set
  it. -/
  gain : ∀ voice ∈ s.voice, voice.refused = false → voice.volume = s.gain
    ∨ s.owner = .setting s.gain ∨ ∃ frame volume, s.reader = .creating frame volume
  creating : ∀ frame volume, s.reader = .creating frame volume →
    (volume = s.gain ∨ s.owner = .setting s.gain) ∧ queued s.voice = [] ∧ returning s.voice = []
  setting : ∀ gain, s.owner = .setting gain → gain = s.gain
  stopping : s.owner.closed = true → s.stopRequested = true
  joined : s.owner.joined = true → s.reader = .finished
  silenced : s.owner.silenced = true → s.voice = none
  released : s.owner = .released → s.pendingBuffers = ∅

theorem inv_initial (gain : γ) : Inv { gain } where
  lends := .initial
  tracked := by simp
  room := Nat.zero_le _
  order := ⟨[], rfl, fun _ => rfl⟩
  gain := by simp
  creating := by simp
  setting := by simp
  stopping := by simp [Owner.closed]
  joined := by simp [Owner.joined]
  silenced := by simp [Owner.silenced]
  released := by simp

variable {s s' : RemotePlayout γ} {unset : γ}

theorem Inv.not_joined (h : Inv s) (hreader : s.reader ≠ .finished) : s.owner.joined = false := by
  rw [← Bool.not_eq_true]
  exact fun hjoined => hreader (h.joined hjoined)

theorem not_silenced {owner : Owner γ} (h : owner.joined = false) : owner.silenced = false := by
  cases owner <;> simp_all [Owner.joined, Owner.silenced]

/-- The invariant while the thread may still run, outside of `ensureVoice`. -/
theorem inv_running (hjoined : s.owner.joined = false)
    (hcreating : ∀ frame volume, s.reader ≠ .creating frame volume)
    (hlends : Lends s.heap s.pendingBuffers s.reader.own
      (queued s.voice ++ returning s.voice ++ s.reader.held))
    (htracked : ∀ a ∈ s.pendingBuffers,
      a ∈ queued s.voice ++ returning s.voice ++ s.reader.held)
    (hroom : (queued s.voice).length + s.reader.submits ≤ maximumQueuedAudioFrames)
    (horder : ∃ rest, s.submitted = s.played ++ rest
      ∧ rest.map some = (queued s.voice).map s.heap.content)
    (hgain : ∀ voice ∈ s.voice, voice.refused = false →
      voice.volume = s.gain ∨ s.owner = .setting s.gain)
    (hsetting : ∀ gain, s.owner = .setting gain → gain = s.gain)
    (hstopping : s.owner.closed = true → s.stopRequested = true) : Inv s where
  lends := hlends
  tracked _ := htracked
  room := hroom
  order := horder.imp fun rest hrest => ⟨hrest.1, fun _ => hrest.2⟩
  gain voice hvoice hvolume := (hgain voice hvoice hvolume).imp_right .inl
  creating frame volume heq := absurd heq (hcreating frame volume)
  setting := hsetting
  stopping := hstopping
  joined hj := by simp [hjoined] at hj
  silenced hs := by simp [not_silenced hjoined] at hs
  released heq := by simp [heq, Owner.joined] at hjoined

/-- What the invariant says while the thread runs, outside of `ensureVoice`. -/
theorem Inv.gain_of_running (h : Inv s)
    (hcreating : ∀ frame volume, s.reader ≠ .creating frame volume) :
    ∀ voice ∈ s.voice, voice.refused = false →
      voice.volume = s.gain ∨ s.owner = .setting s.gain := by
  intro voice hvoice hvolume
  simpa [hcreating] using h.gain voice hvoice hvolume

theorem Inv.order_of_running (h : Inv s) (hreader : s.reader ≠ .finished) :
    ∃ rest, s.submitted = s.played ++ rest
      ∧ rest.map some = (queued s.voice).map s.heap.content := by
  obtain ⟨rest, hsubmitted, hrest⟩ := h.order
  exact ⟨rest, hsubmitted, hrest (.inl (h.not_joined hreader))⟩

/-- The thread goes on without a buffer. -/
theorem Inv.move (h : Inv s) {reader : Reader γ} (hown : s.reader.own = none)
    (hheld : s.reader.held = []) (hfinished : s.reader ≠ .finished) (hown' : reader.own = none)
    (hheld' : reader.held = [])
    (hroom : (queued s.voice).length + reader.submits ≤ maximumQueuedAudioFrames)
    (hcreating : ∀ frame volume, s.reader ≠ .creating frame volume)
    (hcreating' : ∀ frame volume, reader ≠ .creating frame volume) :
    Inv { s with reader } := by
  have hjoined := h.not_joined hfinished
  refine inv_running hjoined hcreating' ?_ ?_ hroom (h.order_of_running hfinished)
    (h.gain_of_running hcreating) h.setting h.stopping
  · simpa [hown, hheld, hown', hheld'] using h.lends
  · simpa [hheld, hheld'] using h.tracked (not_silenced hjoined)

/-! ## The thread of `run` -/

theorem Inv.loop (h : Inv s) (hreader : s.reader = .looping) : Inv s.loop := by
  have hroom := h.room
  rw [hreader] at hroom
  unfold RemotePlayout.loop
  split_ifs <;> exact h.move (by simp [hreader, Reader.own]) (by simp [hreader, Reader.held])
    (by simp [hreader]) rfl rfl hroom (by simp [hreader]) (by simp)

theorem Inv.read (h : Inv s) (hreader : s.reader = .reading) (frame : Option AudioFrame) :
    Inv (s.read frame) := by
  have hroom := h.room
  rw [hreader] at hroom
  have hmove : ∀ reader : Reader γ, reader.own = none → reader.held = [] → reader.submits = 0 →
      (∀ frame volume, reader ≠ .creating frame volume) → Inv { s with reader } :=
    fun reader hown hheld hsubmits hcreating => h.move (by simp [hreader, Reader.own])
      (by simp [hreader, Reader.held]) (by simp [hreader]) hown hheld (hsubmits ▸ hroom)
      (by simp [hreader]) hcreating
  cases frame with
  | none => exact hmove _ rfl rfl rfl (by simp)
  | some frame =>
    simp only [RemotePlayout.read]
    split_ifs
    · exact hmove _ rfl rfl rfl (by simp)
    · exact hmove _ rfl rfl rfl (by simp)

theorem Inv.ensureVoice (h : Inv s) {frame : AudioFrame} (hreader : s.reader = .ensuring frame)
    (created : Bool) : Inv (s.ensureVoice frame created unset) := by
  have hroom := h.room
  rw [hreader] at hroom
  have hmove : ∀ reader : Reader γ, reader.own = none → reader.held = [] → reader.submits = 0 →
      (∀ frame volume, reader ≠ .creating frame volume) → Inv { s with reader } :=
    fun reader hown hheld hsubmits hcreating => h.move (by simp [hreader, Reader.own])
      (by simp [hreader, Reader.held]) (by simp [hreader]) hown hheld (hsubmits ▸ hroom)
      (by simp [hreader]) hcreating
  unfold RemotePlayout.ensureVoice
  split
  · split_ifs
    · exact hmove _ rfl rfl rfl (by simp)
    · exact hmove _ rfl rfl rfl (by simp)
  · rename_i hvoice
    split_ifs
    · have hjoined := h.not_joined (by simp [hreader])
      have hlends := h.lends
      have htracked := h.tracked
      have horder := h.order
      simp only [hvoice, hreader, Reader.own, Reader.held, queued, returning, Option.elim_none,
        List.append_nil] at hlends htracked horder
      exact {
        lends := hlends
        tracked := htracked
        room := Nat.zero_le _
        order := horder
        gain := fun voice _ _ => .inr (.inr ⟨frame, s.gain, rfl⟩)
        creating := fun frame' volume heq => by
          obtain ⟨rfl, rfl⟩ := Reader.creating.inj heq
          exact ⟨.inl rfl, rfl, rfl⟩
        setting := h.setting
        stopping := h.stopping
        joined := fun hj => by simp [hjoined] at hj
        silenced := fun hs => by simp [not_silenced hjoined] at hs
        released := h.released }
    · exact hmove _ rfl rfl rfl (by simp)

theorem queued_map_setVolume (voice : Option (SourceVoice γ)) (volume : γ) (applied : Bool) :
    queued (voice.map fun voice => voice.setVolume volume applied) = queued voice := by
  cases voice <;> cases applied <;> rfl

theorem returning_map_setVolume (voice : Option (SourceVoice γ)) (volume : γ) (applied : Bool) :
    returning (voice.map fun voice => voice.setVolume volume applied) = returning voice := by
  cases voice <;> cases applied <;> rfl

theorem volume_of_not_refused {voice : SourceVoice γ} {volume : γ} {applied : Bool}
    (h : (voice.setVolume volume applied).refused = false) :
    (voice.setVolume volume applied).volume = volume := by
  cases applied with
  | false => cases h
  | true => rfl

theorem Inv.startVoice (h : Inv s) {frame : AudioFrame} {volume : γ}
    (hreader : s.reader = .creating frame volume) (started : Bool) :
    Inv (s.startVoice frame volume started) := by
  obtain ⟨hvolume, hqueue, hended⟩ := h.creating frame volume hreader
  have hjoined := h.not_joined (by simp [hreader])
  have hlends := h.lends
  have htracked := h.tracked (not_silenced hjoined)
  have hroom := h.room
  have horder := h.order_of_running (by simp [hreader])
  simp only [hqueue, hended, hreader, Reader.own, Reader.held, Reader.submits,
    List.append_nil] at hlends htracked hroom horder
  unfold RemotePlayout.startVoice
  split_ifs
  · refine inv_running hjoined (by simp) ?_ ?_ ?_ ?_ (fun voice hvoice _ => ?_) h.setting h.stopping
    · simp only [queued_map_setVolume, returning_map_setVolume, hqueue, hended]
      exact hlends
    · simp only [queued_map_setVolume, returning_map_setVolume, hqueue, hended]
      exact htracked
    · simp only [queued_map_setVolume, hqueue]
      exact hroom
    · simpa only [queued_map_setVolume, hqueue] using horder
    · obtain ⟨old, -, rfl⟩ := Option.map_eq_some_iff.1 hvoice
      exact hvolume
  · exact inv_running hjoined (by simp) hlends htracked (Nat.zero_le _) horder (by simp) h.setting
      h.stopping

theorem Inv.waitForQueue (h : Inv s) {frame : AudioFrame} (hreader : s.reader = .waiting frame)
    (hstep : s.waitForQueue frame = some s') : Inv s' := by
  have hmove : ∀ reader : Reader γ, reader.own = none → reader.held = [] →
      (queued s.voice).length + reader.submits ≤ maximumQueuedAudioFrames →
      (∀ frame volume, reader ≠ .creating frame volume) → Inv { s with reader } :=
    fun reader hown hheld hroom hcreating => h.move (by simp [hreader, Reader.own])
      (by simp [hreader, Reader.held]) (by simp [hreader]) hown hheld hroom (by simp [hreader])
      hcreating
  have hroom := h.room
  unfold RemotePlayout.waitForQueue at hstep
  split_ifs at hstep with hstop hfree
  · cases hstep
    exact hmove _ rfl rfl (le_trans (Nat.le_add_right _ _) hroom) (by simp)
  · cases hstep
    refine hmove _ rfl rfl ?_ (by simp)
    rcases hvoice : s.voice with _ | voice
    · simp [queued, Reader.submits, maximumQueuedAudioFrames]
    · rw [hvoice, Option.all_some, decide_eq_true_iff] at hfree
      exact hfree

/-- A buffer that is not in the queue does not change what is going to be played. -/
theorem map_content_update {queue : List ℕ} {content : ℕ → Option (List Int16)} {a : ℕ}
    {value : Option (List Int16)} (ha : a ∉ queue) :
    queue.map (Function.update content a value) = queue.map content :=
  List.map_congr_left fun b hb => Function.update_of_ne (fun heq : b = a => ha (heq ▸ hb)) _ _

theorem Inv.copy (h : Inv s) {frame : AudioFrame} (hreader : s.reader = .ready frame)
    {address : Option ℕ} (hstep : s.copy frame address = some s') : Inv s' := by
  have hroom := h.room
  have hfinished : s.reader ≠ .finished := by simp [hreader]
  cases address with
  | none =>
    cases hstep
    exact h.move (by simp [hreader, Reader.own]) (by simp [hreader, Reader.held]) hfinished rfl rfl
      (le_trans (Nat.le_add_right _ _) hroom) (by simp [hreader]) (by simp)
  | some address =>
    simp only [RemotePlayout.copy] at hstep
    split_ifs at hstep with hfree
    cases hstep
    have hjoined := h.not_joined hfinished
    have hlends := h.lends
    have htracked := h.tracked (not_silenced hjoined)
    obtain ⟨rest, hsubmitted, hrest⟩ := h.order_of_running hfinished
    simp only [hreader, Reader.own, Reader.held, List.append_nil] at hlends htracked
    have hqueue : address ∉ queued s.voice := by
      intro hmem
      have hallocated := (hlends.allocated address).2
        (.inl (hlends.lent address (List.mem_append_left _ hmem)))
      simp [hfree] at hallocated
    refine inv_running hjoined (by simp) ?_ ?_ ?_ ⟨rest, hsubmitted, ?_⟩
      (h.gain_of_running (by simp [hreader])) h.setting h.stopping
    · simpa [Reader.own, Reader.held] using hlends.alloc hfree
    · simpa [Reader.held] using htracked
    · simpa [hreader, Reader.submits] using hroom
    · rw [hrest]
      exact (map_content_update hqueue).symm

theorem Inv.insert (h : Inv s) {samplesPointer : ℕ} (hreader : s.reader = .copied samplesPointer)
    (inserted : Bool) : Inv (s.insert samplesPointer inserted) := by
  have hfinished : s.reader ≠ .finished := by simp [hreader]
  have hjoined := h.not_joined hfinished
  have hroom := h.room
  have hlends := h.lends
  have htracked := h.tracked (not_silenced hjoined)
  obtain ⟨rest, hsubmitted, hrest⟩ := h.order_of_running hfinished
  simp only [hreader, Reader.own, Reader.held, Reader.submits,
    List.append_nil] at hlends htracked hroom
  unfold RemotePlayout.insert
  split_ifs
  · refine inv_running hjoined (by simp) ?_ (fun a ha => ?_) hroom ⟨rest, hsubmitted, hrest⟩
      (h.gain_of_running (by simp [hreader])) h.setting h.stopping
    · exact hlends.register
    · rcases Finset.mem_insert.1 ha with rfl | ha
      · simp [Reader.held]
      · exact List.mem_append_left _ (htracked a ha)
  · have hqueue : samplesPointer ∉ queued s.voice := fun hmem =>
      hlends.fresh samplesPointer rfl (hlends.lent samplesPointer (List.mem_append_left _ hmem))
    refine inv_running hjoined (by simp) ?_ ?_ (le_trans (Nat.le_add_right _ _) hroom)
      ⟨rest, hsubmitted, ?_⟩ (h.gain_of_running (by simp [hreader])) h.setting h.stopping
    · simpa [Reader.own, Reader.held] using hlends.discard
    · simpa [Reader.held] using htracked
    · rw [hrest]
      exact (map_content_update hqueue).symm

theorem releaseBuffer_of_mem {buffer : ℕ} (h : buffer ∈ s.pendingBuffers) :
    s.releaseBuffer buffer = { s with
      pendingBuffers := s.pendingBuffers.erase buffer
      heap := s.heap.free buffer } :=
  if_pos h

theorem Inv.submit (h : Inv s) {samplesPointer : ℕ}
    (hreader : s.reader = .inserted samplesPointer) (accepted : Bool) :
    Inv (s.submit samplesPointer accepted) := by
  have hfinished : s.reader ≠ .finished := by simp [hreader]
  have hjoined := h.not_joined hfinished
  have hroom := h.room
  have hlends := h.lends
  have htracked := h.tracked (not_silenced hjoined)
  have hgain := h.gain_of_running (by simp [hreader])
  obtain ⟨rest, hsubmitted, hrest⟩ := h.order_of_running hfinished
  simp only [hreader, Reader.own, Reader.held, Reader.submits] at hlends htracked hroom
  have hperm : (queued s.voice ++ returning s.voice ++ [samplesPointer]).Perm
      (samplesPointer :: (queued s.voice ++ returning s.voice)) := List.perm_append_singleton _ _
  have hpending : samplesPointer ∈ s.pendingBuffers := hlends.lent _ (by simp)
  have hreleased : Inv { s.releaseBuffer samplesPointer with reader := .finished } := by
    rw [releaseBuffer_of_mem hpending]
    have hrelease := (hlends.perm hperm).release
    have hqueue : samplesPointer ∉ queued s.voice := fun hmem =>
      (List.nodup_cons.1 (hlends.perm hperm).nodup).1 (List.mem_append_left _ hmem)
    refine inv_running hjoined (by simp) ?_ (fun a ha => ?_)
      (le_trans (Nat.le_add_right _ _) hroom) ⟨rest, hsubmitted, ?_⟩ hgain h.setting h.stopping
    · simpa [Reader.own, Reader.held] using hrelease
    · obtain ⟨hne, ha⟩ := Finset.mem_erase.1 ha
      have hmem := htracked a ha
      simpa [Reader.held, hne] using hmem
    · rw [hrest]
      exact (map_content_update hqueue).symm
  unfold RemotePlayout.submit
  split
  · rename_i voice hvoice
    split_ifs
    · have htouch := hlends.touch (a := samplesPointer) (by simp)
      have hallocated := (hlends.allocated samplesPointer).2 (.inl hpending)
      obtain ⟨samples, hsamples⟩ := Option.isSome_iff_exists.1 hallocated
      simp only [hvoice, queued, returning, Option.elim_some] at hlends htracked hroom hrest
      rw [htouch, hsamples]
      refine inv_running hjoined (by simp) ?_ (fun a ha => ?_) ?_
        ⟨rest ++ [samples], ?_, ?_⟩ (fun other hother => ?_) h.setting h.stopping
      · refine hlends.perm ?_
        simp only [queued, returning, Option.elim_some, Reader.held, List.append_nil,
          List.append_assoc]
        exact List.perm_append_comm.append_left voice.queue
      · have hmem := htracked a ha
        simp only [queued, returning, Option.elim_some, Reader.held, List.append_nil,
          List.mem_append] at hmem ⊢
        tauto
      · simpa [queued, Reader.submits] using hroom
      · simp [hsubmitted]
      · simp [queued, hrest, hsamples]
      · obtain rfl := Option.some.inj hother
        exact hgain voice hvoice
    · exact hreleased
  · exact hreleased

/-! ## The audio engine -/

theorem Inv.bufferEnd (h : Inv s) {voice : SourceVoice γ} (hvoice : s.voice = some voice)
    (hstep : s.bufferEnd voice = some s') : Inv s' := by
  have hlends := h.lends
  have htracked := h.tracked
  have hroom := h.room
  have hcreating := h.creating
  obtain ⟨rest, hsubmitted, hrest⟩ := h.order
  simp only [hvoice, queued, returning,
    Option.elim_some] at hlends htracked hroom hcreating hrest
  unfold RemotePlayout.bufferEnd at hstep
  split at hstep
  · cases hstep
  · rename_i samplesPointer queue hqueue
    cases hstep
    simp only [hqueue] at hlends htracked hroom hcreating hrest
    have htouch := hlends.touch (a := samplesPointer) (by simp)
    have hallocated := (hlends.allocated samplesPointer).2 (.inl (hlends.lent _ (by simp)))
    obtain ⟨samples, hsamples⟩ := Option.isSome_iff_exists.1 hallocated
    have hperm : (samplesPointer :: queue ++ voice.ended).Perm
        (queue ++ (voice.ended ++ [samplesPointer])) := by
      rw [← List.append_assoc]
      exact (List.perm_append_singleton samplesPointer (queue ++ voice.ended)).symm
    obtain ⟨tail, rfl, htail⟩ : ∃ tail, rest = samples :: tail
        ∧ tail.map some = queue.map s.heap.content := by
      have hrest := hrest (.inr (List.cons_ne_nil _ _))
      rw [List.map_cons, hsamples] at hrest
      cases rest with
      | nil => simp at hrest
      | cons first tail => exact ⟨tail, by simpa using hrest⟩
    rw [htouch, hsamples]
    exact {
      lends := hlends.perm (hperm.append_right _)
      tracked := fun hs a ha => ((hperm.append_right _).mem_iff).1 (htracked hs a ha)
      room := le_trans (by simp [queued]) hroom
      order := ⟨tail, by simp [hsubmitted], fun _ => htail⟩
      gain := fun other hother => by
        obtain rfl := Option.some.inj hother
        exact h.gain voice hvoice
      creating := fun frame volume heq => by simpa using (hcreating frame volume heq).2.1
      setting := h.setting
      stopping := h.stopping
      joined := h.joined
      silenced := fun hs => by simpa [hvoice] using h.silenced hs
      released := h.released }

theorem Inv.onBufferEnd (h : Inv s) {voice : SourceVoice γ} (hvoice : s.voice = some voice)
    (hstep : s.onBufferEnd voice = some s') : Inv s' := by
  have hlends := h.lends
  have htracked := h.tracked
  have hcreating := h.creating
  have hroom := h.room
  have hgain := h.gain voice hvoice
  obtain ⟨rest, hsubmitted, hrest⟩ := h.order
  have hnotsilenced : s.owner.silenced = false := by
    rw [← Bool.not_eq_true]
    exact fun hs => by simpa [hvoice] using h.silenced hs
  have hnotreleased : s.owner ≠ .released := fun heq => by
    simp [heq, Owner.silenced] at hnotsilenced
  simp only [hvoice, queued, returning,
    Option.elim_some] at hlends htracked hroom hcreating hrest
  unfold RemotePlayout.onBufferEnd at hstep
  split at hstep
  · cases hstep
  · rename_i context ended hended
    cases hstep
    simp only [hended] at hlends htracked hcreating
    have hperm : (voice.queue ++ context :: ended ++ s.reader.held).Perm
        (context :: (voice.queue ++ ended ++ s.reader.held)) :=
      List.perm_middle.append_right _
    have hpending : context ∈ s.pendingBuffers := hlends.lent _ (by simp)
    have hqueue : context ∉ voice.queue := fun hmem =>
      (List.nodup_cons.1 (hlends.perm hperm).nodup).1 (by simp [hmem])
    rw [releaseBuffer_of_mem (by exact hpending)]
    exact {
      lends := (hlends.perm hperm).release
      tracked := fun hs a ha => by
        obtain ⟨hne, ha⟩ := Finset.mem_erase.1 ha
        have hmem := htracked hs a ha
        rw [hperm.mem_iff] at hmem
        simpa [hne, queued, returning] using hmem
      room := hroom
      order := ⟨rest, hsubmitted, fun hj => by
        rw [hrest hj]
        exact (map_content_update hqueue).symm⟩
      gain := fun other hother => by
        obtain rfl := Option.some.inj hother
        exact hgain
      creating := fun frame volume heq => by simpa using (hcreating frame volume heq).2.2
      setting := h.setting
      stopping := h.stopping
      joined := h.joined
      silenced := fun hs => by simp [hnotsilenced] at hs
      released := fun heq => absurd heq hnotreleased }

/-! ## The owner -/

theorem Inv.storeGain (h : Inv s) (howner : s.owner = .idle) (gain : γ) :
    Inv { s with gain, owner := .setting gain } where
  lends := h.lends
  tracked _ := h.tracked (by simp [howner, Owner.silenced])
  room := h.room
  order := by
    obtain ⟨rest, hsubmitted, hrest⟩ := h.order
    exact ⟨rest, hsubmitted, fun _ => hrest (.inl (by simp [howner, Owner.joined]))⟩
  gain _ _ _ := .inr (.inl rfl)
  creating frame volume heq := ⟨.inr rfl, (h.creating frame volume heq).2⟩
  setting other heq := (Owner.setting.inj heq).symm
  stopping hc := by simp [Owner.closed] at hc
  joined hj := by simp [Owner.joined] at hj
  silenced hs := by simp [Owner.silenced] at hs
  released heq := by simp at heq

theorem Inv.applyGain (h : Inv s) {gain : γ} (howner : s.owner = .setting gain)
    (hcreating : ∀ frame volume, s.reader ≠ .creating frame volume) (applied : Bool) :
    Inv (s.applyGain gain applied) where
  lends := by
    simpa only [RemotePlayout.applyGain, queued_map_setVolume, returning_map_setVolume]
      using h.lends
  tracked _ := by
    simpa only [RemotePlayout.applyGain, queued_map_setVolume, returning_map_setVolume]
      using h.tracked (by simp [howner, Owner.silenced])
  room := by simpa only [RemotePlayout.applyGain, queued_map_setVolume] using h.room
  order := by
    obtain ⟨rest, hsubmitted, hrest⟩ := h.order
    refine ⟨rest, hsubmitted, fun _ => ?_⟩
    simpa only [RemotePlayout.applyGain, queued_map_setVolume]
      using hrest (.inl (by simp [howner, Owner.joined]))
  gain voice hvoice hvolume := by
    obtain ⟨old, -, rfl⟩ := Option.map_eq_some_iff.1 hvoice
    exact .inl ((volume_of_not_refused hvolume).trans (h.setting gain howner))
  creating frame volume heq := absurd heq (hcreating frame volume)
  setting other heq := by simp [RemotePlayout.applyGain] at heq
  stopping hc := by simp [RemotePlayout.applyGain, Owner.closed] at hc
  joined hj := by simp [RemotePlayout.applyGain, Owner.joined] at hj
  silenced hs := by simp [RemotePlayout.applyGain, Owner.silenced] at hs
  released heq := by simp [RemotePlayout.applyGain] at heq

theorem Inv.close (h : Inv s) (howner : s.owner = .idle) : Inv s.close where
  lends := h.lends
  tracked _ := h.tracked (by simp [howner, Owner.silenced])
  room := h.room
  order := by
    obtain ⟨rest, hsubmitted, hrest⟩ := h.order
    exact ⟨rest, hsubmitted, fun _ => hrest (.inl (by simp [howner, Owner.joined]))⟩
  gain voice hvoice := by simpa [howner, RemotePlayout.close] using h.gain voice hvoice
  creating frame volume heq := by
    simpa [howner, RemotePlayout.close] using h.creating frame volume heq
  setting other heq := by simp [RemotePlayout.close] at heq
  stopping _ := rfl
  joined hj := by simp [RemotePlayout.close, Owner.joined] at hj
  silenced hs := by simp [RemotePlayout.close, Owner.silenced] at hs
  released heq := by simp [RemotePlayout.close] at heq

/-- The destructor has joined the thread, and the queue is what it was or flushed. -/
theorem Inv.flush (h : Inv s) (howner : s.owner = .closing) (hreader : s.reader = .finished)
    (flushed : Bool) : Inv (s.flush flushed) := by
  have hlends := h.lends
  have htracked := h.tracked (by simp [howner, Owner.silenced])
  have hstopping := h.stopping (by simp [howner, Owner.closed])
  obtain ⟨rest, hsubmitted, hrest⟩ := h.order
  cases flushed with
  | false =>
    exact {
      lends := hlends
      tracked := fun _ => htracked
      room := h.room
      order := ⟨rest, hsubmitted, fun _ => hrest (.inl (by simp [howner, Owner.joined]))⟩
      gain := fun voice hvoice hvolume => by
        simpa [howner, hreader, RemotePlayout.flush] using h.gain voice hvoice hvolume
      creating := fun frame volume heq => by simp [RemotePlayout.flush, hreader] at heq
      setting := fun other heq => by simp [RemotePlayout.flush] at heq
      stopping := fun _ => hstopping
      joined := fun _ => hreader
      silenced := fun hs => by simp [RemotePlayout.flush, Owner.silenced] at hs
      released := fun heq => by simp [RemotePlayout.flush] at heq }
  | true =>
    have hqueued : queued (s.flush true).voice = [] := by
      cases hvoice : s.voice <;> simp [RemotePlayout.flush, hvoice, queued]
    have hreturning :
        (queued s.voice ++ returning s.voice).Perm (returning (s.flush true).voice) := by
      cases hvoice : s.voice with
      | none => simp [RemotePlayout.flush, hvoice, queued, returning]
      | some voice =>
        simpa [RemotePlayout.flush, hvoice, queued, returning] using List.perm_append_comm
    have hperm : (queued s.voice ++ returning s.voice ++ s.reader.held).Perm
        (queued (s.flush true).voice ++ returning (s.flush true).voice ++ s.reader.held) := by
      rw [hqueued, List.nil_append]
      exact hreturning.append_right _
    exact {
      lends := hlends.perm hperm
      tracked := fun _ a ha => (hperm.mem_iff).1 (htracked a ha)
      room := by
        rw [hqueued]
        exact le_trans (by simp [RemotePlayout.flush]) h.room
      order := ⟨rest, hsubmitted, fun hj => by
        rcases hj with hj | hj
        · simp [RemotePlayout.flush, Owner.joined] at hj
        · exact absurd hqueued hj⟩
      gain := fun voice hvoice hvolume => by
        obtain ⟨old, hold, rfl⟩ := Option.map_eq_some_iff.1 hvoice
        simpa [howner, hreader, RemotePlayout.flush] using h.gain old hold hvolume
      creating := fun frame volume heq => by simp [RemotePlayout.flush, hreader] at heq
      setting := fun other heq => by simp [RemotePlayout.flush] at heq
      stopping := fun _ => hstopping
      joined := fun _ => hreader
      silenced := fun hs => by simp [RemotePlayout.flush, Owner.silenced] at hs
      released := fun heq => by simp [RemotePlayout.flush] at heq }

theorem Inv.destroyVoice (h : Inv s) (howner : s.owner = .flushed) :
    Inv { s with voice := none, owner := .destroyed } := by
  have hreader := h.joined (by simp [howner, Owner.joined])
  obtain ⟨rest, hsubmitted, -⟩ := h.order
  have hlends := h.lends.forget
  exact {
    lends := by simpa [hreader, Reader.held, queued, returning] using hlends
    tracked := fun hs => by simp [Owner.silenced] at hs
    room := by simp [hreader, Reader.submits, queued]
    order := ⟨rest, hsubmitted, fun hj => by simp [Owner.joined, queued] at hj⟩
    gain := by simp
    creating := fun frame volume heq => by simp [hreader] at heq
    setting := fun other heq => by simp at heq
    stopping := fun _ => h.stopping (by simp [howner, Owner.closed])
    joined := fun _ => hreader
    silenced := fun _ => rfl
    released := fun heq => by simp at heq }

theorem Inv.releasePendingBuffers (h : Inv s) (howner : s.owner = .destroyed) :
    Inv s.releasePendingBuffers := by
  have hreader := h.joined (by simp [howner, Owner.joined])
  have hvoice := h.silenced (by simp [howner, Owner.silenced])
  obtain ⟨rest, hsubmitted, -⟩ := h.order
  have hlends := h.lends
  rw [hreader] at hlends
  exact {
    lends := by
      simpa [RemotePlayout.releasePendingBuffers, hreader, hvoice, Reader.own, Reader.held, queued,
        returning] using hlends.freeAll
    tracked := fun hs => by simp [RemotePlayout.releasePendingBuffers, Owner.silenced] at hs
    room := h.room
    order := ⟨rest, hsubmitted, fun hj => by
      simp [RemotePlayout.releasePendingBuffers, Owner.joined, hvoice, queued] at hj⟩
    gain := fun voice hv => by simp [RemotePlayout.releasePendingBuffers, hvoice] at hv
    creating := fun frame volume heq => by
      simp [RemotePlayout.releasePendingBuffers, hreader] at heq
    setting := fun other heq => by simp [RemotePlayout.releasePendingBuffers] at heq
    stopping := fun _ => h.stopping (by simp [howner, Owner.closed])
    joined := fun _ => hreader
    silenced := fun _ => hvoice
    released := fun _ => rfl }

/-! ## Runs -/

theorem Inv.step (h : Inv s) {action : Action γ} (hstep : XAudio2.step unset s action = some s') :
    Inv s' := by
  cases action with
  | loop =>
    simp only [XAudio2.step] at hstep
    split at hstep <;> cases hstep
    exact h.loop ‹_›
  | read frame =>
    simp only [XAudio2.step] at hstep
    split at hstep <;> cases hstep
    exact h.read ‹_› frame
  | ensureVoice created =>
    simp only [XAudio2.step] at hstep
    split at hstep <;> cases hstep
    exact h.ensureVoice ‹_› created
  | startVoice started =>
    simp only [XAudio2.step] at hstep
    split at hstep <;> cases hstep
    exact h.startVoice ‹_› started
  | waitForQueue =>
    simp only [XAudio2.step] at hstep
    split at hstep
    · exact h.waitForQueue ‹_› hstep
    · cases hstep
  | copy address =>
    simp only [XAudio2.step] at hstep
    split at hstep
    · exact h.copy ‹_› hstep
    · cases hstep
  | insert inserted =>
    simp only [XAudio2.step] at hstep
    split at hstep <;> cases hstep
    exact h.insert ‹_› inserted
  | submit accepted =>
    simp only [XAudio2.step] at hstep
    split at hstep <;> cases hstep
    exact h.submit ‹_› accepted
  | bufferEnd =>
    obtain ⟨voice, hvoice, hend⟩ := Option.bind_eq_some_iff.1 hstep
    exact h.bufferEnd hvoice hend
  | onBufferEnd =>
    obtain ⟨voice, hvoice, hend⟩ := Option.bind_eq_some_iff.1 hstep
    exact h.onBufferEnd hvoice hend
  | storeGain gain =>
    simp only [XAudio2.step] at hstep
    split at hstep <;> cases hstep
    exact h.storeGain ‹_› gain
  | applyGain applied =>
    simp only [XAudio2.step] at hstep
    split at hstep <;> cases hstep
    rename_i howner hcreating
    exact h.applyGain howner hcreating applied
  | close =>
    simp only [XAudio2.step] at hstep
    split at hstep <;> cases hstep
    exact h.close ‹_›
  | flush flushed =>
    simp only [XAudio2.step] at hstep
    split at hstep <;> cases hstep
    rename_i howner hreader
    exact h.flush howner hreader flushed
  | destroyVoice =>
    simp only [XAudio2.step] at hstep
    split at hstep <;> cases hstep
    exact h.destroyVoice ‹_›
  | releasePendingBuffers =>
    simp only [XAudio2.step] at hstep
    split at hstep <;> cases hstep
    exact h.releasePendingBuffers ‹_›

theorem inv_run {gain : γ} {actions : List (Action γ)}
    (h : Runs (XAudio2.step unset) Free { gain } actions s) : Inv s :=
  h.invariant (fun _ _ _ hs _ hstep => hs.step hstep) (inv_initial gain)

structure Orderly (s : RemotePlayout γ) : Prop where
  /-- Nothing is freed twice, and nothing is read that has been freed. -/
  sound : s.heap.fault = false
  /-- The engine has every buffer once, and may read it. -/
  lent : (queued s.voice ++ returning s.voice).Nodup
    ∧ ∀ a ∈ queued s.voice ++ returning s.voice, (s.heap.content a).isSome
  /-- Nothing is allocated but what the engine has, and the one buffer that the thread has. -/
  allocated : s.owner.silenced = false → ∀ a, (s.heap.content a).isSome →
    a ∈ queued s.voice ++ returning s.voice ∨ a ∈ s.reader.held ∨ s.reader.own = some a
  /-- After the destructor nothing is allocated. -/
  released : s.owner = .released → ∀ a, s.heap.content a = none
  bounded : (queued s.voice).length ≤ maximumQueuedAudioFrames
  /-- The frames are played in their order, and only the destructor drops any. -/
  inOrder : s.played <+: s.submitted ∧ (s.owner.joined = false →
    s.submitted.map some = s.played.map some ++ (queued s.voice).map s.heap.content)
  /-- A voice that has started has the volume of the last gain that was set, unless the last
  `SetVolume` has failed. -/
  volume : s.owner = .idle → (∀ frame volume, s.reader ≠ .creating frame volume) →
    ∀ voice ∈ s.voice, voice.refused = false → voice.volume = s.gain

end RemotePlayout

/-- The steps that the thread has left once it is told to stop, and two for a buffer that it is
going to submit. -/
def Reader.weight {γ : Type*} : Reader γ → ℕ
  | finished => 0
  | looping => 1
  | inserted _ => 4
  | copied _ => 5
  | ready _ => 6
  | waiting _ => 7
  | creating .. => 8
  | ensuring _ => 9
  | reading => 10

def Owner.weight {γ : Type*} : Owner γ → ℕ
  | idle | setting _ => 4
  | closing => 3
  | flushed => 2
  | destroyed => 1
  | released => 0

namespace RemotePlayout

variable {γ : Type*} {s s' : RemotePlayout γ} {unset : γ}

/-- What every step after the start of the destructor makes less. -/
def weight (s : RemotePlayout γ) : ℕ :=
  s.reader.weight + 2 * (queued s.voice).length + (returning s.voice).length + s.owner.weight

/-- The destructor has begun. -/
def Closing (s : RemotePlayout γ) : Prop := s.owner.closed = true ∧ s.stopRequested = true

theorem releaseBuffer_frame (s : RemotePlayout γ) (buffer : ℕ) :
    (s.releaseBuffer buffer).owner = s.owner
      ∧ (s.releaseBuffer buffer).stopRequested = s.stopRequested
      ∧ (s.releaseBuffer buffer).voice = s.voice
      ∧ (s.releaseBuffer buffer).reader = s.reader := by
  unfold RemotePlayout.releaseBuffer
  split_ifs <;> exact ⟨rfl, rfl, rfl, rfl⟩

/-- A step of the thread, by which it gets on. -/
theorem Closing.advance (h : Closing s) (howner : s'.owner = s.owner)
    (hstop : s'.stopRequested = s.stopRequested)
    (hweight : s'.reader.weight + 2 * (queued s'.voice).length + (returning s'.voice).length
      < s.reader.weight + 2 * (queued s.voice).length + (returning s.voice).length) :
    Closing s' ∧ s'.weight < s.weight := by
  refine ⟨⟨howner ▸ h.1, hstop ▸ h.2⟩, ?_⟩
  unfold weight
  rw [howner]
  omega

theorem Closing.step (h : Closing s) {action : Action γ}
    (hstep : XAudio2.step unset s action = some s') : Closing s' ∧ s'.weight < s.weight := by
  cases action with
  | loop =>
    simp only [XAudio2.step] at hstep
    split at hstep <;> cases hstep
    rename_i hreader
    rw [RemotePlayout.loop, if_pos h.2]
    exact h.advance rfl rfl (by simp [hreader, Reader.weight])
  | read frame =>
    simp only [XAudio2.step] at hstep
    split at hstep <;> cases hstep
    rename_i hreader
    unfold RemotePlayout.read
    split
    · exact h.advance rfl rfl (by simp [hreader, Reader.weight])
    · split_ifs <;> exact h.advance rfl rfl (by simp [hreader, Reader.weight])
  | ensureVoice created =>
    simp only [XAudio2.step] at hstep
    split at hstep <;> cases hstep
    rename_i hreader
    unfold RemotePlayout.ensureVoice
    split
    · split_ifs <;> exact h.advance rfl rfl (by simp [hreader, Reader.weight])
    · split_ifs <;> exact h.advance rfl rfl (by simp_all [Reader.weight, queued, returning])
  | startVoice started =>
    simp only [XAudio2.step] at hstep
    split at hstep <;> cases hstep
    rename_i hreader
    unfold RemotePlayout.startVoice
    split_ifs
    · refine h.advance rfl rfl ?_
      simp only [queued_map_setVolume, returning_map_setVolume, hreader, Reader.weight]
      omega
    · refine h.advance rfl rfl ?_
      simp only [hreader, Reader.weight, queued, returning, Option.elim_none, List.length_nil]
      omega
  | waitForQueue =>
    simp only [XAudio2.step] at hstep
    split at hstep
    · rename_i hreader
      rw [RemotePlayout.waitForQueue, if_pos h.2] at hstep
      cases hstep
      exact h.advance rfl rfl (by simp [hreader, Reader.weight])
    · cases hstep
  | copy address =>
    simp only [XAudio2.step] at hstep
    split at hstep
    · rename_i hreader
      unfold RemotePlayout.copy at hstep
      split at hstep
      · cases hstep
        exact h.advance rfl rfl (by simp [hreader, Reader.weight])
      · split_ifs at hstep
        cases hstep
        exact h.advance rfl rfl (by simp [hreader, Reader.weight])
    · cases hstep
  | insert inserted =>
    simp only [XAudio2.step] at hstep
    split at hstep <;> cases hstep
    rename_i hreader
    unfold RemotePlayout.insert
    split_ifs <;> exact h.advance rfl rfl (by simp [hreader, Reader.weight])
  | submit accepted =>
    simp only [XAudio2.step] at hstep
    split at hstep <;> cases hstep
    rename_i samplesPointer hreader
    obtain ⟨howner, hstop, hvoice, -⟩ := releaseBuffer_frame s samplesPointer
    have hreleased : Closing { s.releaseBuffer samplesPointer with reader := .finished }
        ∧ ({ s.releaseBuffer samplesPointer with reader := .finished } : RemotePlayout γ).weight
          < s.weight :=
      h.advance howner hstop (by simp [hreader, hvoice, Reader.weight])
    unfold RemotePlayout.submit
    split
    · rename_i voice hvoice
      split_ifs
      · refine h.advance rfl rfl ?_
        simp only [hreader, hvoice, Reader.weight, queued, returning, Option.elim_some,
          List.length_append, List.length_singleton]
        omega
      · exact hreleased
    · exact hreleased
  | bufferEnd =>
    obtain ⟨voice, hvoice, hend⟩ := Option.bind_eq_some_iff.1 hstep
    unfold RemotePlayout.bufferEnd at hend
    split at hend <;> cases hend
    rename_i hqueue
    refine h.advance rfl rfl ?_
    simp only [hvoice, queued, returning, Option.elim_some, hqueue, List.length_append,
      List.length_cons, List.length_nil]
    omega
  | onBufferEnd =>
    obtain ⟨voice, hvoice, hend⟩ := Option.bind_eq_some_iff.1 hstep
    unfold RemotePlayout.onBufferEnd at hend
    split at hend <;> cases hend
    rename_i context ended hended
    obtain ⟨howner, hstop, hvoice', hreader⟩ :=
      releaseBuffer_frame { s with voice := some { voice with ended } } context
    refine h.advance howner hstop ?_
    simp only [hvoice', hreader, hvoice, queued, returning, Option.elim_some, hended,
      List.length_cons]
    omega
  | storeGain gain =>
    simp only [XAudio2.step] at hstep
    split at hstep <;> cases hstep
    rename_i howner
    simp [Closing, howner, Owner.closed] at h
  | applyGain applied =>
    simp only [XAudio2.step] at hstep
    split at hstep <;> cases hstep
    rename_i howner _
    simp [Closing, howner, Owner.closed] at h
  | close =>
    simp only [XAudio2.step] at hstep
    split at hstep <;> cases hstep
    rename_i howner
    simp [Closing, howner, Owner.closed] at h
  | flush flushed =>
    simp only [XAudio2.step] at hstep
    split at hstep <;> cases hstep
    rename_i howner hreader
    cases flushed with
    | false =>
      refine ⟨⟨rfl, h.2⟩, ?_⟩
      simp [weight, RemotePlayout.flush, howner, Owner.weight]
    | true =>
      refine ⟨⟨rfl, h.2⟩, ?_⟩
      cases hvoice : s.voice <;>
        simp [weight, RemotePlayout.flush, howner, hvoice, queued, returning, Owner.weight]
      omega
  | destroyVoice =>
    simp only [XAudio2.step] at hstep
    split at hstep <;> cases hstep
    rename_i howner
    refine ⟨⟨rfl, h.2⟩, ?_⟩
    simp only [weight, howner, queued, returning, Option.elim_none, List.length_nil, Owner.weight]
    omega
  | releasePendingBuffers =>
    simp only [XAudio2.step] at hstep
    split at hstep <;> cases hstep
    rename_i howner
    refine ⟨⟨rfl, h.2⟩, ?_⟩
    simp [weight, RemotePlayout.releasePendingBuffers, howner, Owner.weight]

/-- The destructor waits for the thread only, which can always go on. -/
theorem stuck_iff (h : Inv s) (hclosing : Closing s) :
    (∀ action, XAudio2.step unset s action = none) ↔ s.owner = .released := by
  constructor
  · intro hstuck
    rcases howner : s.owner with _ | gain | _ | _ | _ | _
    · simp [Closing, howner, Owner.closed] at hclosing
    · simp [Closing, howner, Owner.closed] at hclosing
    · rcases hreader : s.reader with _ | _ | _ | _ | frame | _ | _ | _ | _
      · simpa [XAudio2.step, hreader] using hstuck .loop
      · simpa [XAudio2.step, hreader] using hstuck (.read none)
      · simpa [XAudio2.step, hreader] using hstuck (.ensureVoice false)
      · simpa [XAudio2.step, hreader] using hstuck (.startVoice false)
      · simpa [XAudio2.step, hreader, RemotePlayout.waitForQueue, hclosing.2]
          using hstuck .waitForQueue
      · simpa [XAudio2.step, hreader, RemotePlayout.copy] using hstuck (.copy none)
      · simpa [XAudio2.step, hreader] using hstuck (.insert true)
      · simpa [XAudio2.step, hreader] using hstuck (.submit true)
      · simpa [XAudio2.step, howner, hreader] using hstuck (.flush true)
    · simpa [XAudio2.step, howner] using hstuck .destroyVoice
    · simpa [XAudio2.step, howner] using hstuck .releasePendingBuffers
    · rfl
  · intro howner action
    have hreader := h.joined (by simp [howner, Owner.joined])
    have hvoice := h.silenced (by simp [howner, Owner.silenced])
    cases action <;> simp [XAudio2.step, howner, hreader, hvoice]

theorem length_closing {actions : List (Action γ)} (h : Runs (XAudio2.step unset) Free s actions s')
    (hclosing : Closing s) : Closing s' ∧ actions.length + s'.weight ≤ s.weight := by
  induction h with
  | nil s => exact ⟨hclosing, by simp⟩
  | cons _ hstep _ ih =>
    obtain ⟨hnext, hlt⟩ := hclosing.step hstep
    obtain ⟨hlast, hle⟩ := ih hnext
    refine ⟨hlast, ?_⟩
    rw [List.length_cons]
    omega

theorem Inv.weight_le (h : Inv s) (hclosing : Closing s) :
    s.weight ≤ (returning s.voice).length + 37 := by
  have hroom := h.room
  have hreader : s.reader.weight ≤ 10 := by cases s.reader <;> simp [Reader.weight]
  have howner : s.owner.weight ≤ 3 := by
    have hclosed := hclosing.1
    rcases howner : s.owner <;> simp_all [Owner.weight, Owner.closed]
  unfold weight
  unfold maximumQueuedAudioFrames at hroom
  omega

/-- Once it has begun, the destructor ends after a bounded number of steps, whatever the others do,
and it never gets stuck. -/
theorem teardown_ends {gain : γ} {actions actions' : List (Action γ)}
    (h : Runs (XAudio2.step unset) Free { gain } actions s) (hclosed : s.owner.closed = true)
    (h' : Runs (XAudio2.step unset) Free s actions' s') :
    actions'.length ≤ (returning s.voice).length + 37
      ∧ ((∀ action, XAudio2.step unset s' action = none) ↔ s'.owner = .released) := by
  have hinv := inv_run h
  have hinv' : Inv s' := h'.invariant (fun _ _ _ hs _ hstep => hs.step hstep) hinv
  have hclosing : Closing s := ⟨hclosed, hinv.stopping hclosed⟩
  obtain ⟨hclosing', hlength⟩ := length_closing h' hclosing
  have hweight := hinv.weight_le hclosing
  exact ⟨by omega, stuck_iff hinv' hclosing'⟩

section Samples

/-- Two frames are played, or about to be, when the owner lets go of the playout. -/
def twoFrames : List (Action ℕ) :=
  [.loop, .read (some ⟨[7], 48000, 1⟩), .storeGain 4, .ensureVoice true, .startVoice true,
    .applyGain true, .waitForQueue, .copy (some 1), .insert true, .submit true, .loop,
    .read (some ⟨[8], 48000, 1⟩), .ensureVoice true, .waitForQueue, .copy (some 2), .insert true,
    .submit true, .bufferEnd, .close]

/-- The second buffer is flushed, and its callback never comes. -/
def destructor : List (Action ℕ) :=
  [.loop, .onBufferEnd, .flush true, .destroyVoice, .releasePendingBuffers]

theorem teardown_ends_destructor : ∃ s s', Runs (XAudio2.step 0) Free { gain := 9 } twoFrames s
    ∧ Runs (XAudio2.step 0) Free s destructor s' ∧ destructor.length ≤ 38 := by
  have hexec : (exec (XAudio2.step 0) { gain := 9 } twoFrames).any (fun s =>
      s.owner.closed && (returning s.voice).length == 1
        && (exec (XAudio2.step 0) s destructor).isSome) = true := by decide +kernel
  obtain ⟨s, hrun, hend⟩ := exists_run _ _ hexec
  simp only [Bool.and_eq_true, beq_iff_eq, Option.isSome_iff_exists] at hend
  obtain ⟨⟨hclosed, hreturning⟩, s', hexec'⟩ := hend
  have hrun' := runs_of_exec hexec'
  have hlength := (teardown_ends hrun hclosed hrun').1
  exact ⟨s, s', hrun, hrun', by omega⟩

end Samples

end RemotePlayout

end XAudio2

end VoxTree

import Mathlib.Data.Finset.Basic
import Mathlib.Data.Finset.Insert
import Mathlib.Logic.Function.Basic

/-!
# Buffers that are lent out

A heap records whether anything was freed that was not allocated. An owner registers the buffers
that it lends to somebody who gives them back one by one, in any order, and it frees what is given
back. Nothing is freed twice, and what is registered is allocated (`Lends`).
-/

namespace Lending

/-- A heap, and whether an address was freed or read that was not allocated. -/
structure Heap (β : Type*) where
  content : ℕ → Option β := fun _ => none
  fault : Bool := false

namespace Heap

variable {β : Type*} (h : Heap β) (a : ℕ)

def alloc (value : β) : Heap β := { h with content := Function.update h.content a (some value) }

def free : Heap β where
  content := Function.update h.content a none
  fault := h.fault || (h.content a).isNone

def freeAll (addresses : Finset ℕ) : Heap β where
  content a := if a ∈ addresses then none else h.content a
  fault := h.fault || decide (∃ a ∈ addresses, (h.content a).isNone)

/-- The heap after a read. -/
def touch : Heap β := { h with fault := h.fault || (h.content a).isNone }

end Heap

/-- The registered buffers, and the one that is about to be, are what is allocated, and the buffers
lent out are registered and different. -/
structure Lends {β : Type*} (h : Heap β) (registered : Finset ℕ) (own : Option ℕ)
    (lent : List ℕ) : Prop where
  sound : h.fault = false
  allocated : ∀ a, (h.content a).isSome ↔ a ∈ registered ∨ own = some a
  fresh : ∀ a ∈ own, a ∉ registered
  nodup : lent.Nodup
  lent : ∀ a ∈ lent, a ∈ registered

namespace Lends

variable {β : Type*} {h : Heap β} {registered : Finset ℕ} {own : Option ℕ} {lent lent' : List ℕ}
  {a : ℕ} {value : β}

theorem initial : Lends ({} : Heap β) ∅ none [] where
  sound := rfl
  allocated a := by simp
  fresh := by simp
  nodup := .nil
  lent := by simp

theorem perm (hl : Lends h registered own lent) (hperm : lent.Perm lent') :
    Lends h registered own lent' :=
  { hl with
    nodup := hperm.nodup_iff.1 hl.nodup
    lent := fun a ha => hl.lent a (hperm.mem_iff.2 ha) }

/-- The owner may lose track of what it has lent. -/
theorem forget (hl : Lends h registered own lent) : Lends h registered own [] :=
  { hl with
    nodup := .nil
    lent := by simp }

theorem alloc (hl : Lends h registered none lent) (ha : h.content a = none) :
    Lends (h.alloc a value) registered (some a) lent where
  sound := hl.sound
  allocated b := by
    have hallocated := hl.allocated b
    by_cases hb : b = a
    · simp [Heap.alloc, hb]
    · simpa [Heap.alloc, hb, Ne.symm hb] using hallocated
  fresh b hb := by
    obtain rfl := Option.some.inj hb
    intro hmem
    have hallocated := (hl.allocated a).2 (.inl hmem)
    simp [ha] at hallocated
  nodup := hl.nodup
  lent := hl.lent

theorem isSome_own (hl : Lends h registered (some a) lent) : (h.content a).isSome :=
  (hl.allocated a).2 (.inr rfl)

/-- The owner registers its buffer and lends it. -/
theorem register (hl : Lends h registered (some a) lent) :
    Lends h (insert a registered) none (lent ++ [a]) where
  sound := hl.sound
  allocated b := by
    rw [hl.allocated b, Finset.mem_insert]
    simp [or_comm, eq_comm]
  fresh := by simp
  nodup := by
    refine List.nodup_append.2 ⟨hl.nodup, List.nodup_singleton a, fun b hb c hc heq => ?_⟩
    obtain rfl := List.mem_singleton.1 hc
    exact hl.fresh c rfl (heq ▸ hl.lent b hb)
  lent b hb := by
    rcases List.mem_append.1 hb with hb | hb
    · exact Finset.mem_insert_of_mem (hl.lent b hb)
    · rw [List.mem_singleton.1 hb]
      exact Finset.mem_insert_self a registered

/-- The owner frees the buffer that it has not registered. -/
theorem discard (hl : Lends h registered (some a) lent) :
    Lends (h.free a) registered none lent where
  sound := by simp [Heap.free, hl.sound, hl.isSome_own]
  allocated b := by
    have hallocated := hl.allocated b
    by_cases hb : b = a
    · simp [Heap.free, hb, hl.fresh a rfl]
    · simpa [Heap.free, hb, Ne.symm hb] using hallocated
  fresh := by simp
  nodup := hl.nodup
  lent := hl.lent

/-- A buffer is given back and freed. -/
theorem release (hl : Lends h registered own (a :: lent)) :
    Lends (h.free a) (registered.erase a) own lent where
  sound := by
    have ha := (hl.allocated a).2 (.inl (hl.lent a List.mem_cons_self))
    simp [Heap.free, hl.sound, ha]
  allocated b := by
    have hallocated := hl.allocated b
    have hmem := hl.lent a List.mem_cons_self
    by_cases hb : b = a
    · have hown : own ≠ some a := fun hown => hl.fresh a hown hmem
      simp [Heap.free, hb, hown]
    · simpa [Heap.free, hb] using hallocated
  fresh b hb hmem := hl.fresh b hb (Finset.mem_of_mem_erase hmem)
  nodup := (List.nodup_cons.1 hl.nodup).2
  lent b hb := Finset.mem_erase.2
    ⟨fun heq => (List.nodup_cons.1 hl.nodup).1 (heq ▸ hb), hl.lent b (List.mem_cons_of_mem a hb)⟩

/-- Whoever has a buffer may read it. -/
theorem touch (hl : Lends h registered own lent) (ha : a ∈ lent) : h.touch a = h := by
  have hallocated := (hl.allocated a).2 (.inl (hl.lent a ha))
  obtain ⟨content, fault⟩ := h
  simp only [Option.isSome_iff_exists] at hallocated
  obtain ⟨value, hvalue⟩ := hallocated
  simp [Heap.touch, hvalue]

/-- When nobody has a buffer any more, all of them can be freed. -/
theorem freeAll (hl : Lends h registered none lent) : Lends (h.freeAll registered) ∅ none [] where
  sound := by
    have hall : ¬∃ a ∈ registered, (h.content a).isNone := by
      rintro ⟨a, ha, hnone⟩
      have hallocated := (hl.allocated a).2 (.inl ha)
      simp [Option.isNone_iff_eq_none.1 hnone] at hallocated
    simp only [Heap.freeAll, hl.sound, Bool.false_or, decide_eq_false_iff_not]
    exact hall
  allocated a := by
    have hallocated := hl.allocated a
    by_cases ha : a ∈ registered
    · simp [Heap.freeAll, ha]
    · simpa [Heap.freeAll, ha] using hallocated
  fresh := by simp
  nodup := .nil
  lent := by simp

end Lends

end Lending

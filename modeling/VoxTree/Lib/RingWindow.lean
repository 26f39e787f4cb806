import Mathlib.Data.Nat.ModEq
import Mathlib.Logic.Function.Basic
import Mathlib.Tactic.Common

/-!
# A window of a stream in a ring of slots

Position `k` of a stream has slot `k % size` of a ring. The slots hold the stream from `start` on as
long as the rest of the stream is not longer than the ring: writing the next element leaves what is
held (`Holds.write`), and the first element that is held can be read back (`Holds.read`). The
positions may be counted by an integer type that wraps around.
-/

namespace RingWindow

variable {α : Type*} {size : ℕ} {slots : ℕ → α} {stream : List α} {start : ℕ}

/-- The slots hold the stream from `start` to its end. -/
structure Holds (size : ℕ) (slots : ℕ → α) (stream : List α) (start : ℕ) : Prop where
  le : start ≤ stream.length
  fits : stream.length ≤ start + size
  slot : ∀ k a, start ≤ k → stream[k]? = some a → slots (k % size) = a

/-- What was in the slot of a position before has left the window. -/
theorem lt_of_slot_eq {k n : ℕ} (hlt : k < n) (hslot : k % size = n % size)
    (hfits : n < start + size) : k < start := by
  have hdvd : size ∣ n - k := (Nat.modEq_iff_dvd' hlt.le).1 hslot
  have hle := Nat.le_of_dvd (by omega) hdvd
  omega

theorem Holds.write (h : Holds size slots stream start) (hfree : stream.length < start + size)
    (a : α) :
    Holds size (Function.update slots (stream.length % size) a) (stream ++ [a]) start where
  le := by
    have hle := h.le
    simp only [List.length_append, List.length_singleton]
    omega
  fits := by
    simp only [List.length_append, List.length_singleton]
    omega
  slot k b hk hb := by
    rcases lt_trichotomy k stream.length with hlt | rfl | hgt
    · -- another slot, as the one that is written has left the window
      have hne : k % size ≠ stream.length % size := fun heq => by
        have := lt_of_slot_eq hlt heq hfree
        omega
      rw [Function.update_of_ne hne]
      refine h.slot k b hk ?_
      rwa [List.getElem?_append_left hlt] at hb
    · rw [Function.update_self]
      simpa using hb
    · rw [List.getElem?_eq_none (by simp; omega)] at hb
      cases hb

theorem Holds.read (h : Holds size slots stream start) (hlt : start < stream.length) :
    stream[start]? = some (slots (start % size)) := by
  rw [List.getElem?_eq_getElem hlt, h.slot start _ le_rfl (List.getElem?_eq_getElem hlt)]

theorem Holds.next (h : Holds size slots stream start) (hlt : start < stream.length) :
    Holds size slots stream (start + 1) where
  le := hlt
  fits := by
    have hfits := h.fits
    omega
  slot k a hk := h.slot k a (by omega)

/-! ## Positions that wrap around -/

theorem toNat_ofNat_sub {a b : ℕ} (hle : b ≤ a) (hlt : a - b < UInt64.size) :
    (UInt64.ofNat a - UInt64.ofNat b).toNat = a - b := by
  rw [UInt64.toNat_sub]
  simp only [UInt64.toNat_ofNat', UInt64.size] at *
  omega

theorem ofNat_succ (a : ℕ) : UInt64.ofNat a + 1 = UInt64.ofNat (a + 1) := by
  rw [UInt64.ofNat_add]
  rfl

/-- The slot of a position does not depend on how often it has wrapped around. -/
theorem toNat_ofNat_mod {size : UInt64} (hdvd : size.toNat ∣ UInt64.size) (a : ℕ) :
    (UInt64.ofNat a % size).toNat = a % size.toNat := by
  rw [UInt64.toNat_mod, UInt64.toNat_ofNat']
  exact Nat.mod_mod_of_dvd a hdvd

end RingWindow

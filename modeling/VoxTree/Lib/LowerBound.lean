import Mathlib.Tactic.Common

/-!
# Binary search for a lower bound

`lowerBound` halves an interval of the list until it has found where a predicate stops holding. On
a list that the predicate splits in two, it finds what a linear search finds
(`getElem?_lowerBound`).
-/

namespace LowerBound

variable {α : Type*}

/-- The loop: `len` elements from `first` are left. -/
def loop (before : α → Bool) (xs : List α) (first len : ℕ) (h : first + len ≤ xs.length) : ℕ :=
  if hlen : len = 0 then first
  else if before (xs.get ⟨first + len / 2, by omega⟩) then
    loop before xs (first + len / 2 + 1) (len - len / 2 - 1) (by omega)
  else loop before xs first (len / 2) (by omega)
termination_by len

def lowerBound (before : α → Bool) (xs : List α) : ℕ :=
  loop before xs 0 xs.length (by omega)

/-- What `before` holds of comes first. -/
def Split (before : α → Bool) (xs : List α) : Prop :=
  xs.Pairwise fun a b => before b = true → before a = true

/-- `r` is where `before` stops holding. -/
structure IsBound (before : α → Bool) (xs : List α) (r : ℕ) : Prop where
  le : r ≤ xs.length
  below : ∀ (i : ℕ) (h : i < xs.length), i < r → before xs[i] = true
  above : ∀ (i : ℕ) (h : i < xs.length), r ≤ i → before xs[i] = false

variable {before : α → Bool} {xs : List α}

theorem Split.getElem (hs : Split before xs) {i j : ℕ} (hij : i ≤ j) (hj : j < xs.length)
    (h : before xs[j] = true) : before xs[i] = true := by
  rcases Nat.lt_or_eq_of_le hij with hlt | rfl
  · exact List.pairwise_iff_getElem.1 hs i j (by omega) hj hlt h
  · exact h

theorem loop_isBound (hs : Split before xs) {first len : ℕ} (h : first + len ≤ xs.length)
    (hbelow : ∀ (i : ℕ) (hi : i < xs.length), i < first → before xs[i] = true)
    (habove : ∀ (i : ℕ) (hi : i < xs.length), first + len ≤ i → before xs[i] = false) :
    IsBound before xs (loop before xs first len h) := by
  fun_induction loop before xs first len h with
  | case1 first h => exact ⟨by omega, hbelow, fun i hi hle => habove i hi (by omega)⟩
  | case2 first len h hlen hmid ih =>
    refine ih (fun i hi hlt => ?_) fun i hi hle => habove i hi (by omega)
    exact hs.getElem (by omega) _ hmid
  | case3 first len h hlen hmid ih =>
    refine ih hbelow fun i hi hle => ?_
    by_contra hi'
    exact hmid (hs.getElem hle hi (by simpa using hi'))

theorem lowerBound_isBound (hs : Split before xs) : IsBound before xs (lowerBound before xs) :=
  loop_isBound hs _ (fun _ _ h => absurd h (by omega)) fun _ hi h => absurd h (by omega)

/-- The binary search ends at the first element that a linear search for it finds. -/
theorem getElem?_lowerBound (hs : Split before xs) :
    xs[lowerBound before xs]? = xs.find? fun x => !before x := by
  obtain ⟨hle, hbelow, habove⟩ := lowerBound_isBound hs
  rcases Nat.lt_or_ge (lowerBound before xs) xs.length with hlt | hge
  · rw [List.getElem?_eq_getElem hlt, eq_comm, List.find?_eq_some_iff_getElem]
    refine ⟨by simp [habove _ hlt (Nat.le_refl _)], lowerBound before xs, hlt, rfl, fun j hj => ?_⟩
    simp [hbelow j (by omega) hj]
  · rw [List.getElem?_eq_none hge, eq_comm, List.find?_eq_none]
    intro x hx
    obtain ⟨i, hi, rfl⟩ := List.getElem_of_mem hx
    simp [hbelow i hi (by omega)]

end LowerBound

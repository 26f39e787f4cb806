import Mathlib.Data.List.TakeWhile
import Mathlib.Tactic.Common

/-!
# Reading a text up to a delimiter, again and again

`getline` takes what stands before the first delimiter and fails on an empty text; `pieces` repeats
it until it fails. The pieces are those of `List.splitOn`, but for an empty last one
(`filter_pieces`).
-/

namespace Fields

variable {α : Type*} [DecidableEq α] (d : α)

/-- The text before the delimiter, and what is left behind it. -/
def getline : List α → Option (List α × List α)
  | [] => none
  | a :: text => some ((a :: text).takeWhile (· ≠ d), ((a :: text).dropWhile (· ≠ d)).tail)

/-- The loop. A call that does not fail takes at least one symbol, so the length of the text is
fuel enough. -/
def piecesWithin : ℕ → List α → List (List α)
  | 0, _ => []
  | fuel + 1, text =>
    match getline d text with
    | none => []
    | some (piece, rest) => piece :: piecesWithin fuel rest

def pieces (text : List α) : List (List α) := piecesWithin d text.length text

variable {d}

/-! ## One call -/

theorem forall_ne {piece : List α} (h : d ∉ piece) : ∀ a ∈ piece, decide (a ≠ d) = true := by
  intro a ha
  exact decide_eq_true fun heq => h (heq ▸ ha)

theorem getline_append {piece : List α} (h : d ∉ piece) (rest : List α) :
    getline d (piece ++ d :: rest) = some (piece, rest) := by
  rcases htext : piece ++ d :: rest with _ | ⟨a, text⟩
  · simp at htext
  rw [getline, ← htext, List.takeWhile_append_of_pos (forall_ne h),
    List.dropWhile_append_of_pos (forall_ne h)]
  simp

theorem getline_of_notMem {piece : List α} (hpiece : piece ≠ []) (h : d ∉ piece) :
    getline d piece = some (piece, []) := by
  rcases piece with _ | ⟨a, text⟩
  · exact absurd rfl hpiece
  rw [getline, List.takeWhile_eq_self_iff.2 (forall_ne h),
    List.dropWhile_eq_nil_iff.2 (forall_ne h)]
  rfl

/-- A call ends at the first delimiter, or at the end of a text without one. -/
theorem getline_eq_some {text piece rest : List α} (h : getline d text = some (piece, rest)) :
    d ∉ piece ∧ text ≠ [] ∧ (text = piece ++ d :: rest ∨ text = piece ∧ rest = []) := by
  by_cases hd : d ∈ text
  · obtain ⟨front, behind, rfl, hfront⟩ := List.eq_append_cons_of_mem hd
    rw [getline_append hfront] at h
    cases h
    exact ⟨hfront, by simp, .inl rfl⟩
  · rcases text with _ | ⟨a, text⟩
    · cases h
    · rw [getline_of_notMem (List.cons_ne_nil a text) hd] at h
      cases h
      exact ⟨hd, List.cons_ne_nil a text, .inr ⟨rfl, rfl⟩⟩

/-! ## The loop -/

theorem piecesWithin_eq : ∀ {fuel : ℕ} {text : List α}, text.length ≤ fuel →
    piecesWithin d fuel text = pieces d text := by
  have hsame : ∀ (n m : ℕ) (text : List α), text.length ≤ n → text.length ≤ m →
      piecesWithin d n text = piecesWithin d m text := by
    intro n
    induction n with
    | zero =>
      intro m text hn _
      obtain rfl := List.eq_nil_of_length_eq_zero (Nat.le_zero.1 hn)
      cases m <;> rfl
    | succ n ih =>
      intro m text hn hm
      rcases m with _ | m
      · obtain rfl := List.eq_nil_of_length_eq_zero (Nat.le_zero.1 hm)
        rfl
      rw [piecesWithin, piecesWithin]
      rcases hline : getline d text with _ | ⟨piece, rest⟩
      · rfl
      obtain ⟨-, hne, rfl | ⟨rfl, rfl⟩⟩ := getline_eq_some hline
      · simp only [List.length_append, List.length_cons] at hn hm
        exact congrArg _ (ih m rest (by omega) (by omega))
      · exact congrArg _ (ih m [] (Nat.zero_le _) (Nat.zero_le _))
  intro fuel text hfuel
  exact hsame _ _ _ hfuel (Nat.le_refl _)

@[simp] theorem pieces_nil : pieces d [] = [] := rfl

theorem pieces_append {piece : List α} (h : d ∉ piece) (rest : List α) :
    pieces d (piece ++ d :: rest) = piece :: pieces d rest := by
  have hlength : (piece ++ d :: rest).length = (piece.length + rest.length) + 1 := by
    rw [List.length_append, List.length_cons]
    omega
  rw [pieces, hlength, piecesWithin, getline_append h]
  exact congrArg _ (piecesWithin_eq (Nat.le_add_left _ _))

theorem pieces_of_notMem {piece : List α} (hpiece : piece ≠ []) (h : d ∉ piece) :
    pieces d piece = [piece] := by
  obtain ⟨n, hn⟩ : ∃ n, piece.length = n + 1 :=
    Nat.exists_eq_succ_of_ne_zero (by simpa using hpiece)
  rw [pieces, hn, piecesWithin, getline_of_notMem hpiece h]
  exact congrArg _ (piecesWithin_eq (Nat.zero_le _))

theorem notMem_of_mem_piecesWithin : ∀ {fuel : ℕ} {text piece : List α},
    piece ∈ piecesWithin d fuel text → d ∉ piece
  | 0, _, _, h => by cases h
  | fuel + 1, text, piece, h => by
    rw [piecesWithin] at h
    rcases hline : getline d text with _ | ⟨first, rest⟩
    · rw [hline] at h
      cases h
    · rw [hline] at h
      rcases List.mem_cons.1 h with rfl | hrest
      · exact (getline_eq_some hline).1
      · exact notMem_of_mem_piecesWithin hrest

/-- No piece holds the delimiter. -/
theorem notMem_of_mem_pieces {text piece : List α} (h : piece ∈ pieces d text) : d ∉ piece :=
  notMem_of_mem_piecesWithin h

/-- But for an empty last one, the pieces are those between the delimiters. -/
theorem filter_pieces {p : List α → Bool} (hp : p [] = false) (text : List α) :
    (pieces d text).filter p = (text.splitOn d).filter p := by
  induction hlength : text.length using Nat.strongRecOn generalizing text with
  | ind n ih =>
    subst hlength
    by_cases hd : d ∈ text
    · obtain ⟨front, behind, rfl, hfront⟩ := List.eq_append_cons_of_mem hd
      have hrest := ih behind.length (by simp; omega) behind rfl
      rw [pieces_append hfront, List.splitOn_append_cons_self_of_not_mem hfront,
        List.filter_cons, List.filter_cons, hrest]
    · rcases htext : text with _ | ⟨a, rest⟩
      · simp [hp]
      · rw [← htext, List.splitOn_eq_singleton hd, pieces_of_notMem (by simp [htext]) hd]

end Fields

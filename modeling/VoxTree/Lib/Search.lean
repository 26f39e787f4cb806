import Mathlib.Data.List.Basic
import Mathlib.Tactic.Common

/-!
# The first occurrence of a pattern, and a stream cut into chunks

What stands behind an occurrence does not move it, so the first occurrence in a stream is found in
exactly those of its prefixes that reach over it. A stream that is received in chunks is the
concatenation of the chunks, and can be cut at any place into chunks of any positive limit.
-/

namespace Search

variable {α : Type*}

section Find

variable [DecidableEq α]

/-- The position of the first occurrence. -/
def find (pattern : List α) : List α → Option ℕ
  | [] => if pattern = [] then some 0 else none
  | a :: l => if pattern <+: a :: l then some 0 else (find pattern l).map (· + 1)

variable {pattern : List α}

theorem find_cons_of_not {a : α} {l : List α} (h : ¬pattern <+: a :: l) :
    find pattern (a :: l) = (find pattern l).map (· + 1) := if_neg h

/-- Where something is found it stands. -/
theorem find_sound : ∀ {l : List α} {n : ℕ}, find pattern l = some n → pattern <+: l.drop n
  | [], n, h => by
    unfold find at h
    split_ifs at h with hpattern
    rw [hpattern]
    exact List.nil_prefix
  | a :: l, n, h => by
    by_cases hfront : pattern <+: a :: l
    · rw [find, if_pos hfront] at h
      obtain rfl := Option.some.inj h
      exact hfront
    · rw [find_cons_of_not hfront, Option.map_eq_some_iff] at h
      obtain ⟨m, hm, rfl⟩ := h
      simpa using find_sound hm

/-- What stands somewhere is found, there or before. -/
theorem exists_find : ∀ {l : List α} {n : ℕ}, pattern <+: l.drop n →
    ∃ m ≤ n, find pattern l = some m
  | [], n, h => by
    rw [List.drop_nil, List.prefix_nil] at h
    exact ⟨0, Nat.zero_le n, if_pos h⟩
  | a :: l, n, h => by
    by_cases hfront : pattern <+: a :: l
    · exact ⟨0, Nat.zero_le n, if_pos hfront⟩
    rcases n with _ | n
    · exact absurd h hfront
    · obtain ⟨m, hle, hm⟩ := exists_find (l := l) (n := n) h
      refine ⟨m + 1, Nat.succ_le_succ hle, ?_⟩
      rw [find_cons_of_not hfront, hm]
      rfl

/-- An occurrence lies within the text. -/
theorem find_le (hpattern : pattern ≠ []) {l : List α} {n : ℕ} (h : find pattern l = some n) :
    n + pattern.length ≤ l.length := by
  have hlength := (find_sound h).length_le
  have hpositive : 0 < pattern.length := List.length_pos_iff.2 hpattern
  rw [List.length_drop] at hlength
  omega

theorem find_append (hpattern : pattern ≠ []) (r : List α) : ∀ {l : List α} {n : ℕ},
    find pattern l = some n → find pattern (l ++ r) = some n
  | [], n, h => by
    rw [find, if_neg hpattern] at h
    cases h
  | a :: l, n, h => by
    by_cases hfront : pattern <+: a :: l
    · rw [find, if_pos hfront] at h
      have hlong : pattern <+: a :: (l ++ r) := hfront.trans (List.prefix_append (a :: l) r)
      rw [List.cons_append, find, if_pos hlong, h]
    · rw [find_cons_of_not hfront, Option.map_eq_some_iff] at h
      obtain ⟨m, hm, rfl⟩ := h
      -- an occurrence in front of the one behind it would end within the text
      have hnot : ¬pattern <+: a :: (l ++ r) := by
        intro hlong
        have hle := find_le hpattern hm
        have hlong' : pattern <+: (a :: l) ++ r := hlong
        exact hfront (List.prefix_of_prefix_length_le hlong' (List.prefix_append _ _)
          (by rw [List.length_cons]; omega))
      rw [List.cons_append, find_cons_of_not hnot, find_append hpattern r hm]
      rfl

/-- A prefix that reaches over the first occurrence has it too. -/
theorem find_of_reached (hpattern : pattern ≠ []) {l whole : List α} (hfront : l <+: whole) {n : ℕ}
    (h : find pattern whole = some n) (hlength : n + pattern.length ≤ l.length) :
    find pattern l = some n := by
  obtain ⟨r, rfl⟩ := hfront
  have hstands : pattern <+: l.drop n := by
    have hdrop := find_sound h
    rw [List.drop_append_of_le_length (by omega)] at hdrop
    exact List.prefix_of_prefix_length_le hdrop (List.prefix_append _ _)
      (by rw [List.length_drop]; omega)
  obtain ⟨m, -, hm⟩ := exists_find hstands
  rw [hm, ← h, ← find_append hpattern r hm]

/-- A prefix that ends within the first occurrence has none. -/
theorem find_eq_none_of_lt (hpattern : pattern ≠ []) {l whole : List α} (hfront : l <+: whole)
    {n : ℕ} (h : find pattern whole = some n) (hlength : l.length < n + pattern.length) :
    find pattern l = none := by
  obtain ⟨r, rfl⟩ := hfront
  rcases hfind : find pattern l with _ | m
  · rfl
  · have hsame : m = n := Option.some.inj ((find_append hpattern r hfind).symm.trans h)
    have hle := find_le hpattern hfind
    omega

theorem find_eq_none_of_none (hpattern : pattern ≠ []) {l whole : List α}
    (hfront : l <+: whole) (h : find pattern whole = none) : find pattern l = none := by
  obtain ⟨r, rfl⟩ := hfront
  rcases hfind : find pattern l with _ | m
  · rfl
  · rw [find_append hpattern r hfind] at h
    cases h

/-- Nothing is found where its first symbol does not stand. -/
theorem find_append_of_notMem {a : α} {p : List α} (l : List α) : ∀ {front : List α}, a ∉ front →
    find (a :: p) (front ++ l) = (find (a :: p) l).map (· + front.length)
  | [], _ => by simp
  | b :: front, h => by
    have hne : a ≠ b := fun heq => h (heq ▸ List.mem_cons_self)
    have hnot : ¬a :: p <+: b :: (front ++ l) := by
      rw [List.cons_prefix_cons]
      exact fun hboth => hne hboth.1
    rw [List.cons_append, find_cons_of_not hnot,
      find_append_of_notMem l fun hmem => h (List.mem_cons_of_mem b hmem), Option.map_map]
    rfl

end Find

/-! ## Chunks -/

/-- A stream as it is received. -/
structure Cut (limit : ℕ) (stream : List α) (chunks : List (List α)) : Prop where
  flatten : chunks.flatten = stream
  size : ∀ chunk ∈ chunks, 1 ≤ chunk.length ∧ chunk.length ≤ limit

theorem Cut.append {limit : ℕ} {front back : List α} {chunks chunks' : List (List α)}
    (h : Cut limit front chunks) (h' : Cut limit back chunks') :
    Cut limit (front ++ back) (chunks ++ chunks') where
  flatten := by rw [List.flatten_append, h.flatten, h'.flatten]
  size chunk hchunk := (List.mem_append.1 hchunk).elim (h.size chunk) (h'.size chunk)

/-- One symbol at a time. -/
def singles (l : List α) : List (List α) := l.map fun a => [a]

theorem flatten_singles (l : List α) : (singles l).flatten = l := by
  unfold singles
  induction l with
  | nil => rfl
  | cons a l ih => rw [List.map_cons, List.flatten_cons, ih, List.singleton_append]

theorem cut_singles {limit : ℕ} (hlimit : 1 ≤ limit) (l : List α) : Cut limit l (singles l) where
  flatten := flatten_singles l
  size chunk hchunk := by
    obtain ⟨a, -, rfl⟩ := List.mem_map.1 hchunk
    exact ⟨Nat.le_refl 1, hlimit⟩

theorem cut_single {limit : ℕ} {l : List α} (hpositive : 1 ≤ l.length) (hlimit : l.length ≤ limit) :
    Cut limit l [l] where
  flatten := by rw [List.flatten_singleton]
  size chunk hchunk := by
    obtain rfl := List.mem_singleton.1 hchunk
    exact ⟨hpositive, hlimit⟩

end Search

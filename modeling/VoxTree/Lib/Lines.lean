import VoxTree.Lib.Search

/-!
# Text in lines, up to an empty line

Each line ends with two symbols, of which the first stands in no line. A text of lines that are not
empty, an empty line and anything behind it: the end of the first line and the empty line are found
where they were written (`find_lineEnd`, `find_blank`).
-/

namespace Lines

open Search

variable {α : Type*} [DecidableEq α] (cr lf : α)

/-- The lines with their ends. -/
def join (lines : List (List α)) : List α := lines.flatMap (· ++ [cr, lf])

variable {cr lf}

omit [DecidableEq α] in
theorem join_cons (line : List α) (lines : List (List α)) :
    join cr lf (line :: lines) = line ++ (cr :: lf :: join cr lf lines) := by
  simp [join]

omit [DecidableEq α] in
theorem join_append (lines lines' : List (List α)) :
    join cr lf (lines ++ lines') = join cr lf lines ++ join cr lf lines' := List.flatMap_append

omit [DecidableEq α] in
theorem length_join_cons (line : List α) (lines : List (List α)) :
    (join cr lf (line :: lines)).length = line.length + 2 + (join cr lf lines).length := by
  rw [join_cons, List.length_append, List.length_cons, List.length_cons]
  omega

/-- A symbol is found behind a text without it. -/
theorem find_symbol {a : α} {front : List α} (h : a ∉ front) (rest : List α) :
    find [a] (front ++ (a :: rest)) = some front.length := by
  have hfront : [a] <+: a :: rest := ⟨rest, rfl⟩
  rw [find_append_of_notMem _ h, find, if_pos hfront]
  simp

/-- The end of a line is found behind it. -/
theorem find_lineEnd {line : List α} (h : cr ∉ line) (rest : List α) :
    find [cr, lf] (line ++ (cr :: lf :: rest)) = some line.length := by
  have hfront : [cr, lf] <+: cr :: lf :: rest := ⟨rest, rfl⟩
  rw [find_append_of_notMem _ h, find, if_pos hfront]
  simp

/-- The empty line is found behind the lines. -/
theorem find_blank (hne : cr ≠ lf) (rest : List α) : ∀ {line : List α} {lines : List (List α)},
    cr ∉ line → (∀ l ∈ lines, l ≠ [] ∧ cr ∉ l) →
      find [cr, lf, cr, lf] (join cr lf (line :: lines) ++ (cr :: lf :: rest))
        = some ((join cr lf (line :: lines)).length - 2)
  | line, [], hline, _ => by
    have hfront : [cr, lf, cr, lf] <+: cr :: lf :: cr :: lf :: rest := ⟨rest, rfl⟩
    rw [join_cons, List.append_assoc, find_append_of_notMem _ hline]
    show (find _ (cr :: lf :: cr :: lf :: rest)).map _ = _
    rw [find, if_pos hfront]
    simp [join]
  | line, next :: lines, hline, hlines => by
    obtain ⟨hnext, hlines⟩ := List.forall_mem_cons.1 hlines
    have ih := find_blank hne rest hnext.2 hlines
    obtain ⟨first, tail, hfirst⟩ := List.exists_cons_of_ne_nil hnext.1
    have hcr : first ≠ cr := fun heq => hnext.2 (by rw [hfirst, heq]; exact List.mem_cons_self)
    -- a line that is not empty stands between two ends
    have hnot : ¬[cr, lf, cr, lf] <+: cr :: lf :: (join cr lf (next :: lines)
        ++ (cr :: lf :: rest)) := by
      rw [join_cons, hfirst]
      simp [hcr.symm]
    have hlf : cr ∉ [lf] := by simpa using hne
    have hsplit : lf :: (join cr lf (next :: lines) ++ (cr :: lf :: rest))
        = [lf] ++ (join cr lf (next :: lines) ++ (cr :: lf :: rest)) := rfl
    rw [join_cons, List.append_assoc, find_append_of_notMem _ hline]
    show (find _ (cr :: lf :: (join cr lf (next :: lines) ++ (cr :: lf :: rest)))).map _ = _
    rw [find_cons_of_not hnot, hsplit, find_append_of_notMem _ hlf, ih]
    have hlength : (join cr lf (next :: lines)).length = next.length + 2 + (join cr lf lines).length :=
      length_join_cons next lines
    simp only [Option.map_some, List.length_append, List.length_cons, List.length_nil,
      Option.some.injEq]
    omega

end Lines

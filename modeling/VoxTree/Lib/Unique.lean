import Mathlib.Data.List.Sort
import Mathlib.Tactic.Common

/-!
# Sorting and removing repetitions

`eraseReps` keeps one element of each run. In a sorted list the equal elements are one run, so
what is left lists every element once (`nodup_eraseReps`), and is told by which elements it lists
(`eq_of_sorted`).
-/

namespace Unique

variable {α : Type*} [DecidableEq α]

theorem eraseReps_loop (a : α) : ∀ (l acc : List α),
    List.eraseRepsBy.loop (· == ·) a l acc = acc.reverse ++ List.eraseRepsBy.loop (· == ·) a l []
  | [], acc => by simp [List.eraseRepsBy.loop]
  | b :: l, acc => by
    rcases hab : a == b with _ | _
    · simp only [List.eraseRepsBy.loop, hab]
      rw [eraseReps_loop b l (a :: acc), eraseReps_loop b l [a], List.reverse_cons]
      simp
    · simp only [List.eraseRepsBy.loop, hab]
      exact eraseReps_loop a l acc

theorem eraseReps_cons_cons (a b : α) (l : List α) :
    (a :: b :: l).eraseReps = if a = b then (a :: l).eraseReps else a :: (b :: l).eraseReps := by
  show List.eraseRepsBy.loop (· == ·) a (b :: l) [] = _
  split_ifs with hab
  · simp [List.eraseRepsBy.loop, hab]
    rfl
  · have hne : (a == b) = false := by simpa using hab
    simp only [List.eraseRepsBy.loop, hne]
    rw [eraseReps_loop]
    rfl

theorem mem_eraseReps {x : α} : ∀ {l : List α}, x ∈ l.eraseReps ↔ x ∈ l
  | [] => Iff.rfl
  | [_] => Iff.rfl
  | a :: b :: l => by
    rw [eraseReps_cons_cons]
    split_ifs with hab
    · subst hab
      rw [mem_eraseReps]
      simp
    · rw [List.mem_cons, mem_eraseReps, ← List.mem_cons]

theorem eraseReps_sublist : ∀ l : List α, l.eraseReps.Sublist l
  | [] => .refl _
  | [a] => .refl _
  | a :: b :: l => by
    rw [eraseReps_cons_cons]
    split_ifs with hab
    · subst hab
      exact (eraseReps_sublist (a :: l)).trans (.cons a (.refl _))
    · exact (eraseReps_sublist (b :: l)).cons_cons a

theorem nodup_eraseReps {r : α → α → Prop} [Std.Antisymm r] : ∀ {l : List α}, l.Pairwise r →
    l.eraseReps.Nodup
  | [], _ => List.nodup_nil
  | [a], _ => List.nodup_singleton a
  | a :: b :: l, h => by
    obtain ⟨ha, hrest⟩ := List.pairwise_cons.1 h
    rw [eraseReps_cons_cons]
    split_ifs with hab
    · exact nodup_eraseReps (List.pairwise_cons.2
        ⟨fun c hc => ha c (List.mem_cons_of_mem b hc), hrest.of_cons⟩)
    · refine List.nodup_cons.2 ⟨fun hmem => ?_, nodup_eraseReps hrest⟩
      rcases List.mem_cons.1 (mem_eraseReps.1 hmem) with heq | hlater
      · exact hab heq
      · have hba := (List.pairwise_cons.1 hrest).1 a hlater
        exact hab (Std.Antisymm.antisymm a b (ha b List.mem_cons_self) hba)

omit [DecidableEq α] in
/-- Sorted lists that list the same elements once are the same list. -/
theorem eq_of_sorted {r : α → α → Prop} [Std.Antisymm r] {l l' : List α} (hl : l.Pairwise r)
    (hl' : l'.Pairwise r) (hnodup : l.Nodup) (hnodup' : l'.Nodup) (h : ∀ x, x ∈ l ↔ x ∈ l') :
    l = l' :=
  ((List.perm_ext_iff_of_nodup hnodup hnodup').2 h).eq_of_pairwise' hl hl'

end Unique

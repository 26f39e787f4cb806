import Mathlib.Data.List.Sort
import Mathlib.Order.Basic
import Mathlib.Tactic.Common

/-!
# Reading a log from a cursor

The entries of a log have ascending keys. A reader asks for the first entries behind his cursor and
goes on from the last one. What he has read and what is left to read are the entries on the two
sides of his cursor (`read_append_page`, `unread_next`), whichever numbers he asks for.
-/

namespace CursorLog

variable {ε κ : Type*} [LinearOrder κ] (key : ε → κ)

def Ascending (log : List ε) : Prop := log.Pairwise fun a b => key a < key b

/-- The entries up to the cursor. -/
def read (log : List ε) (cursor : κ) : List ε := log.filter fun e => key e ≤ cursor

/-- The entries behind the cursor. -/
def unread (log : List ε) (cursor : κ) : List ε := log.filter fun e => cursor < key e

/-- The cursor after the entries of a page. -/
def next (cursor : κ) (page : List ε) : κ := (page.getLast?.map key).getD cursor

variable {key} {log : List ε} {cursor : κ}

theorem Ascending.sublist {log' : List ε} (h : Ascending key log) (hsub : log'.Sublist log) :
    Ascending key log' :=
  List.Pairwise.sublist hsub h

/-- An entry that is appended is behind the cursor or not. -/
theorem unread_append_singleton (log : List ε) (cursor : κ) (e : ε) :
    unread key (log ++ [e]) cursor
      = unread key log cursor ++ if cursor < key e then [e] else [] := by
  unfold unread
  rw [List.filter_append, List.filter_singleton]
  simp only [Bool.cond_decide]

theorem read_append_of_lt {more : List ε} (h : ∀ e ∈ more, cursor < key e) :
    read key (log ++ more) cursor = read key log cursor := by
  have hnone : read key more cursor = [] :=
    List.filter_eq_nil_iff.2 fun e he => by simpa using h e he
  unfold read at hnone ⊢
  rw [List.filter_append, hnone, List.append_nil]

theorem unread_filter (p : ε → Bool) :
    unread key (log.filter p) cursor = (unread key log cursor).filter p := by
  unfold unread
  exact List.filter_comm _ _ _

/-- What is taken out behind the cursor has not been read. -/
theorem read_filter {p : ε → Bool} (h : ∀ e ∈ log, key e ≤ cursor → p e = true) :
    read key (log.filter p) cursor = read key log cursor := by
  unfold read
  rw [List.filter_filter]
  refine List.filter_congr fun e he => ?_
  by_cases hle : key e ≤ cursor
  · simp [hle, h e he hle]
  · simp [hle]

theorem read_append_unread (h : Ascending key log) :
    read key log cursor ++ unread key log cursor = log := by
  induction log with
  | nil => rfl
  | cons e log ih =>
    obtain ⟨hhead, hrest⟩ := List.pairwise_cons.1 h
    rcases le_or_gt (key e) cursor with hle | hlt
    · simp only [read, unread, List.filter_cons, hle, decide_true, if_true, not_lt.2 hle,
        decide_false, Bool.false_eq_true, if_false, List.cons_append]
      exact congrArg (e :: ·) (ih hrest)
    · have hread : read key (e :: log) cursor = [] :=
        List.filter_eq_nil_iff.2 fun x hx => by
          rcases List.mem_cons.1 hx with rfl | hx
          · simpa using hlt
          · simpa using hlt.trans (hhead x hx)
      rw [hread, List.nil_append]
      refine List.filter_eq_self.2 fun x hx => decide_eq_true ?_
      rcases List.mem_cons.1 hx with rfl | hx
      · exact hlt
      · exact hlt.trans (hhead x hx)

theorem unread_ascending (h : Ascending key log) : Ascending key (unread key log cursor) :=
  h.sublist List.filter_sublist

/-- Behind a later cursor are the entries that were behind an earlier one. -/
theorem unread_unread {cursor' : κ} (h : cursor ≤ cursor') :
    unread key (unread key log cursor) cursor' = unread key log cursor' := by
  unfold unread
  rw [List.filter_filter]
  refine List.filter_congr fun e _ => ?_
  rw [Bool.eq_iff_iff, Bool.and_eq_true, decide_eq_true_eq, decide_eq_true_eq]
  exact ⟨And.left, fun hlt => ⟨hlt, h.trans_lt hlt⟩⟩

theorem le_next (log : List ε) (n : ℕ) :
    cursor ≤ next key cursor ((unread key log cursor).take n) := by
  unfold next
  rcases hlast : ((unread key log cursor).take n).getLast? with _ | e
  · exact le_refl _
  · have hmem := List.mem_of_mem_take (List.mem_of_getLast? hlast)
    exact (of_decide_eq_true (List.mem_filter.1 hmem).2).le

/-- After a page the rest of the entries behind the cursor is left. -/
theorem unread_next (h : Ascending key log) (n : ℕ) :
    unread key log (next key cursor ((unread key log cursor).take n))
      = (unread key log cursor).drop n := by
  have hascending : Ascending key (unread key log cursor) := unread_ascending h
  have hle : cursor ≤ next key cursor ((unread key log cursor).take n) := le_next log n
  generalize hpage : (unread key log cursor).take n = page at hle ⊢
  generalize hrest : (unread key log cursor).drop n = rest
  have hsplit : unread key log cursor = page ++ rest := by
    rw [← hpage, ← hrest, List.take_append_drop]
  rw [← unread_unread hle, hsplit]
  rw [hsplit] at hascending
  obtain ⟨hpageOrder, -, hacross⟩ := List.pairwise_append.1 hascending
  rcases List.eq_nil_or_concat' page with rfl | ⟨front, last, rfl⟩
  · have hall : unread key rest cursor = rest := by
      rw [List.nil_append] at hsplit
      rw [← hsplit]
      exact List.filter_eq_self.2 fun e he => (List.mem_filter.1 he).2
    exact hall
  have hnext : next key cursor (front ++ [last]) = key last := by simp [next]
  rw [hnext]
  have hnone : unread key (front ++ [last]) (key last) = [] := by
    refine List.filter_eq_nil_iff.2 fun e he => ?_
    rcases List.mem_append.1 he with he | he
    · have hlt := (List.pairwise_append.1 hpageOrder).2.2 e he last List.mem_cons_self
      simpa using hlt.le
    · rw [List.mem_singleton.1 he]
      simp
  have hall : unread key rest (key last) = rest := List.filter_eq_self.2 fun e he =>
    decide_eq_true (hacross last (List.mem_append_right _ List.mem_cons_self) e he)
  unfold unread at hnone hall ⊢
  rw [List.filter_append, hnone, hall, List.nil_append]

/-- What has been read grows by the page. -/
theorem read_append_page (h : Ascending key log) (n : ℕ) :
    read key log (next key cursor ((unread key log cursor).take n))
      = read key log cursor ++ (unread key log cursor).take n := by
  have hwhole : read key log cursor ++ unread key log cursor = log := read_append_unread h
  have hwhole' : read key log (next key cursor ((unread key log cursor).take n))
      ++ unread key log (next key cursor ((unread key log cursor).take n)) = log :=
    read_append_unread h
  rw [unread_next h] at hwhole'
  have hsame : read key log (next key cursor ((unread key log cursor).take n))
      ++ (unread key log cursor).drop n
        = read key log cursor ++ (unread key log cursor).take n
          ++ (unread key log cursor).drop n := by
    rw [hwhole', List.append_assoc, List.take_append_drop, hwhole]
  exact List.append_cancel_right hsame

end CursorLog

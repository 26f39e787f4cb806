import Mathlib.Algebra.Order.Group.Defs
import Mathlib.Algebra.Order.Sub.Basic
import Mathlib.Data.List.Induction
import Mathlib.Tactic.Common

/-!
# A sliding window kept as a queue

A limiter keeps the times of the requests it accepted, drops those up to a bound that it computes
from the time of a request, and accepts while fewer than a limit are left. As long as the times and
the bounds do not decrease, what it has dropped would not have counted again: its answers are those
of the window over all the accepted requests (`admits_iff`), and where the bounds are a window's, no
window holds more of these than the limit (`accepted_le`).
-/

namespace SlidingWindow

variable {τ : Type*} [LinearOrder τ]

/-- In a sorted list, dropping from the front leaves exactly what is above the bound. -/
theorem dropWhile_le_eq_filter {l : List τ} (h : l.Pairwise (· ≤ ·)) (bound : τ) :
    l.dropWhile (fun t => t ≤ bound) = l.filter fun t => bound < t := by
  induction l with
  | nil => rfl
  | cons a l ih =>
    obtain ⟨ha, hl⟩ := List.pairwise_cons.1 h
    by_cases hab : a ≤ bound
    · rw [List.dropWhile_cons_of_pos (by simpa using hab),
        List.filter_cons_of_neg (by simpa using hab), ih hl]
    · rw [List.dropWhile_cons_of_neg (by simpa using hab)]
      refine (List.filter_eq_self.2 fun t ht => ?_).symm
      rcases List.mem_cons.1 ht with rfl | ht
      · simpa using hab
      · simpa using (not_le.1 hab).trans_le (ha t ht)

/-- What is above the bound. -/
def inside (bound : τ → τ) (kept : List τ) (now : τ) : List τ :=
  kept.dropWhile fun t => t ≤ bound now

/-- Drop what has left the window, then take the request if there is room. -/
def accept (limit : ℕ) (bound : τ → τ) (kept : List τ) (now : τ) : Bool × List τ :=
  if (inside bound kept now).length < limit then (true, inside bound kept now ++ [now])
  else (false, inside bound kept now)

/-- The requests at the given times, each with its answer. -/
def record (limit : ℕ) (bound : τ → τ) : List τ → List τ → List (τ × Bool)
  | _, [] => []
  | kept, now :: later =>
    (now, (accept limit bound kept now).1)
      :: record limit bound (accept limit bound kept now).2 later

/-- What is kept after the requests. -/
def keptAfter (limit : ℕ) (bound : τ → τ) (kept times : List τ) : List τ :=
  times.foldl (fun kept now => (accept limit bound kept now).2) kept

/-- The accepted times of a record. -/
def accepted (r : List (τ × Bool)) : List τ := (r.filter Prod.snd).map Prod.fst

variable {limit : ℕ} {bound : τ → τ}

theorem record_append (kept earlier later : List τ) :
    record limit bound kept (earlier ++ later)
      = record limit bound kept earlier
        ++ record limit bound (keptAfter limit bound kept earlier) later := by
  induction earlier generalizing kept with
  | nil => rfl
  | cons t ts ih => simp [record, keptAfter, ih]

theorem keptAfter_concat (kept times : List τ) (now : τ) :
    keptAfter limit bound kept (times ++ [now])
      = (accept limit bound (keptAfter limit bound kept times) now).2 := by
  simp [keptAfter]

/-- The times of a record are those of the requests. -/
theorem record_times (kept times : List τ) :
    (record limit bound kept times).map Prod.fst = times := by
  induction times generalizing kept with
  | nil => rfl
  | cons t ts ih => simp [record, ih]

theorem mem_of_mem_accepted {kept times : List τ} {t : τ}
    (h : t ∈ accepted (record limit bound kept times)) : t ∈ times := by
  obtain ⟨e, he, rfl⟩ := List.mem_map.1 h
  have htimes : (record limit bound kept times).map Prod.fst = times := record_times kept times
  rw [← htimes]
  exact List.mem_map_of_mem (List.mem_filter.1 he).1

/-- The accepted requests are those before and, if it is answered so, the last one. -/
theorem accepted_concat (times : List τ) (now : τ) :
    accepted (record limit bound [] (times ++ [now]))
      = accepted (record limit bound [] times)
        ++ if (accept limit bound (keptAfter limit bound [] times) now).1 then [now] else [] := by
  rw [record_append]
  simp only [accepted, record, List.filter_append, List.map_append]
  split <;> simp_all

theorem accepted_sorted {times : List τ} (h : times.Pairwise (· ≤ ·)) :
    (accepted (record limit bound [] times)).Pairwise (· ≤ ·) := by
  have hsub : (accepted (record limit bound [] times)).Sublist times := by
    have := (List.filter_sublist (p := Prod.snd) (l := record limit bound [] times)).map Prod.fst
    rwa [record_times] at this
  exact h.sublist hsub

/-- What is inside the window at a later time are the accepted requests inside it, whatever was
dropped before. -/
theorem inside_eq {times : List τ} (h : times.Pairwise (· ≤ ·)) {now : τ}
    (hnow : ∀ t ∈ times, t ≤ now)
    (hbound : (times ++ [now]).Pairwise fun t t' => bound t ≤ bound t') :
    inside bound (keptAfter limit bound [] times) now
      = (accepted (record limit bound [] times)).filter fun t => bound now < t := by
  induction times using List.reverseRecOn generalizing now with
  | nil => rfl
  | append_singleton earlier last ih =>
    obtain ⟨hearlier, -, hlast⟩ := List.pairwise_append.1 h
    have hbefore : ∀ t ∈ earlier, t ≤ last := fun t ht => hlast t ht last (by simp)
    obtain ⟨hbounds, -, hnext⟩ := List.pairwise_append.1 hbound
    have hle : bound last ≤ bound now := hnext last (by simp) now (by simp)
    have hinside := ih hearlier hbefore hbounds
    -- what is inside now was inside at the last request
    have htwice :
        ((accepted (record limit bound [] earlier)).filter fun t => bound last < t).filter
          (fun t => bound now < t)
          = (accepted (record limit bound [] earlier)).filter fun t => bound now < t := by
      rw [List.filter_filter]
      refine List.filter_congr fun t _ => ?_
      have : bound now < t → bound last < t := hle.trans_lt
      by_cases ht : bound now < t <;> simp [ht, this]
    have hfiltered : ((accepted (record limit bound [] earlier)).filter
        fun t => bound last < t).Pairwise (· ≤ ·) := (accepted_sorted hearlier).filter _
    have haccept : accept limit bound (keptAfter limit bound [] earlier) last
        = if ((accepted (record limit bound [] earlier)).filter
              fun t => bound last < t).length < limit
          then (true, ((accepted (record limit bound [] earlier)).filter
              fun t => bound last < t) ++ [last])
          else (false, (accepted (record limit bound [] earlier)).filter
              fun t => bound last < t) := by
      unfold accept
      rw [hinside]
    rw [keptAfter_concat, accepted_concat, haccept]
    unfold inside
    split
    · rw [dropWhile_le_eq_filter, List.filter_append, htwice, if_pos rfl, List.filter_append]
      refine List.pairwise_append.2 ⟨hfiltered, List.pairwise_singleton _ _, fun a ha b hb => ?_⟩
      exact hlast a (mem_of_mem_accepted (List.mem_filter.1 ha).1) b hb
    · rw [dropWhile_le_eq_filter hfiltered, htwice, if_neg (by simp), List.append_nil]

variable {times : List τ}

/-- A request is accepted iff fewer than the limit were accepted in the window that ends at it. -/
theorem admits_iff {now : τ} (h : (times ++ [now]).Pairwise (· ≤ ·))
    (hbound : (times ++ [now]).Pairwise fun t t' => bound t ≤ bound t') :
    (accept limit bound (keptAfter limit bound [] times) now).1 = true
      ↔ (accepted (record limit bound [] times)).countP
          (fun t => bound now < t ∧ t ≤ now) < limit := by
  obtain ⟨htimes, -, hnow⟩ := List.pairwise_append.1 h
  have hle : ∀ t ∈ times, t ≤ now := fun t ht => hnow t ht now (by simp)
  have hcount : (accepted (record limit bound [] times)).countP
      (fun t => bound now < t ∧ t ≤ now)
        = ((accepted (record limit bound [] times)).filter fun t => bound now < t).length := by
    rw [← List.countP_eq_length_filter]
    refine List.countP_congr fun t ht => ?_
    simp [hle t (mem_of_mem_accepted ht)]
  rw [hcount, ← inside_eq htimes hle hbound]
  unfold accept
  split <;> simp_all

variable [AddCommGroup τ] [IsOrderedAddMonoid τ] {window : τ}

/-- The bounds of a window do not decrease where the times do not. -/
theorem bounds_sorted (h : times.Pairwise (· ≤ ·)) (hbound : ∀ t ∈ times, bound t = t - window) :
    times.Pairwise fun t t' => bound t ≤ bound t' := by
  refine h.imp_of_mem fun {t t'} ht ht' hle => ?_
  rw [hbound t ht, hbound t' ht']
  exact sub_le_sub_right hle window

/-- No window, open on the left, holds more accepted requests than the limit. -/
theorem accepted_le (h : times.Pairwise (· ≤ ·)) (hbound : ∀ t ∈ times, bound t = t - window)
    (start : τ) :
    (accepted (record limit bound [] times)).countP
      (fun t => start < t ∧ t ≤ start + window) ≤ limit := by
  induction times using List.reverseRecOn with
  | nil => simp [accepted, record]
  | append_singleton earlier last ih =>
    obtain ⟨hearlier, -, hlast⟩ := List.pairwise_append.1 h
    have ih := ih hearlier fun t ht => hbound t (List.mem_append_left _ ht)
    rw [accepted_concat]
    split_ifs with hok
    · by_cases hin : start < last ∧ last ≤ start + window
      · -- whatever the window holds counted when the last request was accepted
        have hroom := (admits_iff h (bounds_sorted h hbound)).1 hok
        have hmono : (accepted (record limit bound [] earlier)).countP
            (fun t => start < t ∧ t ≤ start + window)
              ≤ (accepted (record limit bound [] earlier)).countP
                (fun t => bound last < t ∧ t ≤ last) := by
          refine List.countP_mono_left fun t ht hwindow => ?_
          have hwindow : start < t ∧ t ≤ start + window := of_decide_eq_true hwindow
          have hbelow : bound last ≤ start := by
            rw [hbound last (by simp)]
            exact sub_le_iff_le_add.2 hin.2
          have hlast' := hlast t (mem_of_mem_accepted ht) last (by simp)
          exact decide_eq_true ⟨hbelow.trans_lt hwindow.1, hlast'⟩
        rw [List.countP_append, List.countP_singleton, if_pos (decide_eq_true hin)]
        omega
      · rw [List.countP_append, List.countP_singleton, if_neg (by simpa using hin)]
        exact ih
    · rw [List.append_nil]
      exact ih

end SlidingWindow

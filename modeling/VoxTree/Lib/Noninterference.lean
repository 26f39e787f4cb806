import Mathlib.Data.List.Forall2
import Mathlib.Tactic.Common

/-!
# Two runs that an observer cannot tell apart

A machine takes inputs, some of them the observer's own. Where the inputs of others leave the part
of the state that the observer's results are read from, and the observer's own inputs answer alike
and leave equal parts behind, any two runs answer the observer alike (`forall₂_observed`): what
happens in between does not matter.
-/

namespace Noninterference

variable {σ ι κ : Type*}

/-- Every call is made with the part that the call before it left behind. -/
def Linked (step : σ → ι → σ) (part : σ → κ) : κ → List (σ × ι) → Prop
  | _, [] => True
  | k, (s, i) :: calls => part s = k ∧ Linked step part (part (step s i)) calls

section Rule

variable {step : σ → ι → σ} {own : ι → Prop} {part : σ → κ} {agree same : σ × ι → σ × ι → Prop}

/-- Calls that agree one by one, each made with the part that the call before it left behind. -/
theorem forall₂_linked
    (hown : ∀ x y, own x.2 → own y.2 → agree x y → part x.1 = part y.1 →
      same x y ∧ part (step x.1 x.2) = part (step y.1 y.2)) {calls calls' : List (σ × ι)}
    (h : List.Forall₂ agree calls calls') {k : κ} (hlinked : Linked step part k calls)
    (hlinked' : Linked step part k calls') (hall : ∀ x ∈ calls, own x.2)
    (hall' : ∀ y ∈ calls', own y.2) : List.Forall₂ same calls calls' := by
  induction h generalizing k with
  | nil => exact .nil
  | @cons x y calls calls' hxy _ ih =>
    have hequal : part x.1 = part y.1 := hlinked.1.trans hlinked'.1.symm
    obtain ⟨hsame, hleft⟩ := hown x y (hall x List.mem_cons_self) (hall' y List.mem_cons_self) hxy
      hequal
    refine .cons hsame (ih hlinked.2 (hleft ▸ hlinked'.2) ?_ ?_)
    · exact fun z hz => hall z (List.mem_cons_of_mem x hz)
    · exact fun z hz => hall' z (List.mem_cons_of_mem y hz)

end Rule

section Observed

variable (step : σ → ι → σ) (own : ι → Prop) [DecidablePred own]

/-- The observer's inputs in a run, each with the state it is made in. -/
def observed (s : σ) : List ι → List (σ × ι)
  | [] => []
  | i :: is => if own i then (s, i) :: observed (step s i) is else observed (step s i) is

variable {step own}

theorem own_of_mem_observed {x : σ × ι} : ∀ {is : List ι} {s : σ}, x ∈ observed step own s is →
    own x.2
  | i :: is, s, h => by
    unfold observed at h
    split_ifs at h with hown
    · rcases List.mem_cons.1 h with rfl | h
      · exact hown
      · exact own_of_mem_observed h
    · exact own_of_mem_observed h

theorem linked_observed {part : σ → κ} (hother : ∀ s i, ¬own i → part (step s i) = part s) :
    ∀ (is : List ι) (s : σ), Linked step part (part s) (observed step own s is)
  | [], _ => trivial
  | i :: is, s => by
    unfold observed
    split_ifs with hown
    · exact ⟨rfl, linked_observed hother is (step s i)⟩
    · rw [← hother s i hown]
      exact linked_observed hother is (step s i)

/-- The two-run rule: what holds of two calls that agree and are made with equal parts, and leave
equal parts behind, holds of all calls of two runs that agree call by call. -/
theorem forall₂_observed (part : σ → κ) (hother : ∀ s i, ¬own i → part (step s i) = part s)
    {agree same : σ × ι → σ × ι → Prop}
    (hown : ∀ x y, own x.2 → own y.2 → agree x y → part x.1 = part y.1 →
      same x y ∧ part (step x.1 x.2) = part (step y.1 y.2))
    {s s' : σ} {is is' : List ι} (hpart : part s = part s')
    (h : List.Forall₂ agree (observed step own s is) (observed step own s' is')) :
    List.Forall₂ same (observed step own s is) (observed step own s' is') := by
  have hlinked' := linked_observed hother is' s'
  rw [← hpart] at hlinked'
  exact forall₂_linked hown h (linked_observed hother is s) hlinked'
    (fun _ => own_of_mem_observed) fun _ => own_of_mem_observed

end Observed

end Noninterference

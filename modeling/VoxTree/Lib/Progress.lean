import VoxTree.Lib.Machine
import Mathlib.Algebra.BigOperators.Group.Finset.Piecewise
import Mathlib.Tactic.Abel

/-!
# Runs that come to an end

Where every step of some kinds takes something off a measure and no step adds to it, a run has no
more steps of these kinds than the measure had (`countP_le`). The measure of several parties is
a sum, of which a step of one party changes one summand (`sum_update`).
-/

namespace Progress

open Machine

theorem sum_update {ι β M : Type*} [Fintype ι] [DecidableEq ι] [AddCommMonoid M] (f : β → M)
    (parties : ι → β) (i : ι) (x : β) :
    ∑ j, f (Function.update parties i x j) + f (parties i) = ∑ j, f (parties j) + f x := by
  have hother : ∑ j ∈ Finset.univ.erase i, f (Function.update parties i x j)
      = ∑ j ∈ Finset.univ.erase i, f (parties j) :=
    Finset.sum_congr rfl fun j hj => by rw [Function.update_of_ne (Finset.ne_of_mem_erase hj)]
  rw [← Finset.add_sum_erase _ _ (Finset.mem_univ i), hother, Function.update_self,
    ← Finset.add_sum_erase _ (fun j => f (parties j)) (Finset.mem_univ i)]
  abel

variable {σ α : Type*} {step : σ → α → Option σ} {G : σ → α → Prop}

theorem countP_le {counted : α → Bool} {measure : σ → ℕ}
    (hstep : ∀ s a s', G s a → step s a = some s' →
      measure s' + (if counted a then 1 else 0) ≤ measure s)
    {s s' : σ} {as : List α} (h : Runs step G s as s') :
    as.countP counted + measure s' ≤ measure s := by
  induction h with
  | nil s => simp
  | @cons s s₁ s' a as hG hs _ ih =>
    have hfirst := hstep s a s₁ hG hs
    rw [List.countP_cons]
    omega

end Progress

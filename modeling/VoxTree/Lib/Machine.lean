import Mathlib.Tactic.Common

/-!
# Guarded runs of a partial step function

A machine is a step function that is `none` where an action is not enabled. A run is guarded when
every step it takes meets a condition on the state before the step and the action. What one
guarded step preserves, a guarded run preserves (`Runs.invariant`).
-/

namespace Machine

variable {σ α : Type*}

/-- `Runs step G s as s'`: the actions `as` lead from `s` to `s'`, each taken where `G` allows. -/
inductive Runs (step : σ → α → Option σ) (G : σ → α → Prop) : σ → List α → σ → Prop
  | nil (s : σ) : Runs step G s [] s
  | cons {s s₁ s' : σ} {a : α} {as : List α} : G s a → step s a = some s₁ →
      Runs step G s₁ as s' → Runs step G s (a :: as) s'

/-- The condition that allows every step. -/
def Free : σ → α → Prop := fun _ _ => True

/-- Run the actions in order, `none` as soon as one is not enabled. -/
def exec (step : σ → α → Option σ) : σ → List α → Option σ
  | s, [] => some s
  | s, a :: as => (step s a).bind fun s₁ => exec step s₁ as

variable {step : σ → α → Option σ} {G : σ → α → Prop}

theorem Runs.invariant {I : σ → Prop}
    (hstep : ∀ s a s', I s → G s a → step s a = some s' → I s') {s s' : σ} {as : List α}
    (h : Runs step G s as s') (hs : I s) : I s' := by
  induction h with
  | nil => exact hs
  | cons hG hs₁ _ ih => exact ih (hstep _ _ _ hs hG hs₁)

theorem Runs.weaken {G' : σ → α → Prop} (hG : ∀ s a, G s a → G' s a) {s s' : σ} {as : List α}
    (h : Runs step G s as s') : Runs step G' s as s' := by
  induction h with
  | nil => exact .nil _
  | cons hg hs₁ _ ih => exact .cons (hG _ _ hg) hs₁ ih

theorem Runs.append {s s₁ s' : σ} {as as' : List α} (h : Runs step G s as s₁)
    (h' : Runs step G s₁ as' s') : Runs step G s (as ++ as') s' := by
  induction h with
  | nil => exact h'
  | cons hG hs₁ _ ih => exact .cons hG hs₁ (ih h')

/-- A guard may be strengthened by whatever an invariant of the run adds to it. -/
theorem Runs.strengthen {G' : σ → α → Prop} {I : σ → Prop}
    (hstep : ∀ s a s', I s → G s a → step s a = some s' → I s')
    (hG : ∀ s a s', I s → G s a → step s a = some s' → G' s a) {s s' : σ} {as : List α}
    (h : Runs step G s as s') (hs : I s) : Runs step G' s as s' := by
  induction h with
  | nil => exact .nil _
  | cons hg hs₁ _ ih => exact .cons (hG _ _ _ hs hg hs₁) hs₁ (ih (hstep _ _ _ hs hg hs₁))

/-- The step function, `none` also where `g` does not allow the step. -/
def restrict (g : σ → α → Bool) (step : σ → α → Option σ) (s : σ) (a : α) : Option σ :=
  if g s a then step s a else none

/-- An evaluated run is guarded when its guard is checked at every step, which may rely on an
invariant of the steps taken. -/
theorem runs_of_exec_restrict {I : σ → Prop} {P : α → Prop} {g : σ → α → Bool}
    (hstep : ∀ s a s', I s → P a → step s a = some s' → I s')
    (hG : ∀ s a, I s → g s a = true → G s a) : ∀ {as : List α} {s s' : σ}, I s →
      (∀ a ∈ as, P a) → exec (restrict g step) s as = some s' → Runs step G s as s'
  | [], s, s', _, _, h => by
    simp only [exec, Option.some.injEq] at h
    exact h ▸ .nil s
  | a :: as, s, s', hs, hP, h => by
    simp only [exec, Option.bind_eq_some_iff] at h
    obtain ⟨s₁, h₁, h₂⟩ := h
    unfold restrict at h₁
    split at h₁
    · rename_i hg
      exact .cons (hG s a hs hg) h₁ (runs_of_exec_restrict hstep hG
        (hstep s a s₁ hs (hP a List.mem_cons_self) h₁)
        (fun a' ha' => hP a' (List.mem_cons_of_mem _ ha')) h₂)
    · cases h₁

theorem runs_of_exec : ∀ {as : List α} {s s' : σ}, exec step s as = some s' →
    Runs step Free s as s'
  | [], s, s', h => by
    simp only [exec, Option.some.injEq] at h
    exact h ▸ .nil s
  | a :: as, s, s', h => by
    simp only [exec, Option.bind_eq_some_iff] at h
    obtain ⟨s₁, h₁, h₂⟩ := h
    exact .cons trivial h₁ (runs_of_exec h₂)

/-- What an evaluated run ends in. -/
theorem exists_run (step : σ → α → Option σ) (as : List α) {s : σ} {p : σ → Bool}
    (h : (exec step s as).any p = true) :
    ∃ s', Runs step Free s as s' ∧ p s' = true := by
  rcases he : exec step s as with _ | s'
  · simp [he] at h
  · exact ⟨s', runs_of_exec he, by simpa [he] using h⟩

/-- What an evaluated guarded run ends in. -/
theorem exists_run_restrict (g : σ → α → Bool) (step : σ → α → Option σ) (as : List α) {s : σ}
    {p : σ → Bool} (h : (exec (restrict g step) s as).any p = true) :
    ∃ s', Runs step (fun s a => g s a = true) s as s' ∧ p s' = true := by
  rcases he : exec (restrict g step) s as with _ | s'
  · simp [he] at h
  · refine ⟨s', ?_, by simpa [he] using h⟩
    exact runs_of_exec_restrict (I := fun _ => True) (P := fun _ => True)
      (fun _ _ _ _ _ _ => trivial) (fun _ _ _ hg => hg) trivial (fun _ _ => trivial) he

end Machine

import Mathlib.Tactic.Common

/-!
# Maps kept up to date by their latest changes

A map has one value for each version, and somebody who holds it as of version `v` is sent, for each
member of the map of version `w`, the latest change after `v`. What he holds then is right on all
members of `w` (`Agrees.overwrite_latest`), also if members left and came back in between.
-/

namespace ChangeLog

variable {κ α : Type*}

/-- `changes` where it has a value, else `m`. -/
def overwrite (m changes : κ → Option α) : κ → Option α := fun k => (changes k).or (m k)

/-- `m` on the keys of `members`. -/
def restrict (m members : κ → Option α) : κ → Option α := fun k =>
  if (members k).isSome then m k else none

/-- `m` is right on all keys of `full`. -/
def Agrees (m full : κ → Option α) : Prop := ∀ k x, full k = some x → m k = some x

theorem agrees_self (m : κ → Option α) : Agrees m m := fun _ _ h => h

theorem Agrees.restrict_eq {m full : κ → Option α} (h : Agrees m full) :
    restrict m full = full := by
  funext k
  unfold restrict
  rcases hk : full k with _ | x
  · rfl
  · exact h k x hk

theorem Agrees.restrict {m full : κ → Option α} (h : Agrees m full) :
    Agrees (ChangeLog.restrict m full) full := by
  rw [h.restrict_eq]
  exact agrees_self full

variable [DecidableEq α]

/-- What has a new value in `m'`. -/
def changed (m m' : κ → Option α) : κ → Option α := fun k => if m k = m' k then none else m' k

/-- The latest of the changes of `n` versions behind `v`, for `members`. -/
def latest (history : ℕ → κ → Option α) (members : κ → Option α) (v : ℕ) : ℕ → κ → Option α
  | 0 => fun _ => none
  | n + 1 =>
    overwrite (latest history members v n)
      (restrict (changed (history (v + n)) (history (v + n + 1))) members)

theorem latest_congr {history history' : ℕ → κ → Option α} (members : κ → Option α) (v : ℕ) :
    ∀ n, (∀ u ≤ v + n, history u = history' u) →
      latest history members v n = latest history' members v n
  | 0, _ => rfl
  | n + 1, h => by
    unfold latest
    rw [latest_congr members v n fun u hu => h u (by omega), h (v + n) (by omega),
      h (v + n + 1) (by omega)]

/-- A key that was sent has the value sent or is gone, and another one has its old value or is
gone. -/
theorem latest_spec (history : ℕ → κ → Option α) {members : κ → Option α} (v : ℕ) {k : κ}
    (hk : (members k).isSome = true) : ∀ n x,
      (latest history members v n k = some x →
        history (v + n) k = some x ∨ history (v + n) k = none)
      ∧ (latest history members v n k = none →
        history (v + n) k = history v k ∨ history (v + n) k = none)
  | 0, x => ⟨fun h => by simp [latest] at h, fun _ => .inl rfl⟩
  | n + 1, x => by
    have ih := latest_spec history v hk n
    have hstep : latest history members v (n + 1) k
        = (changed (history (v + n)) (history (v + n + 1)) k).or (latest history members v n k) := by
      simp only [latest, overwrite, restrict, hk, if_true]
    rw [hstep, ← Nat.add_assoc]
    by_cases hsame : history (v + n) k = history (v + n + 1) k
    · have hnone : changed (history (v + n)) (history (v + n + 1)) k = none := if_pos hsame
      rw [hnone, Option.none_or, ← hsame]
      exact ih x
    · have hnew : changed (history (v + n)) (history (v + n + 1)) k = history (v + n + 1) k :=
        if_neg hsame
      rw [hnew]
      rcases hlast : history (v + n + 1) k with _ | y
      · exact ⟨fun _ => .inr rfl, fun _ => .inr rfl⟩
      · exact ⟨fun h => .inl h, fun h => by cases h⟩

/-- Only members are sent. -/
theorem isSome_of_latest (history : ℕ → κ → Option α) {members : κ → Option α} (v : ℕ) {k : κ} :
    ∀ n x, latest history members v n k = some x → (members k).isSome = true
  | 0, x, h => by simp [latest] at h
  | n + 1, x, h => by
    by_contra hk
    have hstep : latest history members v (n + 1) k = latest history members v n k := by
      simp [latest, overwrite, restrict, hk]
    rw [hstep] at h
    exact hk (isSome_of_latest history v n x h)

/-- Whoever is right about `v` is right about `v + n` after the latest changes. -/
theorem Agrees.overwrite_latest {history : ℕ → κ → Option α} {m : κ → Option α} {v : ℕ}
    (h : Agrees m (history v)) (n : ℕ) :
    Agrees (overwrite m (latest history (history (v + n)) v n)) (history (v + n)) := by
  intro k x hk
  have hsome : (history (v + n) k).isSome = true := by simp [hk]
  have hspec := latest_spec history v hsome n
  unfold overwrite
  rcases hsent : latest history (history (v + n)) v n k with _ | y
  · rcases (hspec x).2 hsent with hsame | hgone
    · rw [Option.none_or]
      exact h k x (hsame.symm.trans hk)
    · rw [hk] at hgone
      cases hgone
  · rcases (hspec y).1 hsent with hsame | hgone
    · exact hsame.symm.trans hk
    · rw [hk] at hgone
      cases hgone

end ChangeLog

import Mathlib.Logic.Function.Basic
import Mathlib.Tactic.Common

/-!
# Objects with one owner each

Objects are created with numbers that are not used again, and each living object belongs to one
owner (`Owns`). An owner gives its object away, has it destroyed, or gets a new one for it.
-/

namespace Ownership

variable {ι β : Type*}

/-- What lives after an object, if there is one, is destroyed. -/
def destroy (object : Option ℕ) (living : ℕ → Option β) : ℕ → Option β :=
  match object with
  | none => living
  | some id => Function.update living id none

/-- Each living object has an owner, no two owners have the same object, and `created` is a number
that no object has had. -/
structure Owns (own : ι → Option ℕ) (living : ℕ → Option β) (created : ℕ) : Prop where
  unique : ∀ a b id, own a = some id → own b = some id → a = b
  owned : ∀ id, (living id).isSome = true ↔ ∃ a, own a = some id
  fresh : ∀ id, (living id).isSome = true → id < created

variable {own own' : ι → Option ℕ} {living : ℕ → Option β} {created : ℕ} {a b : ι}

theorem isSome_destroy (object : Option ℕ) (id : ℕ) :
    (destroy object living id).isSome = true ↔ (living id).isSome = true ∧ object ≠ some id := by
  rcases object with _ | other
  · simp [destroy]
  · by_cases h : id = other
    · simp [destroy, h]
    · simp [destroy, Function.update_of_ne h, Ne.symm h]

theorem destroy_of_ne {object : Option ℕ} {id : ℕ} (h : object ≠ some id) :
    destroy object living id = living id := by
  rcases object with _ | other
  · rfl
  · exact Function.update_of_ne (fun heq => h (congrArg some heq.symm)) _ _

namespace Owns

theorem initial : Owns (fun _ : ι => none) (fun _ => (none : Option β)) 0 where
  unique := by simp
  owned := by simp
  fresh := by simp

/-- The owners have what they had. -/
theorem congr (h : Owns own living created) (hown : ∀ a, own' a = own a) :
    Owns own' living created := by
  obtain rfl : own' = own := funext hown
  exact h

/-- The objects that some owners had are destroyed. -/
theorem dropAll (h : Owns own living created) {living' : ℕ → Option β} (drops : ι → Prop)
    (hdropped : ∀ a, drops a → own' a = none) (hkept : ∀ a, ¬drops a → own' a = own a)
    (hliving : ∀ id, (living' id).isSome = true
      ↔ (living id).isSome = true ∧ ∀ a, drops a → own a ≠ some id) :
    Owns own' living' created := by
  have hsub : ∀ a id, own' a = some id → ¬drops a ∧ own a = some id := by
    intro a id ha
    by_cases hdrop : drops a
    · simp [hdropped a hdrop] at ha
    · exact ⟨hdrop, (hkept a hdrop).symm.trans ha⟩
  refine ⟨fun a b id ha hb => h.unique a b id (hsub a id ha).2 (hsub b id hb).2, fun id => ?_,
    fun id hid => h.fresh id ((hliving id).1 hid).1⟩
  rw [hliving, h.owned]
  constructor
  · rintro ⟨⟨a, ha⟩, hnone⟩
    exact ⟨a, (hkept a fun hdrop => hnone a hdrop ha).trans ha⟩
  · rintro ⟨a, ha⟩
    obtain ⟨hdrop, hown⟩ := hsub a id ha
    exact ⟨⟨a, hown⟩, fun b hb hid => hdrop (h.unique a b id hown hid ▸ hb)⟩

variable [DecidableEq ι]

/-- One owner's object is destroyed. -/
theorem drop (h : Owns own living created) (a : ι) :
    Owns (Function.update own a none) (destroy (own a) living) created := by
  refine h.dropAll (· = a) ?_ ?_ fun id => ?_
  · rintro b rfl
    exact Function.update_self ..
  · exact fun b hb => Function.update_of_ne hb _ _
  · rw [isSome_destroy]
    simp

/-- One owner gives its object to another that has none. -/
theorem move (h : Owns own living created) (a b : ι) (hb : own b = none) :
    Owns (Function.update (Function.update own a none) b (own a)) living created := by
  have hnew : ∀ c id, Function.update (Function.update own a none) b (own a) c = some id →
      (c = b ∧ own a = some id) ∨ (c ≠ b ∧ c ≠ a ∧ own c = some id) := by
    intro c id hc
    by_cases hcb : c = b
    · subst hcb
      exact .inl ⟨rfl, by simpa using hc⟩
    rw [Function.update_of_ne hcb] at hc
    by_cases hca : c = a
    · subst hca
      simp at hc
    · rw [Function.update_of_ne hca] at hc
      exact .inr ⟨hcb, hca, hc⟩
  refine ⟨fun c d id hc hd => ?_, fun id => ?_, h.fresh⟩
  · rcases hnew c id hc with ⟨rfl, hc'⟩ | ⟨-, hca, hc'⟩ <;>
      rcases hnew d id hd with ⟨rfl, hd'⟩ | ⟨-, hda, hd'⟩
    · rfl
    · exact absurd (h.unique d a id hd' hc') hda
    · exact absurd (h.unique c a id hc' hd') hca
    · exact h.unique c d id hc' hd'
  · rw [h.owned]
    constructor
    · rintro ⟨c, hc⟩
      by_cases hca : c = a
      · subst hca
        exact ⟨b, by simpa using hc⟩
      · refine ⟨c, ?_⟩
        rw [Function.update_of_ne (fun hcb => by simp [hcb, hb] at hc), Function.update_of_ne hca]
        exact hc
    · rintro ⟨c, hc⟩
      rcases hnew c id hc with ⟨-, hc⟩ | ⟨-, -, hc⟩
      · exact ⟨a, hc⟩
      · exact ⟨c, hc⟩

/-- An owner without an object gets a new one. -/
theorem create (h : Owns own living created) (ha : own a = none) (value : β) :
    Owns (Function.update own a (some created)) (Function.update living created (some value))
      (created + 1) := by
  have hnone : ∀ b, own b ≠ some created := fun b hb =>
    Nat.lt_irrefl _ (h.fresh created ((h.owned created).2 ⟨b, hb⟩))
  have hown : ∀ b id, id ≠ created → (Function.update own a (some created) b = some id
      ↔ own b = some id) := by
    intro b id hid
    by_cases hba : b = a
    · subst hba
      simp [ha, Ne.symm hid]
    · rw [Function.update_of_ne hba]
  have hcreated : ∀ b, Function.update own a (some created) b = some created ↔ b = a := by
    intro b
    by_cases hba : b = a
    · simp [hba]
    · simp [hba, hnone b]
  refine ⟨fun b c id hb hc => ?_, fun id => ?_, fun id hid => ?_⟩
  · by_cases hid : id = created
    · subst hid
      rw [(hcreated b).1 hb, (hcreated c).1 hc]
    · exact h.unique b c id ((hown b id hid).1 hb) ((hown c id hid).1 hc)
  · by_cases hid : id = created
    · subst hid
      simp [hcreated]
    · rw [Function.update_of_ne hid, h.owned]
      exact exists_congr fun b => (hown b id hid).symm
  · by_cases hidc : id = created
    · omega
    · rw [Function.update_of_ne hidc] at hid
      exact Nat.lt_succ_of_lt (h.fresh id hid)

omit [DecidableEq ι] in
/-- What an object holds is no matter of ownership. -/
theorem write (h : Owns own living created) {living' : ℕ → Option β}
    (hliving : ∀ id, (living' id).isSome = (living id).isSome) : Owns own living' created := by
  refine ⟨h.unique, fun id => ?_, fun id hid => h.fresh id ?_⟩
  · rw [hliving, h.owned]
  · rwa [hliving] at hid

end Owns

end Ownership

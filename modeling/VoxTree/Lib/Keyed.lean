import Mathlib.Data.List.Nodup
import Mathlib.Data.List.Perm.Basic
import Mathlib.Tactic.Common

/-!
# Lists with a key

A list whose entries have different keys is a finite map: what is found under a key does not depend
on the order of the list (`find?_perm`). Two lists are the same up to a relation on the entries if
one can be put in an order in which its entries stand in the relation to those of the other
(`SameUpTo`).
-/

namespace Keyed

variable {α β κ : Type*}

section Find

variable [DecidableEq κ] {key : α → κ} {l l' : List α}

theorem find?_eq_some_iff (h : (l.map key).Nodup) {k : κ} {a : α} :
    (l.find? fun x => key x = k) = some a ↔ a ∈ l ∧ key a = k := by
  constructor
  · intro hfind
    exact ⟨List.mem_of_find?_eq_some hfind, by simpa using List.find?_some hfind⟩
  · rintro ⟨ha, rfl⟩
    have hsome : (l.find? fun x => key x = key a).isSome = true := by
      rw [List.find?_isSome]
      exact ⟨a, ha, by simp⟩
    obtain ⟨b, hb⟩ := Option.isSome_iff_exists.1 hsome
    have hkey : key b = key a := by simpa using List.find?_some hb
    rw [hb, List.inj_on_of_nodup_map h (List.mem_of_find?_eq_some hb) ha hkey]

theorem find?_eq_none_iff {k : κ} :
    (l.find? fun x => key x = k) = none ↔ ∀ a ∈ l, key a ≠ k := by
  simp [List.find?_eq_none]

/-- What is found under a key does not depend on the order. -/
theorem find?_perm (hperm : l.Perm l') (h : (l.map key).Nodup) (k : κ) :
    (l.find? fun x => key x = k) = l'.find? fun x => key x = k := by
  have h' : (l'.map key).Nodup := (hperm.map key).nodup_iff.1 h
  refine Option.ext fun a => ?_
  rw [find?_eq_some_iff h, find?_eq_some_iff h', hperm.mem_iff]

end Find

/-! ## What belongs to the entries -/

section FlatMap

variable {γ : Type*} {key : α → κ} {q : γ → κ} {f : α → List γ}

theorem nodup_flatMap : ∀ {l : List α}, (l.map key).Nodup → (∀ a ∈ l, (f a).Nodup) →
    (∀ a ∈ l, ∀ b ∈ f a, q b = key a) → (l.flatMap f).Nodup
  | [], _, _, _ => List.nodup_nil
  | a :: l, h, hf, hq => by
    rw [List.map_cons, List.nodup_cons] at h
    have hrest := nodup_flatMap h.2 (fun b hb => hf b (List.mem_cons_of_mem a hb))
      fun b hb => hq b (List.mem_cons_of_mem a hb)
    rw [List.flatMap_cons]
    refine List.nodup_append.2 ⟨hf a List.mem_cons_self, hrest, fun x hx y hy heq => h.1 ?_⟩
    obtain ⟨b, hb, hy⟩ := List.mem_flatMap.1 hy
    have hkey : key b = key a := by
      rw [← hq b (List.mem_cons_of_mem a hb) y hy, ← heq, hq a List.mem_cons_self x hx]
    exact hkey ▸ List.mem_map_of_mem hb

/-- What belongs to one entry, picked out by its key. -/
theorem filter_flatMap [DecidableEq κ] : ∀ {l : List α}, (l.map key).Nodup →
    (∀ a ∈ l, ∀ b ∈ f a, q b = key a) → ∀ {a : α}, a ∈ l →
    ((l.flatMap f).filter fun b => q b = key a) = f a
  | [], _, _, _, ha => by cases ha
  | c :: l, h, hq, a, ha => by
    rw [List.map_cons, List.nodup_cons] at h
    have hq' : ∀ b ∈ l, ∀ x ∈ f b, q x = key b := fun b hb => hq b (List.mem_cons_of_mem c hb)
    rw [List.flatMap_cons, List.filter_append]
    rcases List.mem_cons.1 ha with rfl | ha
    · have hown : ((f a).filter fun b => q b = key a) = f a :=
        List.filter_eq_self.2 fun b hb => decide_eq_true (hq a List.mem_cons_self b hb)
      have hnone : ((l.flatMap f).filter fun b => q b = key a) = [] := by
        refine List.filter_eq_nil_iff.2 fun x hx heq => h.1 ?_
        obtain ⟨b, hb, hx⟩ := List.mem_flatMap.1 hx
        rw [← of_decide_eq_true heq, hq' b hb x hx]
        exact List.mem_map_of_mem hb
      rw [hown, hnone, List.append_nil]
    · have hnone : ((f c).filter fun b => q b = key a) = [] := by
        refine List.filter_eq_nil_iff.2 fun x hx heq => h.1 ?_
        rw [← hq c List.mem_cons_self x hx, of_decide_eq_true heq]
        exact List.mem_map_of_mem ha
      rw [hnone, List.nil_append, filter_flatMap h.2 hq' ha]

end FlatMap

/-! ## The same list up to its order -/

/-- `l'` is some order of `l` whose entries `r` relates to those of `l`. -/
def SameUpTo (r : α → β → Prop) (l : List α) (l' : List β) : Prop :=
  ∃ m, l.Perm m ∧ List.Forall₂ r m l'

variable {r : α → β → Prop} {l : List α} {l' : List β}

theorem SameUpTo.mono {q : α → β → Prop} (h : SameUpTo r l l') (hq : ∀ a b, r a b → q a b) :
    SameUpTo q l l' := by
  obtain ⟨m, hperm, hrel⟩ := h
  exact ⟨m, hperm, hrel.imp hq⟩

theorem SameUpTo.of_forall₂ (h : List.Forall₂ r l l') : SameUpTo r l l' := ⟨l, .refl l, h⟩

theorem SameUpTo.symm (h : SameUpTo r l l') : SameUpTo (fun b a => r a b) l' l := by
  obtain ⟨m, hperm, hrel⟩ := h
  obtain ⟨m', hrel', hperm'⟩ := List.perm_comp_forall₂ hperm hrel
  exact ⟨m', hperm'.symm, hrel'.flip⟩

/-- Both lists may be put in another order. -/
theorem SameUpTo.perm {k : List α} {k' : List β} (h : SameUpTo r l l') (hk : k.Perm l)
    (hk' : l'.Perm k') : SameUpTo r k k' := by
  obtain ⟨m', hperm', hrel'⟩ := h.symm
  obtain ⟨m, hperm, hrel⟩ := SameUpTo.symm ⟨m', hk'.symm.trans hperm', hrel'⟩
  exact ⟨m, hk.trans hperm, hrel⟩

/-- Entries correspond. -/
theorem SameUpTo.exists_right (h : SameUpTo r l l') {a : α} (ha : a ∈ l) : ∃ b ∈ l', r a b := by
  obtain ⟨m, hperm, hrel⟩ := h
  have ha := hperm.mem_iff.1 ha
  clear hperm
  induction hrel with
  | nil => cases ha
  | cons hab _ ih =>
    rcases List.mem_cons.1 ha with rfl | ha
    · exact ⟨_, List.mem_cons_self, hab⟩
    · obtain ⟨b, hb, hr⟩ := ih ha
      exact ⟨b, List.mem_cons_of_mem _ hb, hr⟩

theorem SameUpTo.exists_left (h : SameUpTo r l l') {b : β} (hb : b ∈ l') : ∃ a ∈ l, r a b :=
  h.symm.exists_right hb

/-- What the relation keeps of the entries, the lists have. -/
theorem map_eq_of_forall₂ {γ : Type*} {f : α → γ} {g : β → γ} (h : List.Forall₂ r l l')
    (hfg : ∀ a b, r a b → f a = g b) : l.map f = l'.map g := by
  induction h with
  | nil => rfl
  | cons hab _ ih => rw [List.map_cons, List.map_cons, hfg _ _ hab, ih]

/-- What the relation keeps of the entries, the lists have up to their order. -/
theorem SameUpTo.map_perm {γ : Type*} {f : α → γ} {g : β → γ} (h : SameUpTo r l l')
    (hfg : ∀ a b, r a b → f a = g b) : (l.map f).Perm (l'.map g) := by
  obtain ⟨m, hperm, hrel⟩ := h
  exact map_eq_of_forall₂ hrel hfg ▸ hperm.map f

end Keyed

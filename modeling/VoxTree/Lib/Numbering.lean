import Mathlib.Data.List.Nodup
import Mathlib.Logic.Function.Basic

/-!
# Numbers from a shared counter

Threads decide on items, take a number for each from a counter that all of them share, and deliver
the item under its number. Another thread may come in between at any point. Every number goes to
one item, the numbers of one thread increase, and a thread delivers what it has decided on, in that
order (`Inv`).
-/

namespace Numbering

variable {κ β : Type*}

/-- What a thread has in hand. -/
inductive Phase (β : Type*)
  | idle
  | decided (item : β)
  | numbered (number : ℕ) (item : β)

namespace Phase

def isIdle : Phase β → Bool
  | idle => true
  | _ => false

def item? : Phase β → Option β
  | idle => none
  | decided item => some item
  | numbered _ item => some item

def number? : Phase β → Option ℕ
  | numbered number _ => some number
  | _ => none

@[simp]
theorem number?_idle : (idle : Phase β).number? = none := rfl

@[simp]
theorem number?_decided (item : β) : (decided item).number? = none := rfl

@[simp]
theorem number?_numbered (number : ℕ) (item : β) : (numbered number item).number? = some number :=
  rfl

end Phase

structure Delivery (κ β : Type*) where
  thread : κ
  number : ℕ
  item : β

structure State (κ β : Type*) where
  next : ℕ
  phase : κ → Phase β := fun _ => .idle
  -- what has happened
  chosen : κ → List β := fun _ => []
  delivered : List (Delivery κ β) := []

namespace State

variable [DecidableEq κ] (s : State κ β) (thread : κ)

/-- The thread decides on an item. -/
def choose (item : β) : State κ β :=
  { s with
    phase := Function.update s.phase thread (.decided item)
    chosen := Function.update s.chosen thread (s.chosen thread ++ [item]) }

/-- The thread takes a number. -/
def draw : Option (State κ β) :=
  match s.phase thread with
  | .decided item =>
    some { s with
      next := s.next + 1
      phase := Function.update s.phase thread (.numbered s.next item) }
  | _ => none

/-- The thread delivers its item. -/
def deliver : Option (State κ β) :=
  match s.phase thread with
  | .numbered number item =>
    some { s with
      phase := Function.update s.phase thread .idle
      delivered := s.delivered ++ [⟨thread, number, item⟩] }
  | _ => none

/-- What a thread has delivered. -/
def deliveredBy : List (Delivery κ β) := s.delivered.filter fun d => d.thread = thread

end State

section Inv

variable [DecidableEq κ] {s s' : State κ β} {thread : κ} {first : ℕ}

theorem draw_eq_some : s.draw thread = some s' ↔ ∃ item, s.phase thread = .decided item
    ∧ s' = { s with
      next := s.next + 1
      phase := Function.update s.phase thread (.numbered s.next item) } := by
  unfold State.draw
  cases s.phase thread <;> simp [eq_comm]

theorem deliver_eq_some : s.deliver thread = some s' ↔
    ∃ number item, s.phase thread = .numbered number item ∧ s' = { s with
      phase := Function.update s.phase thread .idle
      delivered := s.delivered ++ [⟨thread, number, item⟩] } := by
  unfold State.deliver
  cases s.phase thread <;> simp [eq_comm]

/-- The numbers from `first` on have gone to one item each. -/
structure Inv (first : ℕ) (s : State κ β) : Prop where
  first_le : first ≤ s.next
  /-- A thread has delivered what it has decided on, except for what it has in hand. -/
  told : ∀ t, (s.deliveredBy t).map Delivery.item ++ (s.phase t).item?.toList = s.chosen t
  /-- The numbers of a thread increase. -/
  increasing : ∀ t, ((s.deliveredBy t).map Delivery.number ++ (s.phase t).number?.toList).Pairwise
    (· < ·)
  unique : (s.delivered.map Delivery.number).Nodup
  drawn : ∀ number, (first ≤ number ∧ number < s.next) ↔
    number ∈ s.delivered.map Delivery.number ∨ ∃ t, (s.phase t).number? = some number
  /-- A number in hand has not been delivered, and nobody else has it. -/
  held : ∀ t number, (s.phase t).number? = some number →
    number ∉ s.delivered.map Delivery.number
      ∧ ∀ t', (s.phase t').number? = some number → t' = t

theorem inv_initial : Inv first ({ next := first } : State κ β) where
  first_le := Nat.le_refl _
  told _ := rfl
  increasing _ := .nil
  unique := .nil
  drawn number := by simp
  held t number h := by cases h

variable {first : ℕ}

theorem Inv.choose (h : Inv first s) (hidle : s.phase thread = .idle) (item : β) :
    Inv first (s.choose thread item) := by
  have hnumber : ∀ t, ((s.choose thread item).phase t).number? = (s.phase t).number? := by
    intro t
    by_cases ht : t = thread
    · simp [State.choose, ht, hidle]
    · simp [State.choose, Function.update_of_ne ht]
  refine ⟨h.first_le, fun t => ?_, fun t => ?_, h.unique, fun number => ?_, fun t number => ?_⟩
  · have htold := h.told t
    by_cases ht : t = thread
    · subst ht
      rw [hidle, Phase.item?, Option.toList_none, List.append_nil] at htold
      simp [State.choose, State.deliveredBy, Phase.item?, ← htold]
    · simpa [State.choose, State.deliveredBy, Function.update_of_ne ht] using htold
  · rw [hnumber]
    exact h.increasing t
  · simp only [hnumber]
    exact h.drawn number
  · simp only [hnumber]
    exact h.held t number

theorem Inv.draw (h : Inv first s) (hdraw : s.draw thread = some s') : Inv first s' := by
  obtain ⟨item, hphase, rfl⟩ := draw_eq_some.1 hdraw
  have hnew : s.next ∉ s.delivered.map Delivery.number := fun hmem =>
    Nat.lt_irrefl _ ((h.drawn s.next).2 (.inl hmem)).2
  have hfree : ∀ t, (s.phase t).number? ≠ some s.next := fun t ht =>
    Nat.lt_irrefl _ ((h.drawn s.next).2 (.inr ⟨t, ht⟩)).2
  have hnone : (s.phase thread).number? = none := by rw [hphase]; rfl
  refine ⟨Nat.le_succ_of_le h.first_le, fun t => ?_, fun t => ?_, h.unique, fun number => ?_,
    fun t number => ?_⟩
  · have htold := h.told t
    by_cases ht : t = thread
    · subst ht
      rw [hphase] at htold
      simpa [State.deliveredBy, Phase.item?] using htold
    · simpa [State.deliveredBy, Function.update_of_ne ht] using htold
  · have hincreasing := h.increasing t
    by_cases ht : t = thread
    · subst ht
      rw [hnone, Option.toList_none, List.append_nil] at hincreasing
      simp only [Function.update_self, Phase.number?_numbered, Option.toList_some]
      refine List.pairwise_append.2 ⟨hincreasing, List.pairwise_singleton _ _, fun a ha b hb => ?_⟩
      obtain rfl := List.mem_singleton.1 hb
      obtain ⟨d, hd, rfl⟩ := List.mem_map.1 ha
      exact ((h.drawn _).2 (.inl (List.mem_map_of_mem (List.mem_of_mem_filter hd)))).2
    · simpa [State.deliveredBy, Function.update_of_ne ht] using hincreasing
  · simp only [Function.update_apply, apply_ite Phase.number?, Phase.number?_numbered]
    constructor
    · rintro ⟨hlow, hhigh⟩
      rcases Nat.lt_succ_iff_lt_or_eq.1 hhigh with hlt | rfl
      · rcases (h.drawn number).1 ⟨hlow, hlt⟩ with hmem | ⟨t, ht⟩
        · exact .inl hmem
        · have hne : t ≠ thread := fun heq => by simp [heq, hnone] at ht
          exact .inr ⟨t, by rwa [if_neg hne]⟩
      · exact .inr ⟨thread, if_pos rfl⟩
    · rintro (hmem | ⟨t, ht⟩)
      · have hbounds := (h.drawn number).2 (.inl hmem)
        exact ⟨hbounds.1, Nat.lt_succ_of_lt hbounds.2⟩
      · split_ifs at ht with hne
        · obtain rfl := Option.some.inj ht
          exact ⟨h.first_le, Nat.lt_succ_self _⟩
        · have hbounds := (h.drawn number).2 (.inr ⟨t, ht⟩)
          exact ⟨hbounds.1, Nat.lt_succ_of_lt hbounds.2⟩
  · simp only [Function.update_apply, apply_ite Phase.number?, Phase.number?_numbered]
    intro hnumber
    split_ifs at hnumber with ht
    · obtain rfl := Option.some.inj hnumber
      refine ⟨hnew, fun t' ht' => ?_⟩
      split_ifs at ht' with hne
      · rw [hne, ht]
      · exact absurd ht' (hfree t')
    · obtain ⟨hfresh, halone⟩ := h.held t number hnumber
      refine ⟨hfresh, fun t' ht' => ?_⟩
      split_ifs at ht' with hne
      · obtain rfl := Option.some.inj ht'
        exact absurd hnumber (hfree t)
      · exact halone t' ht'

/-- What a thread has delivered after a delivery. -/
theorem deliveredBy_append (t : κ) (number : ℕ) (item : β) :
    ({ s with
        phase := Function.update s.phase thread .idle
        delivered := s.delivered ++ [⟨thread, number, item⟩] } : State κ β).deliveredBy t
      = if t = thread then s.deliveredBy t ++ [⟨thread, number, item⟩] else s.deliveredBy t := by
  unfold State.deliveredBy
  rw [List.filter_append]
  split_ifs with ht
  · simp [ht]
  · simp [Ne.symm ht]

theorem Inv.deliver (h : Inv first s) (hdeliver : s.deliver thread = some s') : Inv first s' := by
  obtain ⟨number, item, hphase, rfl⟩ := deliver_eq_some.1 hdeliver
  have hnumber : (s.phase thread).number? = some number := by rw [hphase]; rfl
  obtain ⟨hfresh, halone⟩ := h.held thread number hnumber
  refine ⟨h.first_le, fun t => ?_, fun t => ?_, ?_, fun other => ?_, fun t other hother => ?_⟩
  · have htold := h.told t
    rw [deliveredBy_append]
    by_cases ht : t = thread
    · subst ht
      rw [hphase] at htold
      simpa [Phase.item?] using htold
    · simpa [ht, Function.update_of_ne ht] using htold
  · have hincreasing := h.increasing t
    rw [deliveredBy_append]
    by_cases ht : t = thread
    · subst ht
      rw [hnumber] at hincreasing
      simpa using hincreasing
    · simpa [ht, Function.update_of_ne ht] using hincreasing
  · rw [List.map_append, List.map_singleton, List.nodup_append]
    refine ⟨h.unique, List.nodup_singleton _, fun a ha b hb heq => hfresh ?_⟩
    have hnumber : a = number := heq.trans (List.mem_singleton.1 hb)
    exact hnumber ▸ ha
  · rw [h.drawn other]
    simp only [Function.update_apply, apply_ite Phase.number?, Phase.number?_idle,
      List.map_append, List.mem_append, List.map_singleton, List.mem_singleton]
    constructor
    · rintro (hmem | ⟨t, ht⟩)
      · exact .inl (.inl hmem)
      · by_cases hne : t = thread
        · rw [hne, hnumber] at ht
          exact .inl (.inr (Option.some.inj ht).symm)
        · exact .inr ⟨t, by rwa [if_neg hne]⟩
    · rintro ((hmem | rfl) | ⟨t, ht⟩)
      · exact .inl hmem
      · exact .inr ⟨thread, hnumber⟩
      · split_ifs at ht
        exact .inr ⟨t, ht⟩
  · simp only [Function.update_apply, apply_ite Phase.number?, Phase.number?_idle] at hother ⊢
    split_ifs at hother with ht
    obtain ⟨hold, hunique⟩ := h.held t other hother
    have hne : other ≠ number := fun heq => ht (halone t (heq ▸ hother))
    refine ⟨by simpa [hne] using hold, fun t' ht' => ?_⟩
    split_ifs at ht'
    exact hunique t' ht'

/-- When nobody has anything in hand, all numbers so far have been delivered, each once. -/
theorem Inv.all_delivered (h : Inv first s) (hidle : ∀ t, s.phase t = .idle) :
    (s.delivered.map Delivery.number).Perm (List.range' first (s.next - first))
      ∧ ∀ t, (s.deliveredBy t).map Delivery.item = s.chosen t := by
  constructor
  · refine (List.perm_ext_iff_of_nodup h.unique (List.nodup_range' ..)).2 fun number => ?_
    have hdrawn := h.drawn number
    have hfirst := h.first_le
    simp only [hidle, Phase.number?_idle, reduceCtorEq, exists_false, or_false] at hdrawn
    rw [← hdrawn, List.mem_range'_1]
    omega
  · intro t
    have htold := h.told t
    rwa [hidle, Phase.item?, Option.toList_none, List.append_nil] at htold

end Inv

end Numbering

import Mathlib.Data.Finset.Max
import Mathlib.Data.List.Induction
import Mathlib.Data.List.Nodup
import Mathlib.Logic.Function.Basic
import Mathlib.Tactic.Common

/-!
# Numbered events in any order

Events carry numbers, and a counter refuses an event that is not newer than the last one it has
taken. A cell that holds the value of the last event is the same whatever the order of the events
(`Cell.foldl_perm`). An indicator shows the key that was switched on last; its counters are one for
each key, but there is one display for all of them. What it shows is the same in all orders if only
one key is ever switched on (`Indicator.shown_of_live`) or no key stays on
(`Indicator.live_of_shown`), and otherwise it is not (`Indicator.exists_perms`).
-/

namespace LastWriter

variable {ε α κ : Type*} (number : ε → ℕ)

/-- Different events have different numbers. -/
def Distinct (events : List ε) : Prop := (events.map number).Nodup

variable {number} {events events' : List ε} {e : ε}

theorem Distinct.perm (h : Distinct number events) (hperm : events.Perm events') :
    Distinct number events' :=
  (hperm.map number).nodup_iff.1 h

theorem Distinct.eq {a b : ε} (h : Distinct number events) (ha : a ∈ events) (hb : b ∈ events)
    (hnumber : number a = number b) : a = b :=
  List.inj_on_of_nodup_map h ha hb hnumber

/-! ## Cells -/

structure Cell (α : Type*) where
  counter : ℕ
  value : α

namespace Cell

variable (number) (writes : ε → Option α)

def take (c : Cell α) (e : ε) : Cell α :=
  match writes e with
  | none => c
  | some value => if number e ≤ c.counter then c else ⟨number e, value⟩

variable {number writes} {c : Cell α} {a b : ε} {x : α}

theorem take_none (h : writes e = none) : c.take number writes e = c := by
  unfold take
  rw [h]

theorem take_old (hold : number e ≤ c.counter) : c.take number writes e = c := by
  unfold take
  split
  · rfl
  · exact if_pos hold

theorem take_new (h : writes e = some x) (hnew : c.counter < number e) :
    c.take number writes e = ⟨number e, x⟩ := by
  unfold take
  rw [h]
  exact if_neg (by omega)

theorem counter_take_lt {n : ℕ} (h : c.counter < n) (he : number e < n) :
    (c.take number writes e).counter < n := by
  unfold take
  split
  · exact h
  · split_ifs
    · exact h
    · exact he

/-- Of two events only the newer one counts. -/
theorem take_take_of_lt (hlt : number a < number b) (hb : writes b = some x) :
    (c.take number writes a).take number writes b = c.take number writes b
      ∧ (c.take number writes b).take number writes a = c.take number writes b := by
  rcases le_or_gt (number b) c.counter with hold | hnew
  · rw [take_old (e := a) (by omega), take_old hold]
    exact ⟨rfl, take_old (by omega)⟩
  · rw [take_new hb (counter_take_lt hnew hlt), take_new hb hnew]
    exact ⟨rfl, take_old hlt.le⟩

theorem take_comm (h : number a = number b → a = b) :
    (c.take number writes a).take number writes b
      = (c.take number writes b).take number writes a := by
  rcases ha : writes a with _ | x
  · rw [take_none ha, take_none ha]
  rcases hb : writes b with _ | y
  · rw [take_none hb, take_none hb]
  rcases lt_trichotomy (number a) (number b) with hlt | heq | hlt
  · exact (take_take_of_lt hlt hb).1.trans (take_take_of_lt hlt hb).2.symm
  · rw [h heq]
  · exact (take_take_of_lt hlt ha).2.trans (take_take_of_lt hlt ha).1.symm

/-- The order does not matter. -/
theorem foldl_perm (h : Distinct number events) (hperm : events.Perm events') (c : Cell α) :
    events.foldl (take number writes) c = events'.foldl (take number writes) c :=
  hperm.foldl_eq' (fun _ ha _ hb _ => take_comm (h.eq ha hb)) c

end Cell

/-! ## Indicators -/

structure Indicator (κ : Type*) where
  counter : κ → ℕ
  shown : Option κ

namespace Indicator

variable [DecidableEq κ] (number) (switches : ε → Option (κ × Bool))

/-- Only the key that is shown can be switched off. -/
def take (i : Indicator κ) (e : ε) : Indicator κ :=
  match switches e with
  | none => i
  | some (key, on) =>
    if number e ≤ i.counter key then i
    else ⟨Function.update i.counter key (number e),
      if on then some key else if i.shown = some key then none else i.shown⟩

/-- The last event of the key switches it on. -/
def Live (events : List ε) (key : κ) : Prop :=
  ∃ e ∈ events, switches e = some (key, true)
    ∧ ∀ e' ∈ events, ∀ on, switches e' = some (key, on) → number e' ≤ number e

/-- All events are newer than what their keys have seen. -/
def Above (i : Indicator κ) (events : List ε) : Prop :=
  ∀ e ∈ events, ∀ key on, switches e = some (key, on) → i.counter key < number e

variable {number switches} {i : Indicator κ} {key : κ} {on : Bool}

/-! ### Counters -/

theorem take_none (h : switches e = none) : i.take number switches e = i := by
  unfold take
  rw [h]

theorem take_old (h : switches e = some (key, on)) (hold : number e ≤ i.counter key) :
    i.take number switches e = i := by
  unfold take
  rw [h]
  exact if_pos hold

theorem take_new (h : switches e = some (key, on)) (hnew : i.counter key < number e) :
    i.take number switches e = ⟨Function.update i.counter key (number e),
      if on then some key else if i.shown = some key then none else i.shown⟩ := by
  unfold take
  rw [h]
  exact if_neg (by omega)

theorem counter_take_of_ne (h : ∀ on, switches e ≠ some (key, on)) :
    (i.take number switches e).counter key = i.counter key := by
  rcases hs : switches e with _ | ⟨key', on⟩
  · rw [take_none hs]
  have hne : key ≠ key' := fun heq => h on (heq ▸ hs)
  rcases le_or_gt (number e) (i.counter key') with hold | hnew
  · rw [take_old hs hold]
  · rw [take_new hs hnew]
    exact Function.update_of_ne hne _ _

theorem counter_take_self (h : switches e = some (key, on)) :
    (i.take number switches e).counter key = max (i.counter key) (number e) := by
  rcases le_or_gt (number e) (i.counter key) with hold | hnew
  · rw [take_old h hold, max_eq_left hold]
  · rw [take_new h hnew, max_eq_right hnew.le]
    exact Function.update_self _ _ _

/-- A counter is as it was or the number of an event. -/
theorem counter_foldl (events : List ε) (i : Indicator κ) (key : κ) :
    ((events.foldl (take number switches) i).counter key = i.counter key
        ∨ ∃ e ∈ events, (∃ on, switches e = some (key, on))
          ∧ number e = (events.foldl (take number switches) i).counter key)
      ∧ ∀ e ∈ events, ∀ on, switches e = some (key, on) →
        number e ≤ (events.foldl (take number switches) i).counter key := by
  induction events using List.reverseRecOn with
  | nil => simp
  | append_singleton events e ih =>
    rw [List.foldl_append, List.foldl_cons, List.foldl_nil]
    generalize events.foldl (take number switches) i = i' at ih ⊢
    by_cases hkey : ∃ on, switches e = some (key, on)
    · obtain ⟨on, hon⟩ := hkey
      rw [counter_take_self hon]
      constructor
      · rcases le_total (number e) (i'.counter key) with hle | hle
        · rw [max_eq_left hle]
          refine ih.1.imp id fun ⟨x, hx, hxs⟩ => ⟨x, List.mem_append_left _ hx, hxs⟩
        · rw [max_eq_right hle]
          exact .inr ⟨e, by simp, ⟨on, hon⟩, rfl⟩
      · intro x hx on' hxs
        rcases List.mem_append.1 hx with hx | hx
        · exact (ih.2 x hx on' hxs).trans (le_max_left _ _)
        · rw [List.mem_singleton.1 hx]
          exact le_max_right _ _
    · rw [counter_take_of_ne fun on hon => hkey ⟨on, hon⟩]
      constructor
      · refine ih.1.imp id fun ⟨x, hx, hxs⟩ => ⟨x, List.mem_append_left _ hx, hxs⟩
      · intro x hx on' hxs
        rcases List.mem_append.1 hx with hx | hx
        · exact ih.2 x hx on' hxs
        · rw [List.mem_singleton.1 hx] at hxs
          exact absurd ⟨on', hxs⟩ hkey

/-! ### What is shown -/

/-- What is shown was switched on by the last event of its key. -/
theorem switched_of_shown (hshown : i.shown = none) (events : List ε) :
    ∀ key, (events.foldl (take number switches) i).shown = some key →
      ∃ e ∈ events, switches e = some (key, true)
        ∧ number e = (events.foldl (take number switches) i).counter key := by
  induction events using List.reverseRecOn with
  | nil => simp [hshown]
  | append_singleton events e ih =>
    rw [List.foldl_append, List.foldl_cons, List.foldl_nil]
    generalize events.foldl (take number switches) i = i' at ih ⊢
    intro key hkey
    have hkept : i'.shown = some key →
        (i'.take number switches e).counter key = i'.counter key →
        ∃ x ∈ events ++ [e], switches x = some (key, true)
          ∧ number x = (i'.take number switches e).counter key := by
      intro hold hcounter
      obtain ⟨x, hx, hxs⟩ := ih key hold
      exact ⟨x, List.mem_append_left _ hx, hcounter ▸ hxs⟩
    rcases hs : switches e with _ | ⟨key', on⟩
    · rw [take_none hs] at hkey hkept ⊢
      exact hkept hkey rfl
    rcases le_or_gt (number e) (i'.counter key') with hold | hnew
    · rw [take_old hs hold] at hkey hkept ⊢
      exact hkept hkey rfl
    rw [take_new hs hnew] at hkey hkept ⊢
    by_cases hsame : key = key'
    · subst hsame
      rcases on with _ | _
      · simp at hkey
      · refine ⟨e, by simp, hs, ?_⟩
        show number e = Function.update i'.counter key (number e) key
        rw [Function.update_self]
    · refine hkept ?_ (Function.update_of_ne hsame _ _)
      rcases on with _ | _
      · have hne : i'.shown ≠ some key' := fun heq => by simp [heq] at hkey
        simpa [hne] using hkey
      · exact absurd (Option.some.inj hkey).symm hsame

theorem live_of_shown (hshown : i.shown = none)
    (h : (events.foldl (take number switches) i).shown = some key) :
    Live number switches events key := by
  obtain ⟨e, he, hs, hnumber⟩ := switched_of_shown hshown events key h
  refine ⟨e, he, hs, fun e' he' on hon => ?_⟩
  rw [hnumber]
  exact (counter_foldl events i key).2 e' he' on hon

/-- A newer event that switches its key on is shown. -/
theorem shown_take (h : switches e = some (key, true)) (hnew : i.counter key < number e) :
    (i.take number switches e).shown = some key := by
  rw [take_new h hnew]
  rfl

/-- The counter of a key that has seen older events only. -/
theorem counter_foldl_lt (habove : i.counter key < number e)
    (h : ∀ e' ∈ events, ∀ on, switches e' = some (key, on) → number e' < number e) :
    (events.foldl (take number switches) i).counter key < number e := by
  rcases (counter_foldl events i key).1 with heq | ⟨e', he', ⟨on, hon⟩, hnumber⟩
  · rw [heq]
    exact habove
  · rw [← hnumber]
    exact h e' he' on hon

/-- What is shown stays while its own key gets old events only and the others are only switched
off. -/
theorem shown_foldl_of_rest : ∀ {rest : List ε} {i : Indicator κ}, i.shown = some key →
    (∀ x ∈ rest, ∀ key' on, switches x = some (key', on) →
      key' = key ∧ number x ≤ i.counter key ∨ key' ≠ key ∧ on = false) →
    (rest.foldl (take number switches) i).shown = some key
  | [], _, hshown, _ => hshown
  | x :: rest, i, hshown, h => by
    have hx := h x List.mem_cons_self
    have hstep : (i.take number switches x).shown = some key
        ∧ (i.take number switches x).counter key = i.counter key := by
      rcases hs : switches x with _ | ⟨key', on⟩
      · rw [take_none hs]
        exact ⟨hshown, rfl⟩
      rcases hx key' on hs with ⟨rfl, hold⟩ | ⟨hne, rfl⟩
      · rw [take_old hs hold]
        exact ⟨hshown, rfl⟩
      · refine ⟨?_, counter_take_of_ne fun on hon => hne ?_⟩
        · rcases le_or_gt (number x) (i.counter key') with hold | hnew
          · rw [take_old hs hold, hshown]
          · rw [take_new hs hnew, hshown]
            simp [hne.symm]
        · rw [hs] at hon
          exact congrArg Prod.fst (Option.some.inj hon)
    rw [List.foldl_cons]
    refine shown_foldl_of_rest hstep.1 fun y hy key' on hon => ?_
    rw [hstep.2]
    exact h y (List.mem_cons_of_mem _ hy) key' on hon

/-- The last event of a key finds the counter of the key below its number. -/
theorem counter_lt_of_last {before after : List ε} (habove : i.Above number switches events)
    (hdistinct : Distinct number events) (hperm : events.Perm (before ++ e :: after))
    (hs : switches e = some (key, true))
    (hlast : ∀ e' ∈ events, ∀ on, switches e' = some (key, on) → number e' ≤ number e) :
    (before.foldl (take number switches) i).counter key < number e := by
  have hmem : e ∈ events := hperm.mem_iff.2 (by simp)
  refine counter_foldl_lt (habove e hmem key true hs) fun x hx on hon => ?_
  have hx' : x ∈ events := hperm.mem_iff.2 (List.mem_append_left _ hx)
  refine lt_of_le_of_ne (hlast x hx' on hon) fun heq => ?_
  have hnodup := (hdistinct.perm hperm)
  rw [Distinct, List.map_append, List.nodup_append] at hnodup
  exact hnodup.2.2 _ (List.mem_map_of_mem hx) _ (by simp) heq

/-- Where one key only is ever switched on, it is shown if it stays on. -/
theorem shown_of_live (hdistinct : Distinct number events) (habove : i.Above number switches events)
    (honly : ∀ e ∈ events, ∀ key', switches e = some (key', true) → key' = key)
    (hlive : Live number switches events key) :
    (events.foldl (take number switches) i).shown = some key := by
  obtain ⟨e, he, hs, hlast⟩ := hlive
  obtain ⟨before, after, rfl⟩ := List.append_of_mem he
  have hnew := counter_lt_of_last habove hdistinct (List.Perm.refl _) hs hlast
  rw [List.foldl_append, List.foldl_cons]
  generalize before.foldl (take number switches) i = i' at hnew ⊢
  refine shown_foldl_of_rest (shown_take hs hnew) fun x hx key' on hon => ?_
  have hx' : x ∈ before ++ e :: after := by simp [hx]
  by_cases hkey : key' = key
  · subst hkey
    rw [counter_take_self hs]
    exact .inl ⟨rfl, (hlast x hx' on hon).trans (le_max_right _ _)⟩
  · rcases on with _ | _
    · exact .inr ⟨hkey, rfl⟩
    · exact absurd (honly x hx' key' hon) hkey

/-! ### Two orders -/

/-- A key that stays on is shown at the end of some order. -/
theorem exists_perm_shown (hdistinct : Distinct number events)
    (habove : i.Above number switches events) (hlive : Live number switches events key) :
    ∃ order : List ε, order.Perm events
      ∧ (order.foldl (take number switches) i).shown = some key := by
  obtain ⟨e, he, hs, hlast⟩ := hlive
  obtain ⟨before, after, rfl⟩ := List.append_of_mem he
  have hperm : (before ++ e :: after).Perm ((before ++ after) ++ [e]) :=
    List.perm_middle.trans (List.perm_append_singleton e (before ++ after)).symm
  refine ⟨(before ++ after) ++ [e], hperm.symm, ?_⟩
  rw [List.foldl_append, List.foldl_cons, List.foldl_nil]
  exact shown_take hs (counter_lt_of_last habove hdistinct hperm hs hlast)

theorem foldl_of_old : ∀ {rest : List ε} {i : Indicator κ},
    (∀ x ∈ rest, ∃ on, switches x = some (key, on) ∧ number x ≤ i.counter key) →
    rest.foldl (take number switches) i = i
  | [], _, _ => rfl
  | x :: rest, i, h => by
    obtain ⟨on, hs, hold⟩ := h x List.mem_cons_self
    rw [List.foldl_cons, take_old hs hold]
    exact foldl_of_old fun y hy => h y (List.mem_cons_of_mem _ hy)

/-- The newest event of a key that does not stay on switches it off. -/
theorem exists_off_of_not_live (he : e ∈ events) (hs : switches e = some (key, true))
    (hdead : ¬Live number switches events key) :
    ∃ t ∈ events, switches t = some (key, false) ∧ number e ≤ number t
      ∧ ∀ x ∈ events, ∀ on, switches x = some (key, on) → number x ≤ number t := by
  classical
  obtain ⟨t, ht, hmax⟩ := Finset.exists_max_image
    (events.toFinset.filter fun x => ∃ on, switches x = some (key, on)) number
    ⟨e, Finset.mem_filter.2 ⟨List.mem_toFinset.2 he, true, hs⟩⟩
  have hle : ∀ x ∈ events, ∀ on, switches x = some (key, on) → number x ≤ number t :=
    fun x hx on hon => hmax x (Finset.mem_filter.2 ⟨List.mem_toFinset.2 hx, on, hon⟩)
  obtain ⟨htmem, on, hon⟩ := Finset.mem_filter.1 ht
  rw [List.mem_toFinset] at htmem
  rcases on with _ | _
  · exact ⟨t, htmem, hon, hle e he true hs, hle⟩
  · exact absurd ⟨t, htmem, hon, hle⟩ hdead

/-- After a key has been switched on and off at last, nothing is shown, whatever was before. -/
theorem exists_perm_hidden (hdistinct : Distinct number events)
    (habove : i.Above number switches events) (he : e ∈ events)
    (hs : switches e = some (key, true)) (hdead : ¬Live number switches events key) :
    ∃ order : List ε, order.Perm events
      ∧ (order.foldl (take number switches) i).shown = none := by
  obtain ⟨t, ht, hoff, hle, hmax⟩ := exists_off_of_not_live he hs hdead
  have hne : t ≠ e := fun heq => by simp [heq, hs] at hoff
  have hlt : number e < number t := lt_of_le_of_ne hle fun heq => hne (hdistinct.eq ht he heq.symm)
  obtain ⟨r, hr⟩ : ∃ r, events.Perm (e :: t :: r) := by
    obtain ⟨a, b, rfl⟩ := List.append_of_mem he
    have hmem : t ∈ a ++ b := by
      rcases List.mem_append.1 ht with h | h
      · exact List.mem_append_left _ h
      · exact List.mem_append_right _ ((List.mem_cons.1 h).resolve_left hne)
    obtain ⟨c, d, hcd⟩ := List.append_of_mem hmem
    refine ⟨c ++ d, List.perm_middle.trans (List.Perm.cons e ?_)⟩
    rw [hcd]
    exact List.perm_middle
  -- the events of other keys first, then `e` and `t`, and what `t` has made old
  let own : ε → Bool := fun x => (switches x).any fun s => s.1 = key
  have hown : ∀ x, own x = true ↔ ∃ on, switches x = some (key, on) := fun x => by
    rcases hx : switches x with _ | ⟨key', on⟩ <;> simp [own, hx]
  refine ⟨r.filter (!own ·) ++ e :: t :: r.filter own, ?_, ?_⟩
  · have hsplit : (r.filter (!own ·) ++ r.filter own).Perm r :=
      List.perm_append_comm.trans (List.filter_append_perm own r)
    refine List.perm_middle.trans (((List.perm_middle.trans ?_).cons e).trans hr.symm)
    exact hsplit.cons t
  · have hothers : ((r.filter (!own ·)).foldl (take number switches) i).counter key
        = i.counter key :=
      (counter_foldl (r.filter (!own ·)) i key).1.resolve_right fun ⟨x, hx, hkey, _⟩ => by
        have hnot := (List.mem_filter.1 hx).2
        simp [(hown x).2 hkey] at hnot
    rw [List.foldl_append, List.foldl_cons, List.foldl_cons]
    generalize (r.filter (!own ·)).foldl (take number switches) i = i₁ at hothers ⊢
    have hnew : i₁.counter key < number e := hothers ▸ habove e he key true hs
    have hcounter : (i₁.take number switches e).counter key = number e := by
      rw [counter_take_self hs, max_eq_right hnew.le]
    have hshown := shown_take hs hnew
    generalize i₁.take number switches e = i₂ at hcounter hshown ⊢
    rw [take_new hoff (hcounter ▸ hlt)]
    have hold : ∀ x ∈ r.filter own, ∃ on, switches x = some (key, on)
        ∧ number x ≤ Function.update i₂.counter key (number t) key := by
      intro x hx
      obtain ⟨hxr, hxown⟩ := List.mem_filter.1 hx
      obtain ⟨on, hon⟩ := (hown x).1 hxown
      rw [Function.update_self]
      exact ⟨on, hon, hmax x (hr.mem_iff.2 (by simp [hxr])) on hon⟩
    rw [foldl_of_old hold]
    simp [hshown]

/-- Where a key stays on and another one is ever switched on, the order matters. -/
theorem exists_perms {key' : κ} (hdistinct : Distinct number events)
    (habove : i.Above number switches events) (hlive : Live number switches events key)
    (he : e ∈ events) (hs : switches e = some (key', true)) (hne : key' ≠ key) :
    ∃ order order' : List ε, order.Perm events ∧ order'.Perm events
      ∧ (order.foldl (take number switches) i).shown
        ≠ (order'.foldl (take number switches) i).shown := by
  obtain ⟨order, hperm, hshown⟩ := exists_perm_shown hdistinct habove hlive
  by_cases hlive' : Live number switches events key'
  · obtain ⟨order', hperm', hshown'⟩ := exists_perm_shown hdistinct habove hlive'
    exact ⟨order, order', hperm, hperm', by simpa [hshown, hshown'] using hne.symm⟩
  · obtain ⟨order', hperm', hshown'⟩ := exists_perm_hidden hdistinct habove he hs hlive'
    exact ⟨order, order', hperm, hperm', by simp [hshown, hshown']⟩

end Indicator

end LastWriter

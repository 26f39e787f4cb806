import Mathlib.Data.List.Chain

/-!
# What a history leaves behind

What some events set and others clear is set after a history iff an event that sets it has none that
clears it behind it (`Since`). What is told only when it changes (`edge`) alternates (`Alternates`),
and the last that was told is what it is (`Tells`), also where the value is whether a set has a key
and `changes` tells how the set changes.
-/

namespace History

section Since

variable {α : Type*} {sets clears : α → Prop} {l : List α}

/-- An event of `l` sets, and none behind it clears. -/
def Since (sets clears : α → Prop) (l : List α) : Prop :=
  ∃ before a after, l = before ++ a :: after ∧ sets a ∧ ∀ b ∈ after, ¬clears b

@[simp] theorem since_nil : ¬Since sets clears [] := by
  rintro ⟨before, a, after, hsplit, -⟩
  simp at hsplit

theorem since_append_singleton {a : α} :
    Since sets clears (l ++ [a]) ↔ sets a ∨ (Since sets clears l ∧ ¬clears a) := by
  constructor
  · rintro ⟨before, b, after, hsplit, hsets, hclears⟩
    rcases List.eq_nil_or_concat after with rfl | ⟨after, c, rfl⟩
    · obtain ⟨-, rfl⟩ := List.append_singleton_inj.1 hsplit
      exact .inl hsets
    · rw [List.concat_eq_append] at hsplit hclears
      rw [← List.cons_append, ← List.append_assoc] at hsplit
      obtain ⟨rfl, rfl⟩ := List.append_singleton_inj.1 hsplit
      refine .inr ⟨⟨before, b, after, rfl, hsets, fun c hc => hclears c ?_⟩, hclears a ?_⟩
      · exact List.mem_append_left _ hc
      · exact List.mem_append_right _ List.mem_cons_self
  · rintro (hsets | ⟨⟨before, b, after, rfl, hsets, hclears⟩, ha⟩)
    · exact ⟨l, a, [], rfl, hsets, by simp⟩
    · refine ⟨before, b, after ++ [a], by simp, hsets, fun c hc => ?_⟩
      rcases List.mem_append.1 hc with hc | hc
      · exact hclears c hc
      · rwa [List.mem_singleton.1 hc]

theorem since_cons_of_not {a : α} (ha : ¬sets a) :
    Since sets clears (a :: l) ↔ Since sets clears l := by
  induction l using List.reverseRecOn with
  | nil =>
    rw [← List.nil_append [a], since_append_singleton]
    simp [ha]
  | append_singleton l b ih =>
    rw [← List.cons_append, since_append_singleton, since_append_singleton, ih]

theorem since_map {β : Type*} {f : β → α} {l : List β} :
    Since sets clears (l.map f) ↔ Since (sets <| f ·) (clears <| f ·) l := by
  induction l using List.reverseRecOn with
  | nil => simp
  | append_singleton l b ih =>
    rw [List.map_append, List.map_singleton, since_append_singleton, since_append_singleton, ih]

/-- What is set by one value and cleared by the other is set if the last value sets it. -/
theorem since_iff_getLast? (p value : α → Bool) (l : List α) :
    Since (fun a => p a = true ∧ value a = true) (fun a => p a = true ∧ value a = false) l
      ↔ ((l.filter p).map value).getLast? = some true := by
  induction l using List.reverseRecOn with
  | nil => simp
  | append_singleton l a ih =>
    rw [since_append_singleton, ih, List.filter_append]
    rcases hp : p a with _ | _
    · simp [hp]
    · rcases hvalue : value a with _ | _ <;> simp [hp, hvalue]

end Since

section Alternates

/-- Each value is another one than the value before it, the first another one than `b`. -/
def Alternates (b : Bool) (l : List Bool) : Prop := List.IsChain (· ≠ ·) (b :: l)

theorem alternates_append_singleton {b c : Bool} {l : List Bool} :
    Alternates b (l ++ [c]) ↔ Alternates b l ∧ l.getLastD b ≠ c := by
  unfold Alternates
  rw [← List.cons_append, List.isChain_append]
  simp [List.getLast?_cons]

theorem alternates_nil {b : Bool} : Alternates b [] := List.isChain_singleton _

/-- What is told of a value that was `b` and is `c`. -/
def edge (b c : Bool) : List Bool := if b = c then [] else [c]

/-- What was told of a value that was `false` at first and is `b` now. -/
structure Tells (told : List Bool) (b : Bool) : Prop where
  alternates : Alternates false told
  last : told.getLastD false = b

theorem tells_nil : Tells [] false := ⟨alternates_nil, rfl⟩

theorem Tells.append_edge {told : List Bool} {b : Bool} (h : Tells told b) (c : Bool) :
    Tells (told ++ edge b c) c := by
  unfold edge
  split_ifs with hbc
  · rw [List.append_nil, ← hbc]
    exact h
  · refine ⟨alternates_append_singleton.2 ⟨h.alternates, ?_⟩, List.getLastD_concat⟩
    rw [h.last]
    exact hbc

theorem Tells.getLast?_iff {told : List Bool} {b : Bool} (h : Tells told b) :
    told.getLast? = some true ↔ b = true := by
  rw [← h.last, List.getLastD_eq_getLast?]
  rcases told.getLast? with _ | c <;> simp

end Alternates

section Changes

variable {κ : Type*} [DecidableEq κ]

/-- The keys that a set loses, and then those that it gains. -/
def changes (old new : List κ) : List (κ × Bool) :=
  (old.filter fun k => k ∉ new).map (·, false) ++ (new.filter fun k => k ∉ old).map (·, true)

/-- What is told of a key. -/
def toldOf (k : κ) (l : List (κ × Bool)) : List Bool :=
  (l.filter fun change => change.1 = k).map Prod.snd

theorem toldOf_append (k : κ) (l l' : List (κ × Bool)) :
    toldOf k (l ++ l') = toldOf k l ++ toldOf k l' := by simp [toldOf]

theorem toldOf_map {k : κ} {b : Bool} {l : List κ} (h : l.Nodup) :
    toldOf k (l.map (·, b)) = if k ∈ l then [b] else [] := by
  have hfilter : ((l.map (·, b)).filter fun change => change.1 = k)
      = (l.filter (· = k)).map (·, b) := List.filter_map
  rw [toldOf, hfilter, List.filter_eq, h.count]
  split_ifs <;> simp

/-- Every key is told of when it comes or goes. -/
theorem toldOf_changes {old new : List κ} (hold : old.Nodup) (hnew : new.Nodup) (k : κ) :
    toldOf k (changes old new) = edge (k ∈ old) (k ∈ new) := by
  rw [changes, toldOf_append, toldOf_map (hold.filter _), toldOf_map (hnew.filter _)]
  by_cases hk : k ∈ old <;> by_cases hk' : k ∈ new <;> simp [edge, hk, hk']

end Changes

section Gathers

variable {σ α : Type*} {f : σ → α → σ} {p : σ → Prop} {q : α → Prop}

/-- What no element takes away holds in the end if it held before or an element added it. -/
theorem foldl_iff (hstep : ∀ s a, p (f s a) ↔ p s ∨ q a) :
    ∀ (l : List α) (s : σ), p (l.foldl f s) ↔ p s ∨ ∃ a ∈ l, q a
  | [], s => by simp
  | a :: l, s => by
    simp [foldl_iff hstep l, hstep, or_assoc]

end Gathers

end History

import Mathlib.Data.List.TakeWhile
import Mathlib.Tactic.Common

/-!
# Fields between separators

A scan takes the fields of a text from separator to separator and stops where the text ends
(`Scans`). Joining the fields again gives the text, or all of it but a separator at its end, behind
which the scan sees no field (`scans_iff`).
-/

namespace Separated

variable {α : Type*} {sep : α} {text field rest : List α} {fields fields' : List (List α)}

/-- The scan of a text takes these fields. -/
inductive Scans (sep : α) : List α → List (List α) → Prop
  | nil : Scans sep [] []
  | last {field : List α} (hne : field ≠ []) (hsep : sep ∉ field) : Scans sep field [field]
  | cons {field rest : List α} {fields : List (List α)} (hsep : sep ∉ field)
    (hrest : Scans sep rest fields) : Scans sep (field ++ sep :: rest) (field :: fields)

theorem intercalate_cons (h : fields ≠ []) :
    [sep].intercalate (field :: fields) = field ++ sep :: [sep].intercalate fields := by
  rw [List.intercalate_cons_of_ne_nil h]
  simp

theorem intercalate_append_empty : ∀ {fields : List (List α)}, fields ≠ [] →
    [sep].intercalate (fields ++ [[]]) = [sep].intercalate fields ++ [sep]
  | [field], _ => by simp
  | field :: next :: fields, _ => by
    rw [List.cons_append, intercalate_cons (by simp), intercalate_cons (List.cons_ne_nil _ _),
      intercalate_append_empty (List.cons_ne_nil next fields), List.append_assoc, List.cons_append]

/-- The fields are told by their join. -/
theorem eq_of_intercalate_eq (hne : fields ≠ []) (hne' : fields' ≠ [])
    (hsep : ∀ field ∈ fields, sep ∉ field) (hsep' : ∀ field ∈ fields', sep ∉ field)
    (h : [sep].intercalate fields = [sep].intercalate fields') : fields = fields' := by
  classical
  rw [← List.splitOn_intercalate sep hsep hne, h, List.splitOn_intercalate sep hsep' hne']

/-- Where the last field is not empty, a separator behind is not one of a join. -/
theorem intercalate_ne_append_sep (hne : fields ≠ []) (hne' : fields' ≠ [])
    (hsep : ∀ field ∈ fields, sep ∉ field) (hsep' : ∀ field ∈ fields', sep ∉ field)
    (hlast : [] ∉ fields) : [sep].intercalate fields ≠ [sep].intercalate fields' ++ [sep] := by
  intro h
  rw [← intercalate_append_empty hne'] at h
  have hempty : ∀ field ∈ fields' ++ [[]], sep ∉ field := by
    simpa [or_imp, forall_and] using hsep'
  have heq := eq_of_intercalate_eq hne (by simp) hsep hempty h
  exact hlast (heq ▸ by simp)

theorem Scans.sep_notMem (h : Scans sep text fields) : ∀ field ∈ fields, sep ∉ field := by
  induction h with
  | nil => simp
  | last _ hsep => simpa using hsep
  | cons hsep _ ih => exact List.forall_mem_cons.2 ⟨hsep, ih⟩

theorem Scans.eq_intercalate (h : Scans sep text fields) :
    text = [sep].intercalate fields ∧ fields.getLast? ≠ some []
      ∨ fields ≠ [] ∧ text = [sep].intercalate fields ++ [sep] := by
  induction h with
  | nil => simp
  | last hne _ => simp [hne]
  | @cons field rest fields _ _ ih =>
    by_cases hfields : fields = []
    · obtain rfl : rest = [] := by simpa [hfields] using ih
      exact .inr ⟨by simp, by simp [hfields]⟩
    · rw [intercalate_cons hfields, List.getLast?_cons_of_ne_nil hfields]
      rcases ih with ⟨hrest, hlast⟩ | ⟨-, hrest⟩
      · exact .inl ⟨by rw [hrest], hlast⟩
      · exact .inr ⟨by simp, by simp [hrest]⟩

theorem scans_intercalate : ∀ {fields : List (List α)}, (∀ field ∈ fields, sep ∉ field) →
    fields.getLast? ≠ some [] → Scans sep ([sep].intercalate fields) fields
  | [], _, _ => .nil
  | [field], hsep, hlast => by
    rw [List.intercalate_singleton]
    exact .last (by simpa using hlast) (hsep field List.mem_cons_self)
  | field :: next :: fields, hsep, hlast => by
    rw [intercalate_cons (List.cons_ne_nil _ _)]
    rw [List.getLast?_cons_of_ne_nil (List.cons_ne_nil _ _)] at hlast
    exact .cons (hsep field List.mem_cons_self)
      (scans_intercalate (fun f hf => hsep f (List.mem_cons_of_mem _ hf)) hlast)

theorem scans_intercalate_sep : ∀ {fields : List (List α)}, (∀ field ∈ fields, sep ∉ field) →
    fields ≠ [] → Scans sep ([sep].intercalate fields ++ [sep]) fields
  | [field], hsep, _ => by
    rw [List.intercalate_singleton]
    exact .cons (hsep field List.mem_cons_self) .nil
  | field :: next :: fields, hsep, _ => by
    rw [intercalate_cons (List.cons_ne_nil _ _), List.append_assoc, List.cons_append]
    exact .cons (hsep field List.mem_cons_self)
      (scans_intercalate_sep (fun f hf => hsep f (List.mem_cons_of_mem _ hf))
        (List.cons_ne_nil _ _))

theorem scans_iff : Scans sep text fields ↔ (∀ field ∈ fields, sep ∉ field)
    ∧ (text = [sep].intercalate fields ∧ fields.getLast? ≠ some []
      ∨ fields ≠ [] ∧ text = [sep].intercalate fields ++ [sep]) := by
  refine ⟨fun h => ⟨h.sep_notMem, h.eq_intercalate⟩, ?_⟩
  rintro ⟨hsep, ⟨rfl, hlast⟩ | ⟨hne, rfl⟩⟩
  · exact scans_intercalate hsep hlast
  · exact scans_intercalate_sep hsep hne

/-- Where no field is empty, the text tells whether it ends with a separator. -/
theorem scans_iff_of_forall_ne_nil (hne : ∀ field ∈ fields, field ≠ []) :
    Scans sep text fields ↔ (∀ field ∈ fields, sep ∉ field)
      ∧ (text = [sep].intercalate fields
        ∨ fields ≠ [] ∧ text = [sep].intercalate fields ++ [sep]) := by
  rw [scans_iff, and_iff_left fun hlast => hne [] (List.mem_of_getLast? hlast) rfl]

/-! ## Scanning with `takeWhile` -/

@[simp] theorem scans_nil_iff : Scans sep [] fields ↔ fields = [] := by
  constructor
  · intro h
    generalize hnil : ([] : List α) = text at h
    cases h with
    | nil => rfl
    | last hne _ => exact absurd hnil.symm hne
    | cons _ _ => simp at hnil
  · rintro rfl
    exact .nil

variable [DecidableEq α]

theorem sep_notMem_takeWhile : sep ∉ text.takeWhile (· ≠ sep) := fun h => by
  simpa using List.mem_takeWhile_imp h

theorem takeWhile_of_notMem (h : sep ∉ field) : field.takeWhile (· ≠ sep) = field :=
  List.takeWhile_eq_self_iff.2 fun x hx => by simpa using ne_of_mem_of_not_mem hx h

theorem span_field_sep (h : sep ∉ field) :
    (field ++ sep :: rest).takeWhile (· ≠ sep) = field
      ∧ (field ++ sep :: rest).dropWhile (· ≠ sep) = sep :: rest := by
  have hfield : ∀ x ∈ field, decide (x ≠ sep) = true := fun x hx => by
    simpa using ne_of_mem_of_not_mem hx h
  rw [List.takeWhile_append_of_pos hfield, List.dropWhile_append_of_pos hfield]
  simp

/-- The first field is the text before the first separator. -/
theorem Scans.head?_eq (h : Scans sep text fields) (htext : text ≠ []) :
    fields.head? = some (text.takeWhile (· ≠ sep)) := by
  cases h with
  | nil => exact absurd rfl htext
  | last _ hsep => rw [takeWhile_of_notMem hsep, List.head?_cons]
  | cons hsep _ => rw [(span_field_sep hsep).1, List.head?_cons]

/-- The last field reaches to the end of the text. -/
theorem scans_of_dropWhile_nil (htext : text ≠ []) (h : text.dropWhile (· ≠ sep) = []) :
    Scans sep text fields ↔ fields = [text.takeWhile (· ≠ sep)] := by
  have heq : text.takeWhile (· ≠ sep) = text := by
    have happend := List.takeWhile_append_dropWhile (p := (· ≠ sep)) (l := text)
    rwa [h, List.append_nil] at happend
  have hsep : sep ∉ text := heq ▸ sep_notMem_takeWhile
  rw [heq]
  constructor
  · rintro (_ | _ | ⟨hfield, hrest⟩)
    · exact absurd rfl htext
    · rfl
    · simp at hsep
  · rintro rfl
    exact .last htext hsep

/-- Behind a separator the scan goes on. -/
theorem scans_of_dropWhile_cons {x : α} (h : text.dropWhile (· ≠ sep) = x :: rest) :
    Scans sep text fields ↔
      ∃ more, fields = text.takeWhile (· ≠ sep) :: more ∧ Scans sep rest more := by
  have heq := List.takeWhile_append_dropWhile (p := (· ≠ sep)) (l := text)
  obtain rfl : x = sep := by
    have hhead := List.head?_dropWhile_not (· ≠ sep) text
    rw [h] at hhead
    simpa using hhead
  constructor
  · intro hscans
    cases hscans with
    | nil => simp at h
    | last _ hsep =>
      rw [h, takeWhile_of_notMem hsep] at heq
      simp at heq
    | cons hsep hrest =>
      obtain ⟨htake, hdrop⟩ := span_field_sep hsep
      rw [hdrop, List.cons.injEq] at h
      exact ⟨_, by rw [htake], h.2 ▸ hrest⟩
  · rintro ⟨more, rfl, hrest⟩
    rw [h] at heq
    nth_rewrite 1 [← heq]
    exact .cons sep_notMem_takeWhile hrest

end Separated

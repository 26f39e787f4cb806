import Mathlib.Data.List.Nodup
import Mathlib.Data.List.Sort
import Mathlib.Tactic.Common

/-!
# Keyed relations

A table of a database has a key, a check of its rows, and references to rows of other tables. An
insert keeps what is declared of a table (`Holds.insert`) or is refused. Where rows are deleted,
those that reference them are deleted with them (`cascade`). What a query reads is its rows in the
order of a column, each once (`select_perm`).
-/

namespace Relation

variable {δ ρ κ : Type*}

/-- What a row violates. -/
inductive Violation
  | check | primaryKey | foreignKey
  deriving DecidableEq, Repr

/-- A table of the databases `δ`, and what is declared of it. -/
structure Table (δ ρ κ : Type*) where
  rows : δ → List ρ
  withRows : List ρ → δ → δ
  key : ρ → κ
  check : ρ → Bool
  references : δ → ρ → Bool

namespace Table

variable (T : Table δ ρ κ)

/-- The table can be written by itself, and no row references its own table. -/
structure Lawful : Prop where
  rows_withRows : ∀ rows db, T.rows (T.withRows rows db) = rows
  withRows_rows : ∀ db, T.withRows (T.rows db) db = db
  withRows_withRows : ∀ rows rows' db,
    T.withRows rows (T.withRows rows' db) = T.withRows rows db
  references_withRows : ∀ rows db, T.references (T.withRows rows db) = T.references db

/-- `INSERT`. -/
def insert [DecidableEq κ] (row : ρ) (db : δ) : Except Violation δ :=
  if T.check row = false then .error .check
  else if (T.rows db).any fun r => T.key r = T.key row then .error .primaryKey
  else if T.references db row = false then .error .foreignKey
  else .ok (T.withRows (T.rows db ++ [row]) db)

/-- `ON DELETE CASCADE`: what is left of the table when rows it references are gone. -/
def cascade (db : δ) : δ := T.withRows ((T.rows db).filter (T.references db)) db

/-- What is declared of the table holds; databases that agree on the table and on what it references
have the same. -/
def Holds (db : δ) : Prop :=
  ((T.rows db).map T.key).Nodup
    ∧ ∀ row ∈ T.rows db, T.check row = true ∧ T.references db row = true

variable {T} {db db' : δ}

theorem Holds.keys_unique (h : T.Holds db) : ((T.rows db).map T.key).Nodup := h.1

theorem Holds.checked (h : T.Holds db) {row : ρ} (hr : row ∈ T.rows db) : T.check row = true :=
  (h.2 row hr).1

theorem Holds.referenced (h : T.Holds db) {row : ρ} (hr : row ∈ T.rows db) :
    T.references db row = true :=
  (h.2 row hr).2

theorem insert_ok [DecidableEq κ] {row : ρ} (hcheck : T.check row = true)
    (hkey : T.key row ∉ (T.rows db).map T.key) (hreferences : T.references db row = true) :
    T.insert row db = .ok (T.withRows (T.rows db ++ [row]) db) := by
  have hany : ((T.rows db).any fun r => T.key r = T.key row) = false := by
    rw [List.any_eq_false]
    intro r hr heq
    exact hkey (of_decide_eq_true heq ▸ List.mem_map_of_mem hr)
  unfold insert
  simp [hcheck, hany, hreferences]

theorem of_insert [DecidableEq κ] {row : ρ} (h : T.insert row db = .ok db') :
    T.check row = true ∧ T.key row ∉ (T.rows db).map T.key ∧ T.references db row = true
      ∧ db' = T.withRows (T.rows db ++ [row]) db := by
  unfold insert at h
  split_ifs at h with hcheck hkey hreferences
  refine ⟨by simpa using hcheck, fun hmem => hkey ?_, by simpa using hreferences,
    (Except.ok.inj h).symm⟩
  obtain ⟨r, hr, heq⟩ := List.mem_map.1 hmem
  exact List.any_eq_true.2 ⟨r, hr, decide_eq_true heq⟩

theorem Holds.insert [DecidableEq κ] (h : T.Holds db) (hT : T.Lawful) {row : ρ}
    (hinsert : T.insert row db = .ok db') : T.Holds db' := by
  obtain ⟨hcheck, hkey, hreferences, rfl⟩ := of_insert hinsert
  unfold Holds
  rw [hT.rows_withRows, hT.references_withRows, List.map_append]
  refine ⟨List.nodup_append.2 ⟨h.keys_unique, List.nodup_singleton _, fun k hk k' hk' heq =>
    hkey (List.mem_singleton.1 hk' ▸ heq ▸ hk)⟩, fun r hr => ?_⟩
  rcases List.mem_append.1 hr with hr | hr
  · exact h.2 r hr
  · rw [List.mem_singleton.1 hr]
    exact ⟨hcheck, hreferences⟩

/-- Rows that are referenced may become more. -/
theorem Holds.mono (h : T.Holds db) (hrows : T.rows db' = T.rows db)
    (hreferences : ∀ row, T.references db row = true → T.references db' row = true) :
    T.Holds db' := by
  unfold Holds
  rw [hrows]
  exact ⟨h.keys_unique, fun row hr => ⟨h.checked hr, hreferences row (h.referenced hr)⟩⟩

/-- What is left after the rows of some owners are gone. -/
theorem Holds.restrict (h : T.Holds db) {keep : ρ → Bool}
    (hrows : T.rows db' = (T.rows db).filter keep)
    (hreferences : ∀ row, keep row = true → T.references db row = true →
      T.references db' row = true) : T.Holds db' := by
  unfold Holds
  rw [hrows]
  refine ⟨h.keys_unique.sublist (List.filter_sublist.map T.key), fun row hr => ?_⟩
  obtain ⟨hr, hkeep⟩ := List.mem_filter.1 hr
  exact ⟨h.checked hr, hreferences row hkeep (h.referenced hr)⟩

/-- Where the rows that are referenced stay exactly for the owners that `keep` accepts, so do the
rows that reference them. -/
theorem Holds.cascade_eq (h : T.Holds db) (keep : ρ → Bool) (hrows : T.rows db' = T.rows db)
    (hreferences : ∀ row, T.references db' row = (keep row && T.references db row)) :
    T.cascade db' = T.withRows ((T.rows db).filter keep) db' := by
  have hkept : (T.rows db).filter (T.references db') = (T.rows db).filter keep :=
    List.filter_congr fun row hr => by rw [hreferences, h.referenced hr, Bool.and_true]
  unfold cascade
  rw [hrows, hkept]

end Table

/-! ## Parents -/

section Parents

variable {π ω : Type*} {parents : List π} {owner : π → ω} {isParent : π → Bool} {o : ω}

theorem any_append_of_any (more : List π) (h : parents.any isParent = true) :
    (parents ++ more).any isParent = true := by
  rw [List.any_append, h, Bool.true_or]

/-- The parent of a row belongs to the owner of the row. -/
theorem any_filter_owner (howner : ∀ p, isParent p = true → owner p = o) (keep : ω → Bool) :
    ((parents.filter fun p => keep (owner p)).any isParent) = (keep o && parents.any isParent) := by
  rw [List.any_filter, Bool.eq_iff_iff, Bool.and_eq_true, List.any_eq_true, List.any_eq_true]
  constructor
  · rintro ⟨p, hp, h⟩
    obtain ⟨hkeep, hparent⟩ := Bool.and_eq_true_iff.1 h
    exact ⟨howner p hparent ▸ hkeep, p, hp, hparent⟩
  · rintro ⟨hkeep, p, hp, hparent⟩
    exact ⟨p, hp, Bool.and_eq_true_iff.2 ⟨howner p hparent ▸ hkeep, hparent⟩⟩

end Parents

/-! ## Queries -/

section Select

variable [Ord κ] (condition : ρ → Bool) (column : ρ → κ)

/-- `SELECT … WHERE condition ORDER BY column`. -/
def select (rows : List ρ) : List ρ :=
  (rows.filter condition).insertionSort fun a b => (compare (column a) (column b)).isLE = true

theorem select_perm (rows : List ρ) :
    (rows.filter condition).Perm (select condition column rows) :=
  (List.perm_insertionSort _ _).symm

/-- A query does not see the rows that its condition leaves out. -/
theorem select_filter {p : ρ → Bool} (h : ∀ row, condition row = true → p row = true)
    (rows : List ρ) : select condition column (rows.filter p) = select condition column rows := by
  have hfilter : (rows.filter p).filter condition = rows.filter condition := by
    rw [List.filter_filter]
    refine List.filter_congr fun row _ => ?_
    rcases hrow : condition row with _ | _
    · rfl
    · rw [h row hrow, Bool.and_self]
  unfold select
  rw [hfilter]

/-- Rows that are in the order of the column already. -/
theorem select_of_ascending {rows : List ρ}
    (h : rows.Pairwise fun a b => (compare (column a) (column b)).isLE = true) :
    select condition column rows = rows.filter condition :=
  (h.sublist List.filter_sublist).insertionSort_eq

end Select

end Relation

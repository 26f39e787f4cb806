import Mathlib.Algebra.Order.BigOperators.Group.Finset
import VoxTree.Lib.Progress
import VoxTree.Proofs.AuditMigration
import VoxTree.SchemaMigrations

/-!
# Migrations that race and crash

Whatever processes open the database file at the same time, and wherever they die: what is committed
is the schema of one version with its ledger, and the rows are those that were written last
(`migrations_atomic`). As long as nothing fails, one of those that open it at the same time gets
there (`race_has_winner`).
-/

namespace VoxTree

open Relation Transactions Machine

namespace SchemaMigrations

open SqliteControlPlaneRepository (auditEvents)

/-! ## The schema of a version -/

/-- The tables of the schema of a version. -/
def tablesAt : ℕ → List TableName
  | 0 => []
  | 1 => [.schemaMigrations, .sessions]
  | 2 =>
    [.schemaMigrations, .sessions, .membershipContexts, .membershipScopes, .membershipGroups,
      .membershipSpecializations, .membershipTeams, .memberships, .membershipRoleAssignments,
      .rolePermissions, .roleTransmitScopes, .roleReceiveScopes]
  | _ =>
    [.schemaMigrations, .sessions, .membershipContexts, .membershipScopes, .membershipGroups,
      .membershipSpecializations, .membershipTeams, .memberships, .membershipRoleAssignments,
      .rolePermissions, .roleTransmitScopes, .roleReceiveScopes, .transmissionAuditEvents]

theorem tablesAt_succ (version : ℕ) : tablesAt version ⊆ tablesAt (version + 1) := by
  rcases version with _ | _ | _ | version
  · decide
  · decide
  · decide
  · exact List.Subset.refl _

theorem tablesAt_mono {version version' : ℕ} (h : version ≤ version') :
    tablesAt version ⊆ tablesAt version' := by
  induction h with
  | refl => exact List.Subset.refl _
  | step _ ih => exact List.Subset.trans ih (tablesAt_succ _)

def indexesAt : ℕ → List (String × TableName)
  | 0 => []
  | 1 | 2 => [("sessions_by_player", .sessions), ("sessions_by_expiration", .sessions)]
  | _ =>
    [("sessions_by_player", .sessions), ("sessions_by_expiration", .sessions),
      ("transmission_audit_events_by_time", .transmissionAuditEvents)]

/-- The highest rejection reason in the audit events of a version. -/
def rejectionAt (version : ℕ) : ℤ := if version = 3 then 17 else 19

/-- The file has the schema of the version: no other tables and indexes, each migration up to it in
the ledger once, and audit events that keep their constraints. -/
structure AtVersion (version : ℕ) (db : Database) : Prop where
  userVersion : db.userVersion = version
  tables : ∀ name, (db.tables name).isSome = decide (name ∈ tablesAt version)
  indexes : db.indexes = indexesAt version
  ledger : ∀ ledger, db.tables .schemaMigrations = some ledger →
    ledger = (migrations.take version).map fun migration => (migration.version, migration.name)
  audit : ∀ audit, db.tables .transmissionAuditEvents = some audit →
    audit.maximumRejection = rejectionAt version
      ∧ (auditEvents audit.maximumRejection).Holds audit.table

/-- Every row of sessions and memberships, and of audit events up to their order. -/
structure RowsKept (db db' : Database) : Prop where
  tables : ∀ name content, name ≠ .schemaMigrations → name ≠ .transmissionAuditEvents →
    db.tables name = some content → db'.tables name = some content
  audit : ∀ audit, db.tables .transmissionAuditEvents = some audit →
    ∃ audit', db'.tables .transmissionAuditEvents = some audit'
      ∧ audit.table.rows.Perm audit'.table.rows

theorem RowsKept.refl (db : Database) : RowsKept db db where
  tables _ _ _ _ h := h
  audit audit h := ⟨audit, h, .refl _⟩

theorem RowsKept.trans {db db' db'' : Database} (h : RowsKept db db') (h' : RowsKept db' db'') :
    RowsKept db db'' where
  tables name content hl ha hname :=
    h'.tables name content hl ha (h.tables name content hl ha hname)
  audit audit haudit := by
    obtain ⟨audit', haudit', hperm⟩ := h.audit audit haudit
    obtain ⟨audit'', haudit'', hperm'⟩ := h'.audit audit' haudit'
    exact ⟨audit'', haudit'', hperm.trans hperm'⟩

theorem atVersion_zero : AtVersion 0 {} where
  userVersion := rfl
  tables name := by simp [tablesAt]
  indexes := rfl
  ledger _ h := by cases h
  audit _ h := by cases h

namespace AtVersion

variable {version : ℕ} {db : Database}

theorem table_none (h : AtVersion version db) (name : TableName) (hname : name ∉ tablesAt version) :
    db.tables name = none := by
  simpa [hname] using h.tables name

theorem table_some (h : AtVersion version db) (name : TableName) (hname : name ∈ tablesAt version) :
    ∃ content, db.tables name = some content :=
  Option.isSome_iff_exists.1 (by simp [h.tables name, hname])

end AtVersion

/-! ## A migration on its own -/

section Migrate

variable {db : Database}

@[simp] theorem setTable_self (name : TableName) (content : Option (Content name)) :
    (db.setTable name content).tables name = content := by
  simp [Database.setTable]

@[simp] theorem setTable_of_ne {name other : TableName} (h : other ≠ name)
    (content : Option (Content name)) :
    (db.setTable name content).tables other = db.tables other := by
  simp [Database.setTable, h]

@[simp] theorem setTable_indexes (name : TableName) (content : Option (Content name)) :
    (db.setTable name content).indexes = db.indexes := rfl

@[simp] theorem setTable_userVersion (name : TableName) (content : Option (Content name)) :
    (db.setTable name content).userVersion = db.userVersion := rfl

/-- A table made by a statement. -/
def create (db : Database) (entry : (name : TableName) × Content name) : Database :=
  db.setTable entry.1 (some entry.2)

theorem create_tables_of_notMem : ∀ {entries : List ((name : TableName) × Content name)}
    {db : Database} {name : TableName}, name ∉ entries.map Sigma.fst →
      (entries.foldl create db).tables name = db.tables name
  | [], _, _, _ => rfl
  | entry :: entries, db, name, h => by
    rw [List.map_cons, List.mem_cons, not_or] at h
    rw [List.foldl_cons, create_tables_of_notMem h.2]
    exact setTable_of_ne h.1 _

theorem create_isSome : ∀ {entries : List ((name : TableName) × Content name)} {db : Database}
    (name : TableName), ((entries.foldl create db).tables name).isSome
      = (decide (name ∈ entries.map Sigma.fst) || (db.tables name).isSome)
  | [], _, _ => by simp
  | entry :: entries, db, name => by
    rw [List.foldl_cons, create_isSome]
    by_cases h : name = entry.1
    · subst h
      simp [create]
    · rw [create, setTable_of_ne h]
      refine congrArg (· || _) (decide_eq_decide.2 ?_)
      rw [List.map_cons, List.mem_cons, or_iff_right h]

theorem create_indexes (entries : List ((name : TableName) × Content name)) (db : Database) :
    (entries.foldl create db).indexes = db.indexes := by
  induction entries generalizing db with
  | nil => rfl
  | cons entry entries ih => exact ih _

theorem create_rowsKept {entries : List ((name : TableName) × Content name)}
    (hnew : ∀ entry ∈ entries, db.tables entry.1 = none) :
    RowsKept db (entries.foldl create db) := by
  have hkept : ∀ name content, db.tables name = some content →
      (entries.foldl create db).tables name = some content := by
    intro name content hname
    rw [create_tables_of_notMem, hname]
    intro hmem
    obtain ⟨entry, hentry, rfl⟩ := List.mem_map.1 hmem
    rw [hnew entry hentry] at hname
    cases hname
  exact ⟨fun name content _ _ => hkept name content, fun audit haudit =>
    ⟨audit, hkept _ _ haudit, .refl _⟩⟩

theorem execute_createTable {name : TableName} (h : db.tables name = none)
    (empty : Content name) :
    execute (.createTable name empty) db = .ok (db.setTable name (some empty)) := by
  simp [execute, h]

theorem Ends.creates {rest : List Statement} {P : Database → Prop} :
    ∀ {entries : List ((name : TableName) × Content name)} {db : Database},
      (∀ entry ∈ entries, db.tables entry.1 = none) → (entries.map Sigma.fst).Nodup →
        Ends execute rest (entries.foldl create db) P →
          Ends execute (entries.map (fun entry => .createTable entry.1 entry.2) ++ rest) db P
  | [], _, _, _, h => h
  | entry :: entries, db, hnew, hnodup, h => by
    rw [List.map_cons, List.nodup_cons] at hnodup
    refine .cons (execute_createTable (hnew entry List.mem_cons_self) entry.2) ?_
    refine Ends.creates (fun other hother => ?_) hnodup.2 h
    have hne : other.1 ≠ entry.1 := fun heq => hnodup.1 (heq ▸ List.mem_map_of_mem hother)
    rw [setTable_of_ne hne]
    exact hnew other (List.mem_cons_of_mem _ hother)

theorem execute_createIndex {index : String} {table : TableName}
    (htable : (db.tables table).isSome = true) (hfresh : index ∉ db.indexes.map Prod.fst) :
    execute (.createIndex index table) db
      = .ok { db with indexes := db.indexes ++ [(index, table)] } := by
  obtain ⟨content, hcontent⟩ := Option.isSome_iff_exists.1 htable
  have hany : (db.indexes.any fun entry => entry.1 = index) = false := by
    rw [List.any_eq_false]
    exact fun entry hentry heq => hfresh (of_decide_eq_true heq ▸ List.mem_map_of_mem hentry)
  unfold execute
  simp [hcontent, hany]

theorem Ends.createIndexes {rest : List Statement} {P : Database → Prop} :
    ∀ {indexes : List (String × TableName)} {db : Database},
      (∀ entry ∈ indexes, (db.tables entry.2).isSome = true) →
        ((db.indexes ++ indexes).map Prod.fst).Nodup →
          Ends execute rest { db with indexes := db.indexes ++ indexes } P →
            Ends execute (indexes.map (fun entry => .createIndex entry.1 entry.2) ++ rest) db P
  | [], db, _, _, h => by simpa using h
  | entry :: indexes, db, htables, hnodup, h => by
    have hfresh : entry.1 ∉ db.indexes.map Prod.fst := by
      rw [List.map_append, List.nodup_append] at hnodup
      exact fun hmem => hnodup.2.2 _ hmem _ List.mem_cons_self rfl
    refine .cons (execute_createIndex (htables entry List.mem_cons_self) hfresh) ?_
    refine Ends.createIndexes (fun other hother => htables other (List.mem_cons_of_mem _ hother))
      (by simpa using hnodup) ?_
    simpa using h

theorem version_of_getElem? {version : ℕ} {migration : Migration}
    (h : migrations[version]? = some migration) : migration.version = version + 1 := by
  rcases version with _ | _ | _ | _ | version <;> cases h <;> rfl

theorem version_of_mem_take {version : ℕ} {migration : Migration}
    (h : migration ∈ migrations.take version) : migration.version ≤ version := by
  obtain ⟨k, hk, heq⟩ := List.mem_take_iff_getElem.1 h
  have hversion := version_of_getElem? (List.getElem?_eq_some_iff.2 ⟨_, heq⟩)
  omega

/-- The end of a migration, after its own statements. -/
theorem Ends.record {version : ℕ} {migration : Migration}
    (hmigration : migrations[version]? = some migration)
    (htables : ∀ name, (db.tables name).isSome = decide (name ∈ tablesAt (version + 1)))
    (hindexes : db.indexes = indexesAt (version + 1))
    {ledger : List (ℕ × String)} (hledger : db.tables .schemaMigrations = some ledger)
    (hpast : ledger = (migrations.take version).map fun migration =>
      (migration.version, migration.name))
    (haudit : ∀ audit, db.tables .transmissionAuditEvents = some audit →
      audit.maximumRejection = rejectionAt (version + 1)
        ∧ (auditEvents audit.maximumRejection).Holds audit.table) :
    Ends execute [.insertMigration migration.version migration.name,
      .setUserVersion migration.version] db fun db' =>
        AtVersion (version + 1) db' ∧ RowsKept db db' := by
  have hversion := version_of_getElem? hmigration
  have hfresh : (ledger.any fun entry => entry.1 = migration.version) = false := by
    rw [List.any_eq_false]
    intro entry hentry heq
    rw [hpast] at hentry
    obtain ⟨past, hpast, rfl⟩ := List.mem_map.1 hentry
    have hle := version_of_mem_take hpast
    have heq := of_decide_eq_true heq
    omega
  have hinsert : execute (.insertMigration migration.version migration.name) db
      = .ok (db.setTable .schemaMigrations
          (some (ledger ++ [(migration.version, migration.name)]))) := by
    unfold execute
    simp only [hledger]
    exact if_neg (by simp [hfresh])
  refine .cons hinsert (.cons rfl (.nil ⟨⟨?_, fun name => ?_, hindexes, ?_, ?_⟩, ?_, ?_⟩))
  · simp [hversion]
  · by_cases hname : name = .schemaMigrations
    · subst hname
      rw [← htables, hledger, setTable_self]
      rfl
    · simpa [hname] using htables name
  · intro ledger' hledger'
    simp only [setTable_self] at hledger'
    obtain rfl := Option.some.inj hledger'
    rw [List.take_add_one, hmigration, List.map_append, ← hpast]
    rfl
  · simpa using haudit
  · intro name content hname _ hcontent
    simpa [hname] using hcontent
  · intro audit h
    exact ⟨audit, by simpa using h, .refl _⟩

/-! ## The migrations on the schema before -/

/-- A migration that makes tables and then indexes. -/
theorem migrate_creates {version : ℕ} (h : AtVersion version db) {migration : Migration}
    (hmigration : migrations[version]? = some migration)
    (made : List ((name : TableName) × Content name)) (indexes : List (String × TableName))
    (hsql : migration.sql = made.map (fun entry => .createTable entry.1 entry.2)
      ++ indexes.map fun entry => .createIndex entry.1 entry.2)
    (hnodup : (made.map Sigma.fst).Nodup)
    (hnew : ∀ entry ∈ made, entry.1 ∉ tablesAt version)
    (htables : ∀ name, decide (name ∈ tablesAt (version + 1))
      = (decide (name ∈ made.map Sigma.fst) || decide (name ∈ tablesAt version)))
    (hindexes : indexesAt (version + 1) = indexesAt version ++ indexes)
    (hnames : ((indexesAt (version + 1)).map Prod.fst).Nodup)
    (hon : ∀ entry ∈ indexes, entry.2 ∈ tablesAt (version + 1))
    (ledger : List (ℕ × String))
    (hledger : (made.foldl create db).tables .schemaMigrations = some ledger)
    (hpast : ledger = (migrations.take version).map fun migration =>
      (migration.version, migration.name))
    (haudit : ∀ audit, (made.foldl create db).tables .transmissionAuditEvents = some audit →
      audit.maximumRejection = rejectionAt (version + 1)
        ∧ (auditEvents audit.maximumRejection).Holds audit.table) :
    Ends execute migration.statements db fun db' =>
      AtVersion (version + 1) db' ∧ RowsKept db db' := by
  have hmade : ∀ entry ∈ made, db.tables entry.1 = none :=
    fun entry hentry => h.table_none _ (hnew entry hentry)
  have hsome : ∀ name, ((made.foldl create db).tables name).isSome
      = decide (name ∈ tablesAt (version + 1)) := by
    intro name
    rw [create_isSome, h.tables, htables]
  have hsame : (made.foldl create db).indexes ++ indexes = indexesAt (version + 1) := by
    rw [create_indexes, h.indexes, hindexes]
  unfold Migration.statements
  rw [hsql, List.append_assoc]
  refine Ends.creates hmade hnodup ?_
  refine Ends.createIndexes (fun entry hentry => ?_) (hsame ▸ hnames) ?_
  · rw [hsome]
    exact decide_eq_true (hon entry hentry)
  · refine Ends.mono (Ends.record hmigration ?_ ?_ ?_ hpast ?_) ?_
    · exact hsome
    · exact hsame
    · exact hledger
    · exact haudit
    · rintro db' ⟨hversion, hkept⟩
      exact ⟨hversion, (create_rowsKept hmade).trans ⟨hkept.tables, hkept.audit⟩⟩

theorem migrate_sessions (h : AtVersion 0 db) {migration : Migration}
    (hmigration : migrations[0]? = some migration) :
    Ends execute migration.statements db fun db' => AtVersion 1 db' ∧ RowsKept db db' := by
  obtain rfl := Option.some.inj hmigration
  refine migrate_creates h hmigration
    [⟨.schemaMigrations, ([] : List (ℕ × String))⟩, ⟨.sessions, (∅ : Sessions)⟩]
    [("sessions_by_player", .sessions), ("sessions_by_expiration", .sessions)] rfl (by decide)
    (by simp [tablesAt]) (fun name => by cases name <;> rfl) rfl (by decide) (by decide)
    [] ?_ rfl ?_
  · simp [create]
  · intro audit haudit
    simp [create, h.table_none .transmissionAuditEvents (by decide)] at haudit

theorem migrate_memberships (h : AtVersion 1 db) {migration : Migration}
    (hmigration : migrations[1]? = some migration) :
    Ends execute migration.statements db fun db' => AtVersion 2 db' ∧ RowsKept db db' := by
  obtain rfl := Option.some.inj hmigration
  obtain ⟨ledger, hledger⟩ := h.table_some .schemaMigrations (by decide)
  refine migrate_creates h hmigration
    [⟨.membershipContexts, ([] : List ContextRow)⟩, ⟨.membershipScopes, ([] : List ScopeRow)⟩,
      ⟨.membershipGroups, ([] : List GroupRow)⟩,
      ⟨.membershipSpecializations, ([] : List SpecializationRow)⟩,
      ⟨.membershipTeams, ([] : List TeamRow)⟩, ⟨.memberships, ([] : List MembershipRow)⟩,
      ⟨.membershipRoleAssignments, ([] : List RoleAssignmentRow)⟩,
      ⟨.rolePermissions, ([] : List RolePermissionsRow)⟩,
      ⟨.roleTransmitScopes, ([] : List RoleScopeRow)⟩,
      ⟨.roleReceiveScopes, ([] : List RoleScopeRow)⟩]
    [] rfl (by decide) (by simp [tablesAt]) (fun name => by cases name <;> rfl) rfl (by decide)
    (by simp) ledger ?_ (h.ledger ledger hledger) ?_
  · rw [create_tables_of_notMem (by decide), hledger]
  · intro audit haudit
    rw [create_tables_of_notMem (by decide), h.table_none _ (by decide)] at haudit
    cases haudit

theorem migrate_auditEvents (h : AtVersion 2 db) {migration : Migration}
    (hmigration : migrations[2]? = some migration) :
    Ends execute migration.statements db fun db' => AtVersion 3 db' ∧ RowsKept db db' := by
  obtain rfl := Option.some.inj hmigration
  obtain ⟨ledger, hledger⟩ := h.table_some .schemaMigrations (by decide)
  refine migrate_creates h hmigration [⟨.transmissionAuditEvents, (⟨17, {}⟩ : AuditContent)⟩]
    [("transmission_audit_events_by_time", .transmissionAuditEvents)] rfl (by decide)
    (by simp [tablesAt]) (fun name => by cases name <;> rfl) rfl (by decide) (by decide)
    ledger ?_ (h.ledger ledger hledger) ?_
  · rw [create_tables_of_notMem (by decide), hledger]
  · intro audit haudit
    simp only [List.foldl_cons, List.foldl_nil, create, setTable_self] at haudit
    obtain rfl := Option.some.inj haudit
    exact ⟨rfl, by simp [auditEvents], fun row hrow => by cases hrow⟩

open SqliteControlPlaneRepository (insertRow latestMaximumRejection)

theorem foldlM_extended {t : AuditTable} (h : (auditEvents 17).Holds t) :
    (select (fun _ => true) AuditEventRow.sequence t.rows).foldlM
      (fun t row => insertRow 19 row t) {} = .ok (extended t) := by
  have hperm := rows_extended t
  have hcheck : ∀ row ∈ (extended t).rows, (auditEvents 19).check row = true :=
    fun row hrow => auditEvents_check_mono (by decide) (h.checked (hperm.mem_iff.2 hrow))
  have hkeys : ((({} : AuditTable).rows ++ (extended t).rows).map AuditEventRow.sequence).Nodup :=
    (hperm.map AuditEventRow.sequence).nodup_iff.1 h.keys_unique
  exact foldlM_insertRow hcheck hkeys

theorem holds_extended {t : AuditTable} (h : (auditEvents 17).Holds t) :
    (auditEvents 19).Holds (extended t) := by
  have hperm := rows_extended t
  refine ⟨(hperm.map AuditEventRow.sequence).nodup_iff.1 h.keys_unique, fun row hrow => ⟨?_, rfl⟩⟩
  exact auditEvents_check_mono (by decide) (h.checked (hperm.mem_iff.2 hrow))

/-- The file after the audit events are renamed. -/
def renamed (db : Database) (audit : AuditContent) : Database :=
  { (db.setTable .transmissionAuditEvents none).setTable .transmissionAuditEventsV3
      (some audit) with
    indexes := db.indexes.map fun entry =>
      if entry.2 = .transmissionAuditEvents then (entry.1, .transmissionAuditEventsV3) else entry }

theorem execute_renameAuditEvents {audit : AuditContent}
    (haudit : db.tables .transmissionAuditEvents = some audit)
    (hnew : db.tables .transmissionAuditEventsV3 = none) :
    execute .renameAuditEvents db = .ok (renamed db audit) := by
  unfold execute
  simp only [haudit, hnew]
  rfl

theorem execute_copyAuditEvents {audit old : AuditContent} {t : AuditTable}
    (haudit : db.tables .transmissionAuditEvents = some audit)
    (hold : db.tables .transmissionAuditEventsV3 = some old)
    (hcopy : (select (fun _ => true) AuditEventRow.sequence old.table.rows).foldlM
      (fun t row => insertRow audit.maximumRejection row t) audit.table = .ok t) :
    execute .copyAuditEvents db
      = .ok (db.setTable .transmissionAuditEvents (some ⟨audit.maximumRejection, t⟩)) := by
  unfold execute
  simp only [haudit, hold, hcopy]

theorem execute_dropTable {name : TableName} (h : (db.tables name).isSome = true) :
    execute (.dropTable name) db
      = .ok { db.setTable name none with
          indexes := db.indexes.filter fun entry => entry.2 ≠ name } := by
  obtain ⟨content, hcontent⟩ := Option.isSome_iff_exists.1 h
  unfold execute
  simp only [hcontent]

theorem migrate_rejections (h : AtVersion 3 db) {migration : Migration}
    (hmigration : migrations[3]? = some migration) :
    Ends execute migration.statements db fun db' => AtVersion 4 db' ∧ RowsKept db db' := by
  obtain rfl := Option.some.inj hmigration
  obtain ⟨ledger, hledger⟩ := h.table_some .schemaMigrations (by decide)
  obtain ⟨audit, haudit⟩ := h.table_some .transmissionAuditEvents (by decide)
  obtain ⟨hrejection, hholds⟩ := h.audit audit haudit
  have hv3 := h.table_none .transmissionAuditEventsV3 (by decide)
  rw [hrejection] at hholds
  refine .cons (execute_renameAuditEvents haudit hv3) ?_
  refine .cons (execute_createTable (by simp [renamed]) _) ?_
  refine .cons (execute_copyAuditEvents (setTable_self _ _) (by simp [renamed])
    (foldlM_extended hholds)) ?_
  refine .cons (execute_dropTable (by simp [renamed])) ?_
  refine .cons (execute_createIndex (by simp) (by simp [renamed, h.indexes, indexesAt])) ?_
  refine Ends.mono (Ends.record hmigration (fun name => ?_) ?_ ?_ (h.ledger ledger hledger) ?_) ?_
  · have hname := h.tables name
    cases name <;> simp_all [renamed, tablesAt]
  · simp [renamed, h.indexes, indexesAt]
  · simp [renamed, hledger]
  · intro copied hcopied
    simp only [ne_eq, reduceCtorEq, not_false_eq_true, setTable_of_ne, setTable_self] at hcopied
    obtain rfl := Option.some.inj hcopied
    exact ⟨rfl, holds_extended hholds⟩
  · rintro db' ⟨hversion, hkept⟩
    refine ⟨hversion, RowsKept.trans ⟨fun name content hl ha hcontent => ?_, fun old hold => ?_⟩
      hkept⟩
    · have hne : name ≠ .transmissionAuditEventsV3 := by
        rintro rfl
        rw [hv3] at hcontent
        cases hcontent
      simpa [renamed, ha, hne] using hcontent
    · obtain rfl := Option.some.inj (haudit.symm.trans hold)
      exact ⟨⟨19, extended audit.table⟩, by simp, rows_extended audit.table⟩

/-- The next migration succeeds and leads to its version. -/
theorem migrate_next {version : ℕ} (h : AtVersion version db) {migration : Migration}
    (hmigration : migrations[version]? = some migration) :
    Ends execute migration.statements db fun db' =>
      AtVersion (version + 1) db' ∧ RowsKept db db' := by
  rcases version with _ | _ | _ | _ | version
  · exact migrate_sessions h hmigration
  · exact migrate_memberships h hmigration
  · exact migrate_auditEvents h hmigration
  · exact migrate_rejections h hmigration
  · cases hmigration

theorem createTable_fails {name : TableName} (h : (db.tables name).isSome = true)
    (empty : Content name) (rest : List Statement) :
    Fails execute (.createTable name empty :: rest) db := by
  obtain ⟨content, hcontent⟩ := Option.isSome_iff_exists.1 h
  refine .head (e := alreadyExists "table" name.sql) ?_
  unfold execute
  simp only [hcontent]

/-- The last migration has nothing in its way a second time but the ledger. -/
theorem rejections_fail (h : AtVersion 4 db) {migration : Migration}
    (hmigration : migrations[3]? = some migration) :
    Fails execute migration.statements db := by
  obtain rfl := Option.some.inj hmigration
  obtain ⟨ledger, hledger⟩ := h.table_some .schemaMigrations (by decide)
  obtain ⟨audit, haudit⟩ := h.table_some .transmissionAuditEvents (by decide)
  have hv3 := h.table_none .transmissionAuditEventsV3 (by decide)
  have hpast : ledger = [(1, "create_sessions"), (2, "create_authoritative_memberships"),
      (3, "create_transmission_audit_events"), (4, "extend_transmission_audit_rejections")] :=
    h.ledger ledger hledger
  have hmade : ((renamed db audit).setTable .transmissionAuditEvents
      (some ⟨19, {}⟩)).tables .transmissionAuditEvents = some ⟨19, {}⟩ := setTable_self _ _
  have hold : ((renamed db audit).setTable .transmissionAuditEvents
      (some ⟨19, {}⟩)).tables .transmissionAuditEventsV3 = some audit := by simp [renamed]
  refine .cons (execute_renameAuditEvents haudit hv3) ?_
  refine .cons (execute_createTable (by simp [renamed]) _) ?_
  rcases hcopy : (select (fun _ => true) AuditEventRow.sequence audit.table.rows).foldlM
      (fun t row => insertRow 19 row t) {} with violation | t
  · refine .head (e := AuditDatabase.statementFailed "constraint failed") ?_
    unfold execute
    simp only [hmade, hold, hcopy]
  · refine .cons (execute_copyAuditEvents hmade hold hcopy) ?_
    refine .cons (execute_dropTable (by simp [renamed])) ?_
    refine .cons (execute_createIndex (by simp) (by simp [renamed, h.indexes, indexesAt])) ?_
    refine .head (e := .database "Could not record the schema migration" .primaryKey) ?_
    unfold execute
    simp [renamed, hledger, hpast]

/-- A migration that is done already fails. -/
theorem migrate_past {version past : ℕ} (h : AtVersion version db) (hle : version ≤ 4)
    (hpast : past < version) {migration : Migration}
    (hmigration : migrations[past]? = some migration) :
    Fails execute migration.statements db := by
  have hmem : ∀ {name : TableName},
      name ∈ tablesAt (past + 1) → (db.tables name).isSome = true := by
    intro name hname
    rw [h.tables]
    exact decide_eq_true (tablesAt_mono hpast hname)
  rcases past with _ | _ | _ | _ | past
  · obtain rfl := Option.some.inj hmigration
    exact createTable_fails (hmem (by decide)) _ _
  · obtain rfl := Option.some.inj hmigration
    exact createTable_fails (hmem (by decide)) _ _
  · obtain rfl := Option.some.inj hmigration
    exact createTable_fails (hmem (by decide)) _ _
  · obtain rfl : version = 4 := by omega
    exact rejections_fail h hmigration
  · omega

end Migrate

/-! ## What a step can do -/

section Runs

variable {ι : Type*} [DecidableEq ι] {s s' : State ι} {v : ℕ}

inductive Moves (s : State ι) : Action ι → State ι → Prop
  | start {i : ι} : s.openers i = .absent → Moves s (.start i) (s.setOpener i .opening)
  | read {i : ι} : s.openers i = .opening →
      Moves s (.readSchemaVersion i) (s.setOpener i (checkVersion s.shared.committed))
  | done {i : ι} {current : ℕ} : s.openers i = .migrating current [] →
      Moves s (.next i) (s.setOpener i .ready)
  | skip {i : ι} {current : ℕ} {migration : Migration} {remaining : List Migration} :
      s.openers i = .migrating current (migration :: remaining) → migration.version ≤ current →
        Moves s (.next i) (s.setOpener i (.migrating current remaining))
  | gap {i : ι} {current : ℕ} {migration : Migration} {remaining : List Migration}
      {e : PersistenceException} :
      s.openers i = .migrating current (migration :: remaining) → current < migration.version →
        migration.version ≠ current + 1 → Moves s (.next i) (s.setOpener i (.failed (some e)))
  | begin {i : ι} {current : ℕ} {migration : Migration} {remaining : List Migration}
      {shared : Shared Database Statement ι} :
      s.openers i = .migrating current (migration :: remaining) →
        migration.version = current + 1 → s.shared.writer = none →
          s.shared.begin i migration.statements = some shared →
            Moves s (.next i) { s.setOpener i (.inTransaction migration remaining) with shared }
  | work {i : ι} {migration : Migration} {remaining : List Migration}
      {w : Writer Database Statement ι} {statement : Statement} {rest : List Statement}
      {working : Database} :
      s.openers i = .inTransaction migration remaining → s.shared.writer = some w → w.owner = i →
        w.remaining = statement :: rest → execute statement w.working = .ok working →
          Moves s (.execute i) { s with shared := s.shared.work w rest working }
  | error {i : ι} {migration : Migration} {remaining : List Migration}
      {w : Writer Database Statement ι} {statement : Statement} {rest : List Statement}
      {e : PersistenceException} :
      s.openers i = .inTransaction migration remaining → s.shared.writer = some w → w.owner = i →
        w.remaining = statement :: rest → execute statement w.working = .error e →
          Moves s (.execute i) (s.failOpener i (some e))
  | commit {i : ι} {migration : Migration} {remaining : List Migration}
      {w : Writer Database Statement ι} :
      s.openers i = .inTransaction migration remaining → s.shared.writer = some w → w.owner = i →
        w.remaining = [] →
          Moves s (.commit i)
            { s.setOpener i (.migrating migration.version remaining) with shared := w.commit }
  | fail {i : ι} {e : Option PersistenceException} : s.openers i ≠ .absent →
      Moves s (.fail i e) (s.failOpener i e)
  | write {i : ι} {db : Database} : s.openers i = .ready → s.shared.writer = none →
      Moves s (.write i db) { s with shared := { s.shared with committed := db } }

theorem moves {a : Action ι} (h : step s a = some s') : Moves s a s' := by
  cases a with
  | start i =>
    simp only [step] at h
    split at h
    · rename_i hi
      cases h
      exact .start hi
    · cases h
  | readSchemaVersion i =>
    simp only [step] at h
    split at h
    · rename_i hi
      cases h
      exact .read hi
    · cases h
  | next i =>
    simp only [step] at h
    split at h
    · rename_i hi
      cases h
      exact .done hi
    · rename_i current migration remaining hi
      split_ifs at h with hle hgap
      · cases h
        exact .skip hi hle
      · cases h
        exact .gap hi (Nat.lt_of_not_le hle) hgap
      · obtain ⟨shared, hbegin, rfl⟩ := Option.map_eq_some_iff.1 h
        have hnone : s.shared.writer = none := by
          unfold Shared.begin at hbegin
          split at hbegin
          · cases hbegin
          · assumption
        exact .begin hi (not_not.1 hgap) hnone hbegin
    · cases h
  | execute i =>
    simp only [step] at h
    split at h
    · rename_i migration remaining w hi hw
      split_ifs at h with howner
      split at h
      · cases h
      · rename_i statement rest hremaining
        split at h
        · rename_i working hworking
          cases h
          exact .work hi hw (not_not.1 howner) hremaining hworking
        · rename_i e he
          cases h
          exact .error hi hw (not_not.1 howner) hremaining he
    · cases h
  | commit i =>
    simp only [step] at h
    split at h
    · rename_i migration remaining w hi hw
      split_ifs at h with hnot
      rw [not_or, not_not, not_not] at hnot
      cases h
      exact .commit hi hw hnot.1 hnot.2
    · cases h
  | fail i e =>
    simp only [step] at h
    split at h
    · cases h
    · cases h
    · rename_i habsent _
      cases h
      exact .fail habsent
  | write i db =>
    simp only [step] at h
    split at h
    · rename_i hi hw
      cases h
      exact .write hi hw
    · cases h

/-! ## What every step keeps -/

/-- Rows are written, and the constraints on audit events are kept. -/
structure Writes (db db' : Database) : Prop where
  userVersion : db'.userVersion = db.userVersion
  tables : ∀ name, (db'.tables name).isSome = (db.tables name).isSome
  indexes : db'.indexes = db.indexes
  ledger : db'.tables .schemaMigrations = db.tables .schemaMigrations
  audit : ∀ audit audit', db.tables .transmissionAuditEvents = some audit →
    db'.tables .transmissionAuditEvents = some audit' →
      audit'.maximumRejection = audit.maximumRejection
        ∧ (auditEvents audit'.maximumRejection).Holds audit'.table

def Proper (s : State ι) : Action ι → Prop
  | .write _ db => Writes s.shared.committed db
  | _ => True

theorem AtVersion.write {db db' : Database} (h : AtVersion v db) (hwrites : Writes db db') :
    AtVersion v db' where
  userVersion := hwrites.userVersion.trans h.userVersion
  tables name := (hwrites.tables name).trans (h.tables name)
  indexes := hwrites.indexes.trans h.indexes
  ledger ledger hledger := h.ledger ledger (hwrites.ledger ▸ hledger)
  audit audit' haudit' := by
    have hsome := hwrites.tables .transmissionAuditEvents
    rw [haudit', Option.isSome_some, eq_comm] at hsome
    obtain ⟨audit, haudit⟩ := Option.isSome_iff_exists.1 hsome
    obtain ⟨hsame, hholds⟩ := hwrites.audit audit audit' haudit haudit'
    exact ⟨hsame.trans (h.audit audit haudit).1, hholds⟩

/-- Where an opener can be while the file is at the version. -/
def OpenerOk (version : ℕ) (shared : Shared Database Statement ι) (i : ι) : Opener → Prop
  | .migrating current remaining =>
    current ≤ version ∧ ∃ done, migrations = done ++ remaining ∧ done.length ≤ current
  | .inTransaction migration remaining =>
    (∃ done, migrations = done ++ migration :: remaining ∧ done.length ≤ version)
      ∧ ∃ w, shared.writer = some w ∧ w.owner = i ∧ w.statements = migration.statements
  | .ready => version = 4
  | _ => True

structure Inv (s : State ι) (version : ℕ) : Prop where
  le : version ≤ 4
  file : AtVersion version s.shared.committed
  consistent : Consistent execute s.shared
  openers : ∀ i, OpenerOk version s.shared i (s.openers i)
  writer : ∀ w, s.shared.writer = some w →
    ∃ migration remaining, s.openers w.owner = .inTransaction migration remaining

omit [DecidableEq ι] in
/-- An opener is where it was, unless its transaction is gone. -/
theorem OpenerOk.mono {shared shared' : Shared Database Statement ι} {i : ι} {opener : Opener}
    {v' : ℕ} (h : OpenerOk v shared i opener) (hle : v ≤ v') (hle' : v' ≤ 4)
    (hwriter : ∀ w, shared.writer = some w → w.owner = i →
      ∃ w', shared'.writer = some w' ∧ w'.owner = i ∧ w'.statements = w.statements) :
    OpenerOk v' shared' i opener := by
  cases opener with
  | migrating current remaining => exact ⟨h.1.trans hle, h.2⟩
  | inTransaction migration remaining =>
    obtain ⟨⟨done, hdone, hlength⟩, w, hw, howner, hstatements⟩ := h
    obtain ⟨w', hw', howner', hstatements'⟩ := hwriter w hw howner
    exact ⟨⟨done, hdone, hlength.trans hle⟩, w', hw', howner', hstatements'.trans hstatements⟩
  | ready => exact le_antisymm hle' (by rw [OpenerOk] at h; omega)
  | _ => trivial

theorem getElem?_of_split {done remaining : List Migration} {migration : Migration}
    (h : migrations = done ++ migration :: remaining) :
    migrations[done.length]? = some migration := by
  rw [h]
  simp

omit [DecidableEq ι] in
/-- What is being committed is the next version, made of what is committed. -/
theorem Inv.committing (h : Inv s v) {i : ι} {migration : Migration} {remaining : List Migration}
    {w : Writer Database Statement ι} (hi : s.openers i = .inTransaction migration remaining)
    (hw : s.shared.writer = some w) (hdone : w.remaining = []) :
    migration.version = v + 1 ∧ AtVersion (v + 1) w.working
      ∧ RowsKept s.shared.committed w.working ∧ v < 4
      ∧ ∃ done, migrations = done ++ migration :: remaining ∧ done.length = v := by
  have hopener := h.openers i
  rw [hi] at hopener
  obtain ⟨⟨done, hsplit, hlength⟩, w', hw', -, hstatements⟩ := hopener
  obtain rfl := Option.some.inj (hw.symm.trans hw')
  have hmigration := getElem?_of_split hsplit
  have hcommitted := h.consistent.committed hw hdone
  rw [hstatements] at hcommitted
  have hv : done.length = v := by
    refine le_antisymm hlength (not_lt.1 fun hpast => ?_)
    obtain ⟨e, he⟩ := migrate_past h.file h.le hpast hmigration
    rw [hcommitted] at he
    cases he
  rw [hv] at hmigration
  obtain ⟨db', hdb', hversion, hkept⟩ := migrate_next h.file hmigration
  obtain rfl := Except.ok.inj (hcommitted.symm.trans hdb')
  have hle := List.getElem?_eq_some_iff.1 hmigration
  exact ⟨version_of_getElem? hmigration, hversion, hkept, hle.1, done, hsplit, hv⟩

omit [DecidableEq ι] in
theorem Inv.not_writer (h : Inv s v) {i : ι} (hi : ∀ migration remaining,
    s.openers i ≠ .inTransaction migration remaining) {w : Writer Database Statement ι}
    (hw : s.shared.writer = some w) : w.owner ≠ i := by
  rintro rfl
  obtain ⟨migration, remaining, hopener⟩ := h.writer w hw
  exact hi _ _ hopener

/-- An opener that holds no transaction goes on. -/
theorem Inv.setOpener (h : Inv s v) {i : ι} {opener : Opener} (hi : ∀ migration remaining,
    s.openers i ≠ .inTransaction migration remaining) (hopener : OpenerOk v s.shared i opener) :
    Inv (s.setOpener i opener) v where
  le := h.le
  file := h.file
  consistent := h.consistent
  openers j := by
    by_cases hj : j = i
    · subst hj
      simpa [State.setOpener] using hopener
    · simpa [State.setOpener, hj] using h.openers j
  writer w hw := by
    simpa [State.setOpener, h.not_writer hi hw] using h.writer w hw

theorem Inv.failOpener (h : Inv s v) (i : ι) (e : Option PersistenceException) :
    Inv (s.failOpener i e) v := by
  unfold State.failOpener
  split_ifs with hwriter
  · obtain ⟨w, hw, howner⟩ := (Option.any_eq_true _ _).1 hwriter
    obtain rfl := of_decide_eq_true howner
    refine ⟨h.le, h.file, .rollback, fun j => ?_, fun w' hw' => by cases hw'⟩
    by_cases hj : j = w.owner
    · subst hj
      simp [State.setOpener, OpenerOk]
    · simp only [State.setOpener, Function.update_of_ne hj]
      refine (h.openers j).mono le_rfl h.le fun w' hw' howner' => absurd ?_ hj
      obtain rfl := Option.some.inj (hw.symm.trans hw')
      exact howner'.symm
  · refine ⟨h.le, h.file, h.consistent, fun j => ?_, fun w hw => ?_⟩
    · by_cases hj : j = i
      · subst hj
        simp [State.setOpener, OpenerOk]
      · simpa [State.setOpener, hj] using h.openers j
    · have hne : w.owner ≠ i := by
        rintro rfl
        exact hwriter (by simp [State.isWriter, show s.shared.writer = some w from hw])
      simpa [State.setOpener, hne] using h.writer w hw

@[simp] theorem failOpener_committed (s : State ι) (i : ι) (e : Option PersistenceException) :
    (s.failOpener i e).shared.committed = s.shared.committed := by
  unfold State.failOpener
  split_ifs <;> rfl

/-- What the rows of a file go back to. -/
def written (db : Database) : Action ι → Database
  | .write _ db' => db'
  | _ => db

theorem checkVersion_ok {db : Database} (hv : v ≤ 4) (hdb : AtVersion v db) :
    checkVersion db = .migrating v migrations := by
  have hread : readSchemaVersion db = .ok v := by
    unfold readSchemaVersion
    rw [hdb.userVersion, if_neg (by omega)]
    rfl
  unfold checkVersion
  rw [hread]
  exact if_neg (Nat.not_lt.2 hv)

theorem inv_step {a : Action ι} (h : Inv s v) (hproper : Proper s a)
    (hstep : step s a = some s') :
    ∃ v', v ≤ v' ∧ Inv s' v' ∧ RowsKept (written s.shared.committed a) s'.shared.committed := by
  cases moves hstep with
  | start hi =>
    exact ⟨v, le_rfl, h.setOpener (by simp [hi]) trivial, .refl _⟩
  | read hi =>
    refine ⟨v, le_rfl, h.setOpener (by simp [hi]) ?_, .refl _⟩
    rw [checkVersion_ok h.le h.file]
    exact ⟨le_rfl, [], rfl, Nat.zero_le _⟩
  | @done i current hi =>
    have hopener := h.openers i
    rw [hi] at hopener
    obtain ⟨hle, done, hsplit, hlength⟩ := hopener
    refine ⟨v, le_rfl, h.setOpener (by simp [hi]) ?_, .refl _⟩
    have hall : done.length = 4 := by
      rw [List.append_nil] at hsplit
      rw [← hsplit]
      rfl
    exact le_antisymm h.le (by omega)
  | @skip i current migration remaining hi hskip =>
    have hopener := h.openers i
    rw [hi] at hopener
    obtain ⟨hle, done, hsplit, hlength⟩ := hopener
    have hversion := version_of_getElem? (getElem?_of_split hsplit)
    refine ⟨v, le_rfl, h.setOpener (by simp [hi])
      ⟨hle, done ++ [migration], by simpa using hsplit, ?_⟩, .refl _⟩
    rw [List.length_append, List.length_singleton]
    omega
  | @gap i current migration remaining e hi hlt hne =>
    exact ⟨v, le_rfl, h.setOpener (by simp [hi]) trivial, .refl _⟩
  | @begin i current migration remaining shared hi hversion hnone hbegin =>
    have hopener := h.openers i
    rw [hi] at hopener
    obtain ⟨hle, done, hsplit, hlength⟩ := hopener
    have hshared : shared
        = ⟨s.shared.committed, some ⟨i, migration.statements, s.shared.committed,
            migration.statements⟩⟩ := by
      unfold Shared.begin at hbegin
      rw [hnone] at hbegin
      exact (Option.some.inj hbegin).symm
    subst hshared
    refine ⟨v, le_rfl, ⟨h.le, h.file, .begin hbegin, fun j => ?_, fun w hw => ?_⟩, .refl _⟩
    · by_cases hj : j = i
      · subst hj
        simp only [State.setOpener, Function.update_self]
        exact ⟨⟨done, hsplit, hlength.trans hle⟩, _, rfl, rfl, rfl⟩
      · simp only [State.setOpener, Function.update_of_ne hj]
        refine (h.openers j).mono le_rfl h.le fun w hw => ?_
        rw [hnone] at hw
        cases hw
    · obtain rfl := Option.some.inj hw
      exact ⟨migration, remaining, by simp [State.setOpener]⟩
  | @work i migration remaining w statement rest working hi hw howner hremaining hworking =>
    refine ⟨v, le_rfl, ⟨h.le, h.file, h.consistent.work hw hremaining hworking, fun j => ?_,
      fun w' hw' => ?_⟩, .refl _⟩
    · refine (h.openers j).mono le_rfl h.le fun w' hw' howner' => ?_
      obtain rfl := Option.some.inj (hw.symm.trans hw')
      exact ⟨_, rfl, howner', rfl⟩
    · obtain rfl := Option.some.inj hw'
      exact h.writer w hw
  | error hi hw howner hremaining he =>
    exact ⟨v, le_rfl, h.failOpener _ _, by simpa using .refl _⟩
  | @commit i migration remaining w hi hw howner hdone =>
    obtain ⟨hversion, hworking, hkept, hlt, done, hsplit, hlength⟩ := h.committing hi hw hdone
    refine ⟨v + 1, Nat.le_succ v, ⟨hlt, hworking, .commit, fun j => ?_, fun w' hw' => by cases hw'⟩,
      hkept⟩
    by_cases hj : j = i
    · subst hj
      simp only [State.setOpener, Function.update_self, hversion]
      refine ⟨le_rfl, done ++ [migration], by simpa using hsplit, ?_⟩
      rw [List.length_append, List.length_singleton, hlength]
    · simp only [State.setOpener, Function.update_of_ne hj]
      refine (h.openers j).mono (Nat.le_succ v) hlt fun w' hw' howner' => absurd ?_ hj
      obtain rfl := Option.some.inj (hw.symm.trans hw')
      exact howner'.symm.trans howner
  | fail hi =>
    exact ⟨v, le_rfl, h.failOpener _ _, by simpa using .refl _⟩
  | @write i db hi hw =>
    refine ⟨v, le_rfl, ⟨h.le, h.file.write hproper, .of_none hw, fun j => ?_, fun w' hw' => ?_⟩,
      .refl _⟩
    · exact (h.openers j).mono le_rfl h.le fun w' hw' => by rw [hw] at hw'; cases hw'
    · rw [show s.shared.writer = some w' from hw'] at hw
      cases hw

def initial (db : Database) : State ι := { shared := { committed := db } }

omit [DecidableEq ι] in
theorem inv_initial {db : Database} (hle : v ≤ 4) (hdb : AtVersion v db) :
    Inv (initial db : State ι) v :=
  ⟨hle, hdb, .of_none rfl, fun _ => trivial, fun _ hw => by cases hw⟩

theorem inv_runs {as : List (Action ι)} (hruns : Runs step Proper s as s') (h : Inv s v)
    {db : Database} (hkept : RowsKept db s.shared.committed) :
    ∃ v', v ≤ v' ∧ Inv s' v' ∧ RowsKept (as.foldl written db) s'.shared.committed := by
  induction hruns generalizing v db with
  | nil => exact ⟨v, le_rfl, h, hkept⟩
  | @cons s s₁ s' a as hproper hstep _ ih =>
    obtain ⟨v₁, hle, h₁, hkept₁⟩ := inv_step h hproper hstep
    have hbase : RowsKept (written db a) s₁.shared.committed := by
      cases a with
      | write i db' => exact hkept₁
      | _ => exact hkept.trans hkept₁
    obtain ⟨v', hle', h', hkept'⟩ := ih h₁ hbase
    exact ⟨v', hle.trans hle', h', hkept'⟩

/-- However many processes open the file at the same time, and wherever they fail or die: the file
has the schema and the ledger of one version, and the rows that were written last; a repository that
is open finds the latest version. Whatever happens afterwards, the version does not decrease. -/
theorem migrations_atomic {db : Database} (hle : v ≤ 4) (hdb : AtVersion v db)
    {as as' : List (Action ι)} (hruns : Runs step Proper (initial db) as s)
    (hafter : Runs step Proper s as' s') :
    ∃ v', v ≤ v' ∧ v' ≤ 4 ∧ AtVersion v' s.shared.committed
      ∧ RowsKept (as.foldl written db) s.shared.committed
      ∧ (∀ i, s.openers i = .ready → v' = 4)
      ∧ ∃ v'', v' ≤ v'' ∧ v'' ≤ 4 ∧ AtVersion v'' s'.shared.committed := by
  obtain ⟨v', hle', h, hkept⟩ := inv_runs hruns (inv_initial hle hdb) (.refl db)
  obtain ⟨v'', hle'', h', -⟩ := inv_runs hafter h hkept
  refine ⟨v', hle', h.le, h.file, hkept, fun i hi => ?_, v'', hle'', h'.le, h'.file⟩
  have hopener := h.openers i
  rw [hi] at hopener
  exact hopener

/-- A file that a newer version of the program has made is not touched, and nobody opens it. -/
theorem newer_untouched {db : Database} (hnewer : 4 < db.userVersion) {as : List (Action ι)}
    (hruns : Runs step Machine.Free (initial db) as s) :
    s.shared = ⟨db, none⟩ ∧ ∀ i, s.openers i = .absent ∨ s.openers i = .opening
      ∨ ∃ e, s.openers i = .failed e := by
  have hfailed : ∃ e, checkVersion db = .failed e := by
    unfold checkVersion readSchemaVersion
    split_ifs with hrange
    · exact ⟨_, rfl⟩
    · refine ⟨_, if_pos ?_⟩
      rw [latestSchemaVersion]
      omega
  refine hruns.invariant (I := fun s => s.shared = ⟨db, none⟩ ∧ ∀ i, s.openers i = .absent
    ∨ s.openers i = .opening ∨ ∃ e, s.openers i = .failed e) ?_ ⟨rfl, fun _ => .inl rfl⟩
  rintro s a s' ⟨hshared, hopeners⟩ - hstep
  have hset : ∀ (i : ι) (opener : Opener), (opener = .opening ∨ ∃ e, opener = .failed e) →
      ∀ j, Function.update s.openers i opener j = .absent
        ∨ Function.update s.openers i opener j = .opening
        ∨ ∃ e, Function.update s.openers i opener j = .failed e := by
    intro i opener hopener j
    by_cases hj : j = i
    · subst hj
      exact .inr (by simpa using hopener)
    · simpa [hj] using hopeners j
  cases moves hstep with
  | @start i hi => exact ⟨hshared, hset i _ (.inl rfl)⟩
  | @read i hi =>
    refine ⟨hshared, hset i _ (.inr ?_)⟩
    rw [hshared]
    exact hfailed
  | @fail i e hi =>
    have hnone : s.isWriter i = false := by simp [State.isWriter, hshared]
    unfold State.failOpener
    rw [hnone]
    exact ⟨hshared, hset i _ (.inr ⟨e, rfl⟩)⟩
  | @done i current hi => simpa [hi] using hopeners i
  | @skip i current migration remaining hi => simpa [hi] using hopeners i
  | @gap i current migration remaining e hi => simpa [hi] using hopeners i
  | @begin i current migration remaining shared hi => simpa [hi] using hopeners i
  | @work i migration remaining w statement rest working hi => simpa [hi] using hopeners i
  | @error i migration remaining w statement rest e hi => simpa [hi] using hopeners i
  | @commit i migration remaining w hi => simpa [hi] using hopeners i
  | @write i db hi => simpa [hi] using hopeners i

/-! ## Who gets there -/

/-- An opener that is up to date. -/
def Leading (version : ℕ) : Opener → Prop
  | .opening | .ready => True
  | .migrating current _ => current = version
  | .inTransaction migration _ => migration.version = version + 1
  | _ => False

/-- Nothing fails but a statement of a migration. -/
def Faultless (s : State ι) (a : Action ι) : Prop :=
  Proper s a ∧ ∀ i e, a ≠ .fail i e

omit [DecidableEq ι] in
theorem Inv.unique {v' : ℕ} (h : Inv s v) (h' : Inv s' v')
    (hsame : s'.shared.committed = s.shared.committed) : v' = v := by
  have heq := h'.file.userVersion
  rw [hsame, h.file.userVersion] at heq
  exact_mod_cast heq.symm

omit [DecidableEq ι] in
/-- The transaction of the next migration fails at no statement. -/
theorem Inv.leader_works (h : Inv s v) {i : ι} {migration : Migration}
    {remaining : List Migration} (hi : s.openers i = .inTransaction migration remaining)
    (hnext : migration.version = v + 1) {w : Writer Database Statement ι}
    (hw : s.shared.writer = some w) {statement : Statement} {rest : List Statement}
    (hremaining : w.remaining = statement :: rest) {e : PersistenceException} :
    execute statement w.working ≠ .error e := by
  intro he
  have hopener := h.openers i
  rw [hi] at hopener
  obtain ⟨⟨done, hsplit, hlength⟩, w', hw', -, hstatements⟩ := hopener
  obtain rfl := Option.some.inj (hw.symm.trans hw')
  have hmigration := getElem?_of_split hsplit
  have hversion := version_of_getElem? hmigration
  obtain rfl : done.length = v := by omega
  obtain ⟨db', hdb', -⟩ := migrate_next h.file hmigration
  have hfailed := h.consistent.failed hw hremaining he
  rw [hstatements, hdb'] at hfailed
  cases hfailed

theorem leading_step {v' : ℕ} {a : Action ι} (h : Inv s v) (h' : Inv s' v')
    (hfaultless : Faultless s a) (hstep : step s a = some s')
    (hleading : ∃ j, Leading v (s.openers j)) : ∃ j, Leading v' (s'.openers j) := by
  obtain ⟨j, hj⟩ := hleading
  cases moves hstep with
  | @start i hi =>
    obtain rfl := h.unique h' rfl
    exact ⟨i, by simp [State.setOpener, Leading]⟩
  | @read i hi =>
    obtain rfl := h.unique h' rfl
    refine ⟨i, ?_⟩
    rw [checkVersion_ok h.le h.file]
    simp [State.setOpener, Leading]
  | @done i current hi =>
    obtain rfl := h.unique h' rfl
    exact ⟨i, by simp [State.setOpener, Leading]⟩
  | @skip i current migration remaining hi hskip =>
    obtain rfl := h.unique h' rfl
    refine ⟨j, ?_⟩
    by_cases hij : j = i
    · subst hij
      rw [hi] at hj
      simpa [State.setOpener, Leading] using hj
    · simpa [State.setOpener, hij] using hj
  | @gap i current migration remaining e hi hlt hne =>
    have hopener := h.openers i
    rw [hi] at hopener
    obtain ⟨hle, done, hsplit, hlength⟩ := hopener
    have hversion := version_of_getElem? (getElem?_of_split hsplit)
    omega
  | @begin i current migration remaining shared hi hversion hnone hbegin =>
    have hsame : shared.committed = s.shared.committed := by
      unfold Shared.begin at hbegin
      rw [hnone] at hbegin
      exact (congrArg Shared.committed (Option.some.inj hbegin)).symm
    obtain rfl := h.unique h' hsame
    refine ⟨j, ?_⟩
    by_cases hij : j = i
    · subst hij
      rw [hi] at hj
      simp only [State.setOpener, Function.update_self]
      exact hversion.trans (congrArg (· + 1) hj)
    · simpa [State.setOpener, hij] using hj
  | work hi hw howner hremaining hworking =>
    obtain rfl := h.unique h' rfl
    exact ⟨j, hj⟩
  | @error i migration remaining w statement rest e hi hw howner hremaining he =>
    obtain rfl := h.unique h' (failOpener_committed _ _ _)
    refine ⟨j, ?_⟩
    have hij : j ≠ i := by
      rintro rfl
      rw [hi] at hj
      exact h.leader_works hi hj hw hremaining he
    unfold State.failOpener
    simpa [State.setOpener, hij] using hj
  | @commit i migration remaining w hi hw howner hdone =>
    obtain ⟨hversion, hworking, -⟩ := h.committing hi hw hdone
    have hv' : v' = v + 1 := by
      have heq := h'.file.userVersion
      rw [show w.commit.committed = w.working from rfl, hworking.userVersion] at heq
      exact_mod_cast heq.symm
    refine ⟨i, ?_⟩
    simp [State.setOpener, Leading, hversion, hv']
  | @fail i e hi => exact absurd rfl (hfaultless.2 i e)
  | @write i db hi hw =>
    have hv' : v' = v := by
      exact_mod_cast h'.file.userVersion.symm.trans (h.file.write hfaultless.1).userVersion
    exact ⟨j, hv' ▸ hj⟩

theorem leading_runs {as : List (Action ι)} (hruns : Runs step Faultless s as s') (h : Inv s v)
    (hleading : (∃ j, Leading v (s.openers j)) ∨ ∃ i, .start i ∈ as) :
    ∃ v', Inv s' v' ∧ ∃ j, Leading v' (s'.openers j) := by
  induction hruns generalizing v with
  | nil =>
    rcases hleading with hleading | ⟨i, hmem⟩
    · exact ⟨v, h, hleading⟩
    · cases hmem
  | @cons s s₁ s' a as hfaultless hstep _ ih =>
    obtain ⟨v₁, -, h₁, -⟩ := inv_step h hfaultless.1 hstep
    refine ih h₁ ?_
    rcases hleading with hleading | ⟨i, hmem⟩
    · exact .inl (leading_step h h₁ hfaultless hstep hleading)
    · rcases List.mem_cons.1 hmem with rfl | hmem
      · refine .inl ⟨i, ?_⟩
        cases moves hstep
        simp [State.setOpener, Leading]
      · exact .inr ⟨i, hmem⟩

/-- Nobody can go on. -/
def State.Stuck (s : State ι) : Prop :=
  ∀ i, (step s (.readSchemaVersion i)).isNone = true ∧ (step s (.next i)).isNone = true
    ∧ (step s (.execute i)).isNone = true ∧ (step s (.commit i)).isNone = true

instance [Fintype ι] (s : State ι) : Decidable s.Stuck := inferInstanceAs (Decidable (∀ _, _))

/-- An opener that has returned. -/
def Opener.Returned : Opener → Prop
  | .absent | .ready | .failed _ => True
  | _ => False

theorem Inv.returned (h : Inv s v) (hstuck : s.Stuck) (i : ι) : (s.openers i).Returned := by
  have hfree : s.shared.writer = none := by
    rcases hw : s.shared.writer with _ | w
    · rfl
    · obtain ⟨migration, remaining, hopener⟩ := h.writer w hw
      obtain ⟨-, -, hexecute, hcommit⟩ := hstuck w.owner
      rcases hremaining : w.remaining with _ | ⟨statement, rest⟩
      · simp [step, hopener, hw, hremaining] at hcommit
      · rcases hstatement : execute statement w.working with e | working <;>
          simp [step, hopener, hw, hremaining, hstatement] at hexecute
  obtain ⟨hread, hnext, -, -⟩ := hstuck i
  have hopener := h.openers i
  rcases hi : s.openers i with _ | _ | ⟨current, _ | ⟨migration, remaining⟩⟩ | _ | _ | _
  · trivial
  · simp [step, hi] at hread
  · simp [step, hi] at hnext
  · simp only [step, hi] at hnext
    split_ifs at hnext <;> simp [Shared.begin, hfree] at hnext
  · rw [hi] at hopener
    obtain ⟨-, w, hw, -⟩ := hopener
    rw [hfree] at hw
    cases hw
  · trivial
  · trivial

/-! ## How long it takes -/

/-- The steps of the loop over the migrations that are left. -/
def passes : List Migration → ℕ
  | [] => 0
  | migration :: remaining => migration.statements.length + 2 + passes remaining

/-- The steps that an opener has left at most, but for the statements of its transaction. -/
def Opener.weight : Opener → ℕ
  | .absent => 40
  | .opening => 39
  | .migrating _ remaining | .inTransaction _ remaining => passes remaining + 1
  | .ready | .failed _ => 0

/-- What the opener has left of the transaction that is open. -/
def writerWeight (shared : Shared Database Statement ι) (i : ι) : ℕ :=
  shared.writer.elim 0 fun w => if w.owner = i then w.remaining.length + 1 else 0

/-- Whose step it is. -/
def Action.opener : Action ι → ι
  | .start i | .readSchemaVersion i | .next i | .execute i | .commit i | .fail i _ | .write i _ => i

/-- A step of an opener, unless it fails. -/
def Action.advances : Action ι → Bool
  | .fail _ _ | .write _ _ => false
  | _ => true

/-- A step of this opener, unless it fails. -/
def Action.advancesOf (i : ι) (a : Action ι) : Bool := a.advances && a.opener = i

theorem weight_checkVersion (db : Database) : (checkVersion db).weight < 39 := by
  unfold checkVersion
  split
  · exact Nat.zero_lt_succ _
  · split_ifs
    · exact Nat.zero_lt_succ _
    · exact (by decide : passes migrations + 1 < 39)

def State.weight (s : State ι) (i : ι) : ℕ :=
  (s.openers i).weight + writerWeight s.shared i

theorem writerWeight_none {shared : Shared Database Statement ι} (h : shared.writer = none)
    (i : ι) : writerWeight shared i = 0 := by
  rw [writerWeight, h, Option.elim_none]

theorem writerWeight_owner {shared : Shared Database Statement ι}
    {w : Writer Database Statement ι} (h : shared.writer = some w) :
    writerWeight shared w.owner = w.remaining.length + 1 := by
  rw [writerWeight, h, Option.elim_some, if_pos rfl]

theorem writerWeight_other {shared : Shared Database Statement ι}
    {w : Writer Database Statement ι} (h : shared.writer = some w) {i : ι} (hi : w.owner ≠ i) :
    writerWeight shared i = 0 := by
  rw [writerWeight, h, Option.elim_some, if_neg hi]

/-- What the opener of a step has less, and no other opener has more. -/
theorem weight_moved {i j : ι} {opener : Opener} {shared : Shared Database Statement ι}
    {advances : Bool} (hother : i ≠ j → writerWeight shared j ≤ writerWeight s.shared j)
    (h : opener.weight + writerWeight shared i + 1
      ≤ (s.openers i).weight + writerWeight s.shared i) :
    State.weight ⟨shared, Function.update s.openers i opener⟩ j
        + (if (advances && i = j) = true then 1 else 0) ≤ s.weight j := by
  by_cases hij : i = j
  · subst hij
    simp only [State.weight, Function.update_self]
    split_ifs <;> omega
  · have hsame := hother hij
    simpa [State.weight, hij, Ne.symm hij] using hsame

theorem weight_failOpener (s : State ι) (i j : ι) (e : Option PersistenceException) :
    (s.failOpener i e).weight j + (if i = j then (s.openers i).weight else 0) ≤ s.weight j := by
  have hwriter : writerWeight (if s.isWriter i then s.shared.rollback else s.shared) j
      ≤ writerWeight s.shared j := by
    split_ifs
    · exact Nat.zero_le _
    · exact le_rfl
  have hshared : (s.failOpener i e).shared = if s.isWriter i then s.shared.rollback else s.shared :=
    rfl
  by_cases hij : i = j
  · subst hij
    have hzero : ((s.failOpener i e).openers i).weight = 0 := by
      simp [State.failOpener, State.setOpener, Opener.weight]
    rw [if_pos rfl, State.weight, State.weight, hzero, hshared]
    omega
  · have hsame : (s.failOpener i e).openers j = s.openers j := by
      simp [State.failOpener, State.setOpener, Ne.symm hij]
    rw [if_neg hij, State.weight, State.weight, hsame, hshared]
    omega

theorem weight_step (j : ι) {a : Action ι} (hstep : step s a = some s') :
    s'.weight j + (if a.advancesOf j then 1 else 0) ≤ s.weight j := by
  cases moves hstep with
  | @start i hi =>
    have hbefore : (s.openers i).weight = 40 := by rw [hi]; rfl
    have hafter : Opener.opening.weight = 39 := rfl
    exact weight_moved (fun _ => le_rfl) (by omega)
  | @read i hi =>
    have hbefore : (s.openers i).weight = 39 := by rw [hi]; rfl
    have hafter := weight_checkVersion s.shared.committed
    exact weight_moved (fun _ => le_rfl) (by omega)
  | @done i current hi =>
    have hbefore : (s.openers i).weight = 1 := by rw [hi]; rfl
    have hafter : Opener.ready.weight = 0 := rfl
    exact weight_moved (fun _ => le_rfl) (by omega)
  | @skip i current migration remaining hi hskip =>
    have hbefore : (s.openers i).weight
        = migration.statements.length + 2 + passes remaining + 1 := by rw [hi]; rfl
    have hafter : (Opener.migrating current remaining).weight = passes remaining + 1 := rfl
    exact weight_moved (fun _ => le_rfl) (by omega)
  | @gap i current migration remaining e hi hlt hne =>
    have hbefore : (s.openers i).weight
        = migration.statements.length + 2 + passes remaining + 1 := by rw [hi]; rfl
    have hafter : (Opener.failed (some e)).weight = 0 := rfl
    exact weight_moved (fun _ => le_rfl) (by omega)
  | @begin i current migration remaining shared hi hversion hnone hbegin =>
    unfold Shared.begin at hbegin
    rw [hnone] at hbegin
    obtain rfl := Option.some.inj hbegin
    have hbefore : (s.openers i).weight
        = migration.statements.length + 2 + passes remaining + 1 := by rw [hi]; rfl
    have hafter : (Opener.inTransaction migration remaining).weight = passes remaining + 1 := rfl
    refine weight_moved (fun hij => ?_) ?_
    · rw [writerWeight_other rfl hij]
      exact Nat.zero_le _
    · have hown : writerWeight ⟨s.shared.committed,
          some ⟨i, migration.statements, s.shared.committed, migration.statements⟩⟩ i
          = migration.statements.length + 1 :=
        writerWeight_owner
          (w := ⟨i, migration.statements, s.shared.committed, migration.statements⟩) rfl
      omega
  | @work i migration remaining w statement rest working hi hw howner hremaining hworking =>
    subst howner
    have hown : writerWeight s.shared w.owner = rest.length + 1 + 1 := by
      rw [writerWeight_owner hw, hremaining, List.length_cons]
    have hown' : writerWeight (s.shared.work w rest working) w.owner = rest.length + 1 :=
      writerWeight_owner (w := { w with working, remaining := rest }) rfl
    by_cases hij : w.owner = j
    · subst hij
      have hcounted : (Action.execute w.owner).advancesOf w.owner = true := by
        simp [Action.advancesOf, Action.advances, Action.opener]
      rw [if_pos hcounted]
      simp only [State.weight]
      omega
    · have hother : writerWeight (s.shared.work w rest working) j = 0 :=
        writerWeight_other (w := { w with working, remaining := rest }) rfl hij
      simp [Action.advancesOf, Action.opener, State.weight, hij, hother]
  | @error i migration remaining w statement rest e hi hw howner hremaining he =>
    have hfailed := weight_failOpener s i j (some e)
    have hbefore : (s.openers i).weight = passes remaining + 1 := by rw [hi]; rfl
    by_cases hij : i = j
    · subst hij
      rw [if_pos rfl] at hfailed
      have hcounted : (Action.execute i).advancesOf i = true := by
        simp [Action.advancesOf, Action.advances, Action.opener]
      rw [if_pos hcounted]
      omega
    · simpa [Action.advancesOf, Action.opener, hij] using hfailed
  | @commit i migration remaining w hi hw howner hdone =>
    subst howner
    have hown : writerWeight s.shared w.owner = 1 := by
      rw [writerWeight_owner hw, hdone, List.length_nil]
    have hafter : ∀ i, writerWeight w.commit i = 0 := writerWeight_none rfl
    have hopener : (s.openers w.owner).weight = passes remaining + 1 := by rw [hi]; rfl
    have hopener' : (Opener.migrating migration.version remaining).weight
        = passes remaining + 1 := rfl
    refine weight_moved (fun _ => ?_) ?_
    · rw [hafter]
      exact Nat.zero_le _
    · have howner := hafter w.owner
      omega
  | @fail i e hi =>
    have hfailed := weight_failOpener s i j e
    exact le_trans (Nat.le_add_right _ _) hfailed
  | write hi hw => exact le_rfl

theorem weight_runs (j : ι) {as : List (Action ι)} {G : State ι → Action ι → Prop}
    (hruns : Runs step G s as s') :
    as.countP (Action.advancesOf j) + s'.weight j ≤ s.weight j :=
  Progress.countP_le (fun _ _ _ _ hstep => weight_step j hstep) hruns

theorem weight_initial (db : Database) (j : ι) : (initial db : State ι).weight j = 40 := rfl

/-- Processes that open the file at the same time, after whatever has happened to it before: while
nothing fails each of them takes a bounded number of steps, and when none can go on all have
returned, the file is at the latest version, and one of them, or one from before, has it open. -/
theorem race_has_winner {db : Database} (hle : v ≤ 4) (hdb : AtVersion v db)
    {as as' : List (Action ι)} (hbefore : Runs step Proper (initial db) as s)
    (hruns : Runs step Faultless s as' s') :
    (∀ i, as'.countP (Action.advancesOf i) ≤ 40)
      ∧ (((∃ i, s.openers i = .opening) ∨ ∃ i, .start i ∈ as') → s'.Stuck →
        AtVersion 4 s'.shared.committed ∧ (∃ i, s'.openers i = .ready)
          ∧ ∀ i, (s'.openers i).Returned) := by
  obtain ⟨v₀, -, h, -⟩ := inv_runs hbefore (inv_initial hle hdb) (.refl db)
  refine ⟨fun i => ?_, fun hopening hstuck => ?_⟩
  · have hfirst := weight_runs i hbefore
    have hlast := weight_runs i hruns
    rw [weight_initial] at hfirst
    omega
  · obtain ⟨v', h', j, hj⟩ := leading_runs hruns h (hopening.imp_left fun ⟨i, hi⟩ =>
      ⟨i, by rw [hi]; trivial⟩)
    have hall := h'.returned hstuck
    have hready : s'.openers j = .ready := by
      have hreturned := hall j
      rcases hopener : s'.openers j with _ | _ | _ | _ | _ | _ <;> rw [hopener] at hj hreturned <;>
        first | rfl | exact hj.elim | exact hreturned.elim
    have hlatest := h'.openers j
    rw [hready] at hlatest
    obtain rfl : v' = 4 := hlatest
    exact ⟨h'.file, ⟨j, hready⟩, hall⟩

end Runs

section Samples

/-- The first opener dies in the second migration of a new file. -/
def dies : List (Action (Fin 3)) :=
  [.start 0, .readSchemaVersion 0, .next 0] ++ List.replicate 6 (.execute 0)
    ++ [.commit 0, .next 0, .execute 0, .execute 0, .fail 0 none]

/-- The other two read version 1; the third comes to the second migration after the second opener
has committed it. -/
def race : List (Action (Fin 3)) :=
  [.start 1, .start 2, .readSchemaVersion 1, .readSchemaVersion 2, .next 1, .next 2, .next 1]
    ++ List.replicate 12 (.execute 1) ++ [.commit 1, .next 2, .execute 2, .next 1]
    ++ List.replicate 4 (.execute 1) ++ [.commit 1, .next 1] ++ List.replicate 7 (.execute 1)
    ++ [.commit 1, .next 1]

def noWrite (_ : State (Fin 3)) : Action (Fin 3) → Bool
  | .write _ _ => false
  | _ => true

def onlyAdvances (_ : State (Fin 3)) (a : Action (Fin 3)) : Bool := a.advances

def endsStuck (s : State (Fin 3)) : Bool :=
  (exec (restrict onlyAdvances step) s race).any fun s' => decide s'.Stuck

theorem proper_of_noWrite (s : State (Fin 3)) (a : Action (Fin 3)) (h : noWrite s a = true) :
    Proper s a := by
  cases a with
  | write i db => cases h
  | _ => trivial

theorem faultless_of_advances (s : State (Fin 3)) (a : Action (Fin 3))
    (h : onlyAdvances s a = true) :
    Faultless s a := by
  refine ⟨proper_of_noWrite s a ?_, fun i e heq => ?_⟩
  · cases a <;> first | rfl | cases h
  · rw [heq] at h
    cases h

theorem migrations_atomic_dies :
    ∃ s s', Runs step Proper (initial {}) dies s ∧ AtVersion 1 s.shared.committed
      ∧ Runs step Proper s race s' ∧ ∃ v, 1 ≤ v ∧ AtVersion v s'.shared.committed := by
  obtain ⟨s, hruns, hp⟩ := exists_run_restrict noWrite step dies (s := initial {})
    (p := fun s => s.shared.committed.userVersion = 1 && endsStuck s) (by decide +kernel)
  rw [Bool.and_eq_true] at hp
  obtain ⟨s', hafter, -⟩ := exists_run_restrict onlyAdvances step race hp.2
  have hruns := hruns.weaken proper_of_noWrite
  have hafter := (hafter.weaken faultless_of_advances).weaken fun _ _ h => h.1
  obtain ⟨v, -, -, hfile, -, -, v', hle, -, hfile'⟩ :=
    migrations_atomic (Nat.zero_le 4) atVersion_zero hruns hafter
  obtain rfl : v = 1 := by exact_mod_cast hfile.userVersion.symm.trans (of_decide_eq_true hp.1)
  exact ⟨s, s', hruns, hfile, hafter, v', hle, hfile'⟩

theorem race_has_winner_secondOpener :
    ∃ s s', Runs step Proper (initial {}) dies s ∧ Runs step Faultless s race s'
      ∧ AtVersion 4 s'.shared.committed ∧ ∃ i, s'.openers i = .ready := by
  obtain ⟨s, hbefore, hp⟩ := exists_run_restrict noWrite step dies
    (s := initial {}) (p := endsStuck) (by decide +kernel)
  obtain ⟨s', hruns, hstuck⟩ := exists_run_restrict onlyAdvances step race hp
  have hbefore := hbefore.weaken proper_of_noWrite
  have hruns := hruns.weaken faultless_of_advances
  obtain ⟨-, hend⟩ := race_has_winner (Nat.zero_le 4) atVersion_zero hbefore hruns
  obtain ⟨hfile, hready, -⟩ := hend (.inr ⟨1, by simp [race]⟩) (of_decide_eq_true hstuck)
  exact ⟨s, s', hbefore, hruns, hfile, hready⟩

end Samples

end SchemaMigrations

end VoxTree

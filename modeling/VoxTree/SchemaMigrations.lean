import VoxTree.AuditLog
import VoxTree.Lib.Transactions

/-!
# Opening the database

What the constructor of `SqliteControlPlaneRepository` does to a database file that other processes
open at the same time: `readSchemaVersion` and `migrate`, statement by statement. An opener that is
in a transaction holds SQLite's write lock; an error, or the end of the process at any point, rolls
its transaction back. Processes whose repository is open write rows meanwhile.
-/

namespace VoxTree

open Relation Transactions

namespace SchemaMigrations

/-! ## The database file -/

inductive TableName
  | schemaMigrations
  | sessions
  | membershipContexts
  | membershipScopes
  | membershipGroups
  | membershipSpecializations
  | membershipTeams
  | memberships
  | membershipRoleAssignments
  | rolePermissions
  | roleTransmitScopes
  | roleReceiveScopes
  | transmissionAuditEvents
  | transmissionAuditEventsV3
  deriving DecidableEq

def TableName.sql : TableName → String
  | schemaMigrations => "schema_migrations"
  | sessions => "sessions"
  | membershipContexts => "membership_contexts"
  | membershipScopes => "membership_scopes"
  | membershipGroups => "membership_groups"
  | membershipSpecializations => "membership_specializations"
  | membershipTeams => "membership_teams"
  | memberships => "memberships"
  | membershipRoleAssignments => "membership_role_assignments"
  | rolePermissions => "role_permissions"
  | roleTransmitScopes => "role_transmit_scopes"
  | roleReceiveScopes => "role_receive_scopes"
  | transmissionAuditEvents => "transmission_audit_events"
  | transmissionAuditEventsV3 => "transmission_audit_events_v3"

/-- A table of audit events, with the highest rejection reason that its schema admits. -/
structure AuditContent where
  maximumRejection : ℤ
  table : AuditTable := {}

/-- What a table holds. -/
abbrev Content : TableName → Type
  | .schemaMigrations => List (ℕ × String)
  | .sessions => Sessions
  | .membershipContexts => List ContextRow
  | .membershipScopes => List ScopeRow
  | .membershipGroups => List GroupRow
  | .membershipSpecializations => List SpecializationRow
  | .membershipTeams => List TeamRow
  | .memberships => List MembershipRow
  | .membershipRoleAssignments => List RoleAssignmentRow
  | .rolePermissions => List RolePermissionsRow
  | .roleTransmitScopes => List RoleScopeRow
  | .roleReceiveScopes => List RoleScopeRow
  | .transmissionAuditEvents => AuditContent
  | .transmissionAuditEventsV3 => AuditContent

/-- A database file: `PRAGMA user_version`, its tables, and its indexes with the tables they are
on. -/
structure Database where
  userVersion : ℤ := 0
  tables : (name : TableName) → Option (Content name) := fun _ => none
  indexes : List (String × TableName) := []

namespace Database

variable (db : Database)

def setTable (name : TableName) (content : Option (Content name)) : Database :=
  { db with tables := Function.update db.tables name content }

end Database

/-! ## Statements -/

inductive Statement
  | createTable (name : TableName) (empty : Content name)
  | createIndex (index : String) (table : TableName)
  /-- `ALTER TABLE transmission_audit_events RENAME TO transmission_audit_events_v3`, which takes
  the indexes along. -/
  | renameAuditEvents
  /-- `INSERT INTO transmission_audit_events SELECT * FROM transmission_audit_events_v3`. -/
  | copyAuditEvents
  | dropTable (name : TableName)
  /-- `INSERT INTO schema_migrations(version, name)`. -/
  | insertMigration (version : ℕ) (name : String)
  /-- `PRAGMA user_version = version`. -/
  | setUserVersion (version : ℕ)

open AuditDatabase (statementFailed)
open SqliteControlPlaneRepository (insertRow)

def alreadyExists (kind name : String) : PersistenceException :=
  statementFailed (kind ++ " " ++ name ++ " already exists")

def noSuchTable (name : TableName) : PersistenceException :=
  statementFailed ("no such table: " ++ name.sql)

def execute : Statement → Database → Except PersistenceException Database
  | .createTable name empty, db =>
    match db.tables name with
    | some _ => .error (alreadyExists "table" name.sql)
    | none => .ok (db.setTable name (some empty))
  | .createIndex index table, db =>
    match db.tables table with
    | none => .error (noSuchTable table)
    | some _ =>
      if db.indexes.any fun entry => entry.1 = index then .error (alreadyExists "index" index)
      else .ok { db with indexes := db.indexes ++ [(index, table)] }
  | .renameAuditEvents, db =>
    match db.tables .transmissionAuditEvents, db.tables .transmissionAuditEventsV3 with
    | none, _ => .error (noSuchTable .transmissionAuditEvents)
    | some _, some _ =>
      .error (statementFailed
        "there is already another table or index with this name: transmission_audit_events_v3")
    | some audit, none =>
      .ok { (db.setTable .transmissionAuditEvents none).setTable .transmissionAuditEventsV3
          (some audit) with
        indexes := db.indexes.map fun entry =>
          if entry.2 = .transmissionAuditEvents then (entry.1, .transmissionAuditEventsV3)
          else entry }
  | .copyAuditEvents, db =>
    match db.tables .transmissionAuditEvents, db.tables .transmissionAuditEventsV3 with
    | none, _ => .error (noSuchTable .transmissionAuditEvents)
    | some _, none => .error (noSuchTable .transmissionAuditEventsV3)
    | some audit, some old =>
      match (select (fun _ => true) AuditEventRow.sequence old.table.rows).foldlM
          (fun t row => insertRow audit.maximumRejection row t) audit.table with
      | .ok t => .ok (db.setTable .transmissionAuditEvents (some ⟨audit.maximumRejection, t⟩))
      | .error _ => .error (statementFailed "constraint failed")
  | .dropTable name, db =>
    match db.tables name with
    | none => .error (noSuchTable name)
    | some _ =>
      .ok { db.setTable name none with indexes := db.indexes.filter fun entry => entry.2 ≠ name }
  | .insertMigration version name, db =>
    match db.tables .schemaMigrations with
    | none => .error (.persistence "Could not prepare SQLite statement: no such table")
    | some ledger =>
      if ledger.any fun entry => entry.1 = version then
        .error (.database "Could not record the schema migration" .primaryKey)
      else .ok (db.setTable .schemaMigrations (some (ledger ++ [(version, name)])))
  | .setUserVersion version, db => .ok { db with userVersion := version }

/-! ## The migrations -/

structure Migration where
  version : ℕ
  name : String
  sql : List Statement

def auditEventsByTime : Statement :=
  .createIndex "transmission_audit_events_by_time" .transmissionAuditEvents

def migrations : List Migration :=
  [⟨1, "create_sessions",
      [.createTable .schemaMigrations ([] : List (ℕ × String)),
        .createTable .sessions (∅ : Sessions),
        .createIndex "sessions_by_player" .sessions,
        .createIndex "sessions_by_expiration" .sessions]⟩,
    ⟨2, "create_authoritative_memberships",
      [.createTable .membershipContexts ([] : List ContextRow),
        .createTable .membershipScopes ([] : List ScopeRow),
        .createTable .membershipGroups ([] : List GroupRow),
        .createTable .membershipSpecializations ([] : List SpecializationRow),
        .createTable .membershipTeams ([] : List TeamRow),
        .createTable .memberships ([] : List MembershipRow),
        .createTable .membershipRoleAssignments ([] : List RoleAssignmentRow),
        .createTable .rolePermissions ([] : List RolePermissionsRow),
        .createTable .roleTransmitScopes ([] : List RoleScopeRow),
        .createTable .roleReceiveScopes ([] : List RoleScopeRow)]⟩,
    ⟨3, "create_transmission_audit_events",
      [.createTable .transmissionAuditEvents (⟨17, {}⟩ : AuditContent), auditEventsByTime]⟩,
    ⟨4, "extend_transmission_audit_rejections",
      [.renameAuditEvents,
        .createTable .transmissionAuditEvents (⟨19, {}⟩ : AuditContent),
        .copyAuditEvents,
        .dropTable .transmissionAuditEventsV3,
        auditEventsByTime]⟩]

def latestSchemaVersion : ℕ := 4

/-- What is executed between `BEGIN IMMEDIATE` and `COMMIT`. -/
def Migration.statements (migration : Migration) : List Statement :=
  migration.sql
    ++ [.insertMigration migration.version migration.name, .setUserVersion migration.version]

/-! ## Openers -/

inductive Opener
  | absent
  /-- The connection is open; the version has not been read yet. -/
  | opening
  /-- In `migrate`, with the migrations that the loop has not come to yet. -/
  | migrating (currentVersion : ℕ) (remaining : List Migration)
  | inTransaction (migration : Migration) (remaining : List Migration)
  /-- The repository is open. -/
  | ready
  /-- The constructor has thrown, or the process has died and thrown nothing. -/
  | failed (e : Option PersistenceException)

structure State (ι : Type*) where
  shared : Shared Database Statement ι
  openers : ι → Opener := fun _ => .absent

inductive Action (ι : Type*)
  | start (i : ι)
  | readSchemaVersion (i : ι)
  /-- The next pass of the loop over the migrations. -/
  | next (i : ι)
  | execute (i : ι)
  | commit (i : ι)
  /-- SQLite or the system fails, or the process ends. -/
  | fail (i : ι) (e : Option PersistenceException)
  /-- A repository that is open commits rows. -/
  | write (i : ι) (db : Database)

def readSchemaVersion (db : Database) : Except PersistenceException ℕ :=
  if db.userVersion < 0 ∨ 4294967295 < db.userVersion then
    .error (.persistence "The SQLite schema version is outside the supported range.")
  else .ok db.userVersion.toNat

/-- `migrate` up to its loop. -/
def checkVersion (db : Database) : Opener :=
  match readSchemaVersion db with
  | .error e => .failed (some e)
  | .ok version =>
    if latestSchemaVersion < version then
      .failed (some (.persistence ("Database schema version " ++ toString version
        ++ " is newer than the supported version " ++ toString latestSchemaVersion ++ ".")))
    else .migrating version migrations

namespace State

variable {ι : Type*} [DecidableEq ι] (s : State ι)

def setOpener (i : ι) (opener : Opener) : State ι :=
  { s with openers := Function.update s.openers i opener }

def isWriter (i : ι) : Bool := s.shared.writer.any fun w => w.owner = i

/-- An opener that fails; with the connection its transaction goes. -/
def failOpener (i : ι) (e : Option PersistenceException) : State ι :=
  { s.setOpener i (.failed e) with
    shared := if s.isWriter i then s.shared.rollback else s.shared }

end State

section Step

variable {ι : Type*} [DecidableEq ι]

def step (s : State ι) : Action ι → Option (State ι)
  | .start i =>
    match s.openers i with
    | .absent => some (s.setOpener i .opening)
    | _ => none
  | .readSchemaVersion i =>
    match s.openers i with
    | .opening => some (s.setOpener i (checkVersion s.shared.committed))
    | _ => none
  | .next i =>
    match s.openers i with
    | .migrating _ [] => some (s.setOpener i .ready)
    | .migrating currentVersion (migration :: remaining) =>
      if migration.version ≤ currentVersion then
        some (s.setOpener i (.migrating currentVersion remaining))
      else if migration.version ≠ currentVersion + 1 then
        some (s.setOpener i
          (.failed (some (.persistence "SQLite schema migrations are not contiguous."))))
      else
        (s.shared.begin i migration.statements).map fun shared =>
          { s.setOpener i (.inTransaction migration remaining) with shared }
    | _ => none
  | .execute i =>
    match s.openers i, s.shared.writer with
    | .inTransaction _ _, some w =>
      if w.owner ≠ i then none
      else
        match w.remaining with
        | [] => none
        | statement :: rest =>
          match execute statement w.working with
          | .ok working => some { s with shared := s.shared.work w rest working }
          | .error e => some (s.failOpener i (some e))
    | _, _ => none
  | .commit i =>
    match s.openers i, s.shared.writer with
    | .inTransaction migration remaining, some w =>
      if w.owner ≠ i ∨ w.remaining ≠ [] then none
      else
        some { s.setOpener i (.migrating migration.version remaining) with shared := w.commit }
    | _, _ => none
  | .fail i e =>
    match s.openers i with
    | .absent | .failed _ => none
    | _ => some (s.failOpener i e)
  | .write i db =>
    match s.openers i, s.shared.writer with
    | .ready, none => some { s with shared := { s.shared with committed := db } }
    | _, _ => none

end Step

end SchemaMigrations

end VoxTree

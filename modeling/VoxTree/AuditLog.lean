import VoxTree.Audit
import VoxTree.Persistence
import VoxTree.SessionCleanup

/-!
# The persistent audit log

The audit table of `SqliteControlPlaneRepository`: the events as rows, how they are appended, read
behind a sequence and erased, and the migration that extends the table. SQLite hands out the
sequences: with `AUTOINCREMENT` the next one is above every row and above the table's entry of
`sqlite_sequence`, which goes with the table when it is renamed or dropped.
-/

namespace VoxTree

open Relation

/-- A row of `transmission_audit_events`. -/
structure AuditEventRow where
  sequence : ℤ
  eventType : ℤ
  operation : ℤ
  occurredAtUnixMs : ℤ
  correlationId : Bytes
  sessionId : Option Bytes
  deviceId : Option Bytes
  clientTransmissionId : Option Bytes
  transmissionId : Option Bytes
  actorPlayerId : Option Bytes
  senderPlayerId : Option Bytes
  scope : Option ℤ
  membershipVersion : Option Bytes
  recipientCount : Option Bytes
  stopReason : Option ℤ
  rejectionReason : Option ℤ

/-- The rows of `transmission_audit_events` and its entry of `sqlite_sequence`, zero where there is
none. -/
structure AuditTable where
  rows : List AuditEventRow := []
  counter : ℤ := 0

/-- `StoredTransmissionAuditEvent`. -/
structure StoredTransmissionAuditEvent where
  sequence : ℕ
  event : TransmissionAuditEvent
  deriving DecidableEq

namespace SqliteControlPlaneRepository

open MembershipTables (lengthPositive)

/-! ## Values -/

section Enum

variable {ε : Type} [DecidableEq ε]

/-- `static_cast` of an enumerator, by its place in the declaration. -/
def enumToInteger (values : List ε) (value : ε) : ℤ := values.idxOf value

/-- What the conversions of an integer to an enumerator have in common. -/
def enumFromInteger (values : List ε) (message : String) (value : ℤ) :
    Except PersistenceException ε :=
  if value < 0 then .error (.persistence message)
  else match values[value.toNat]? with
    | some enumerator => .ok enumerator
    | none => .error (.persistence message)

end Enum

def auditEventTypes : List TransmissionAuditEventType :=
  [.started, .ended, .rejected, .forciblyInterrupted]

def auditOperations : List TransmissionAuditOperation :=
  [.start, .end, .moderation, .timeout, .sessionLifecycle, .membershipChange]

def stopReasons : List TransmissionStopReason :=
  [.none, .pushToTalkReleased, .rejected, .connectionLost, .membershipChanged, .permissionRevoked,
    .timedOut, .moderationInterrupted, .transportError, .disconnected]

def auditRejections : List TransmissionAuditRejectionReason :=
  [.sessionNotFound, .sessionDeviceMismatch, .sessionExpired, .membershipUnavailable,
    .voiceNotConnected, .voiceNoActiveMembership, .voiceScopeNotFound, .voiceScopeNotAuthorized,
    .voiceTransmitMuted, .voiceMembershipStale, .sessionChangedDuringStart,
    .membershipChangedDuringStart, .senderAlreadyTransmitting, .transmissionIdConflict,
    .transmissionNotFound, .transmissionNotOwned, .notAuthorized, .rateLimited,
    .speakerLimitReached, .voiceControlUnavailable]

def auditEventTypeFromInteger : ℤ → Except PersistenceException TransmissionAuditEventType :=
  enumFromInteger auditEventTypes "The audit database contains an invalid event type."

def auditOperationFromInteger : ℤ → Except PersistenceException TransmissionAuditOperation :=
  enumFromInteger auditOperations "The audit database contains an invalid operation."

def stopReasonFromInteger : ℤ → Except PersistenceException TransmissionStopReason :=
  enumFromInteger stopReasons "The audit database contains an invalid stop reason."

def auditRejectionFromInteger :
    ℤ → Except PersistenceException TransmissionAuditRejectionReason :=
  enumFromInteger auditRejections "The audit database contains an invalid rejection reason."

def unsignedFromText (field : String) (text : Bytes) : Except PersistenceException ℕ :=
  match fromChars text with
  | some value => .ok value
  | none => .error (.persistence ("The audit database contains an invalid " ++ field ++ "."))

/-- Every `std::uint64_t` is a `std::size_t`. -/
def countFromText (text : Bytes) : Except PersistenceException ℕ :=
  unsignedFromText "recipient count" text

/-- `std::nullopt` for a null, else what the column is read as. -/
def readOptional {α β : Type} (read : α → Except PersistenceException β) :
    Option α → Except PersistenceException (Option β)
  | none => .ok none
  | some value => some <$> read value

def limitToInteger (limit : ℕ) : Except PersistenceException ℕ :=
  if maximumInteger < limit then
    .error (.persistence "The requested SQLite result limit is too large.")
  else .ok limit

/-! ## The table -/

/-- `CHECK(text IS NULL OR length(text) > 0)`. -/
def nullOrText (text : Option Bytes) : Bool := text.all lengthPositive

/-- `CHECK(value BETWEEN 0 AND maximum)`. -/
def upTo (maximum value : ℤ) : Bool := 0 ≤ value && value ≤ maximum

/-- `transmission_audit_events`, with the highest rejection reason its schema admits. -/
def auditEvents (maximumRejection : ℤ) : Table AuditTable AuditEventRow ℤ where
  rows := AuditTable.rows
  withRows rows t := { t with rows := rows }
  key := AuditEventRow.sequence
  check row :=
    upTo 3 row.eventType && upTo 5 row.operation && lengthPositive row.correlationId
      && row.scope.all (upTo 2) && row.stopReason.all (upTo 9)
      && row.rejectionReason.all (upTo maximumRejection) && nullOrText row.sessionId
      && nullOrText row.deviceId && nullOrText row.clientTransmissionId
      && nullOrText row.transmissionId && nullOrText row.actorPlayerId
      && nullOrText row.senderPlayerId && nullOrText row.membershipVersion
      && nullOrText row.recipientCount
  references _ _ := true

/-- Since version 4. -/
def latestMaximumRejection : ℤ := 19

/-- What the next sequence has to be above. -/
def largestSequence (t : AuditTable) : ℤ :=
  t.rows.foldl (fun largest row => max largest row.sequence) t.counter

/-- `INSERT` of a row without a sequence: the sequence, and the table with the row. There is none
after the last integer. -/
def insertNext (maximumRejection : ℤ) (row : ℤ → AuditEventRow) (t : AuditTable) :
    Option (ℤ × AuditTable) :=
  let largest := largestSequence t
  if (maximumInteger : ℤ) ≤ largest then none
  else match (auditEvents maximumRejection).insert (row (largest + 1)) t with
    | .ok t' => some (largest + 1, { t' with counter := largest + 1 })
    | .error _ => none

/-- `INSERT` of a row with its sequence. -/
def insertRow (maximumRejection : ℤ) (row : AuditEventRow) (t : AuditTable) :
    Except Violation AuditTable :=
  match (auditEvents maximumRejection).insert row t with
  | .ok t' => .ok { t' with counter := max t.counter row.sequence }
  | .error violation => .error violation

/-! ## Recording, reading and erasing events -/

def auditEventRow (event : TransmissionAuditEvent) (sequence : ℤ) : AuditEventRow where
  sequence := sequence
  eventType := enumToInteger auditEventTypes event.type
  operation := enumToInteger auditOperations event.operation
  occurredAtUnixMs := toUnixMilliseconds event.occurredAt
  correlationId := event.correlationId.value
  sessionId := event.sessionId.map StrongId.value
  deviceId := event.deviceId.map StrongId.value
  clientTransmissionId := event.clientTransmissionId.map StrongId.value
  transmissionId := event.transmissionId.map StrongId.value
  actorPlayerId := event.actorPlayerId.map StrongId.value
  senderPlayerId := event.senderPlayerId.map StrongId.value
  scope := event.scope.map scopeToInteger
  membershipVersion := event.membershipVersion.map versionToText
  recipientCount := event.recipientCount.map versionToText
  stopReason := event.stopReason.map (enumToInteger stopReasons)
  rejectionReason := event.rejectionReason.map (enumToInteger auditRejections)

/-- The texts that are bound to the statement. -/
def auditTexts (row : AuditEventRow) : List Bytes :=
  row.correlationId :: [row.sessionId, row.deviceId, row.clientTransmissionId, row.transmissionId,
    row.actorPlayerId, row.senderPlayerId, row.membershipVersion,
    row.recipientCount].reduceOption

/-- The statement of `record`: the sequence of the event and the table with it, or nothing where it
throws. -/
def store (maximumRejection : ℤ) (event : TransmissionAuditEvent) (t : AuditTable) :
    Option (ℤ × AuditTable) :=
  match (auditTexts (auditEventRow event 0)).forM bindText with
  | .ok _ => insertNext maximumRejection (auditEventRow event) t
  | .error _ => none

def readAuditEvent (row : AuditEventRow) :
    Except PersistenceException StoredTransmissionAuditEvent := do
  if row.sequence ≤ 0 then
    throw (.persistence "The audit database contains an invalid event sequence.")
  let type ← auditEventTypeFromInteger row.eventType
  let operation ← auditOperationFromInteger row.operation
  let correlationId ← readIdentifier row.correlationId
  let sessionId ← readOptional readIdentifier row.sessionId
  let deviceId ← readOptional readIdentifier row.deviceId
  let clientTransmissionId ← readOptional readIdentifier row.clientTransmissionId
  let transmissionId ← readOptional readIdentifier row.transmissionId
  let actorPlayerId ← readOptional readIdentifier row.actorPlayerId
  let senderPlayerId ← readOptional readIdentifier row.senderPlayerId
  let scope ← readOptional scopeFromInteger row.scope
  let membershipVersion ← readOptional (fun text => do
    unsignedFromText "membership version" (← readText text)) row.membershipVersion
  let recipientCount ← readOptional (fun text => do countFromText (← readText text))
    row.recipientCount
  let stopReason ← readOptional stopReasonFromInteger row.stopReason
  let rejectionReason ← readOptional auditRejectionFromInteger row.rejectionReason
  pure ⟨row.sequence.toNat, ⟨type, operation, fromUnixMilliseconds row.occurredAtUnixMs,
    correlationId, sessionId, deviceId, clientTransmissionId, transmissionId, actorPlayerId,
    senderPlayerId, scope, membershipVersion, recipientCount, stopReason, rejectionReason⟩⟩

def auditEventsAfter (t : AuditTable) (sequence limit : ℕ) :
    Except PersistenceException (List StoredTransmissionAuditEvent) :=
  if limit = 0 ∨ maximumInteger < sequence then .ok []
  else do
    let limit ← limitToInteger limit
    ((select (fun row => (sequence : ℤ) < row.sequence) AuditEventRow.sequence t.rows).take
      limit).mapM readAuditEvent

/-- The sequences that `eraseAuditEventsBefore` selects. -/
def expiredSequences (t : AuditTable) (exclusiveCutoff : TimePoint) (limit : ℕ) : List ℤ :=
  ((select (fun row => row.occurredAtUnixMs < toUnixMilliseconds exclusiveCutoff)
    AuditEventRow.sequence t.rows).take limit).map AuditEventRow.sequence

def eraseAuditEventsBefore (t : AuditTable) (exclusiveCutoff : TimePoint) (limit : ℕ) :
    Except PersistenceException (ℕ × AuditTable) :=
  if limit = 0 then .ok (0, t)
  else do
    let limit ← limitToInteger limit
    let expired := expiredSequences t exclusiveCutoff limit
    let kept := t.rows.filter fun row => !expired.any fun sequence => sequence = row.sequence
    pure (t.rows.length - kept.length, { t with rows := kept })

end SqliteControlPlaneRepository

/-! ## The repository -/

/-- What the repository keeps of the audit. -/
structure AuditRepository where
  table : AuditTable := {}
  droppedAuditEvents : ℕ := 0

namespace AuditRepository

open SqliteControlPlaneRepository

variable (r : AuditRepository)

/-- `record`, and the sequence that the event was stored under. -/
def record (event : TransmissionAuditEvent) : Option ℤ × AuditRepository :=
  match store latestMaximumRejection event r.table with
  | some (sequence, table) => (some sequence, { r with table })
  | none => (none, { r with droppedAuditEvents := r.droppedAuditEvents + 1 })

/-- `eraseAuditEventsBefore`. An exception leaves the repository alone. -/
def erase (exclusiveCutoff : TimePoint) (limit : ℕ) : AuditRepository :=
  match eraseAuditEventsBefore r.table exclusiveCutoff limit with
  | .ok (_, table) => { r with table }
  | .error _ => r

end AuditRepository

/-! ## A reader of the log -/

/-- What is called on one repository: `read` is the reader's call of `auditEventsAfter`, with the
last sequence he has seen; others call it as well. -/
inductive AuditOp
  | record (event : TransmissionAuditEvent)
  | auditEventsAfter (sequence limit : ℕ)
  | eraseAuditEventsBefore (exclusiveCutoff : TimePoint) (limit : ℕ)
  | read (limit : ℕ)

/-- The repository and the reader, and what has happened: the events that were recorded without
being dropped, under their sequences, and the sequences that were erased before the reader reached
them. -/
structure AuditRun where
  repository : AuditRepository := {}
  lastSequence : ℕ
  received : List StoredTransmissionAuditEvent := []
  recorded : List StoredTransmissionAuditEvent := []
  erasedUnread : List ℕ := []

namespace AuditRun

/-- The sequences of the rows that are gone. -/
def erasedSequences (before after : AuditTable) : List ℕ :=
  (before.rows.filter fun row => !after.rows.any fun kept => kept.sequence = row.sequence).map
    fun row => row.sequence.toNat

def step (r : AuditRun) : AuditOp → AuditRun
  | .record event =>
    match r.repository.record event with
    | (some sequence, repository) =>
      { r with repository, recorded := r.recorded ++ [⟨sequence.toNat, event⟩] }
    | (none, repository) => { r with repository }
  | .auditEventsAfter _ _ => r
  | .eraseAuditEventsBefore exclusiveCutoff limit =>
    let repository := r.repository.erase exclusiveCutoff limit
    let erased := erasedSequences r.repository.table repository.table
    { r with
      repository
      erasedUnread := r.erasedUnread ++ erased.filter fun sequence => r.lastSequence < sequence }
  | .read limit =>
    match SqliteControlPlaneRepository.auditEventsAfter r.repository.table r.lastSequence limit with
    | .ok events =>
      { r with
        received := r.received ++ events
        lastSequence := (events.getLast?.map (·.sequence)).getD r.lastSequence }
    | .error _ => r

/-- A run on a new repository, with a reader who starts behind `start`. -/
def run (start : ℕ) (ops : List AuditOp) : AuditRun := ops.foldl step { lastSequence := start }

end AuditRun

/-! ## The migrations -/

/-- The part of a database that the migrations of the audit log are about: `PRAGMA user_version`,
the ledger and the tables of audit events, of which the second exists within a migration only. -/
structure AuditDatabase where
  userVersion : ℕ
  schemaMigrations : List (ℕ × String) := []
  auditEvents : Option AuditTable := none
  auditEventsV3 : Option AuditTable := none

abbrev Migrating := ExceptT PersistenceException (StateM AuditDatabase)

namespace AuditDatabase

open SqliteControlPlaneRepository

/-- What `execute` throws. -/
def statementFailed (message : String) : PersistenceException :=
  .persistence ("SQLite statement failed: " ++ message)

/-- `CREATE TABLE transmission_audit_events`. -/
def createAuditEvents : Migrating Unit := do
  if (← get).auditEvents.isSome then
    throw (statementFailed "table transmission_audit_events already exists")
  modify fun db => { db with auditEvents := some {} }

/-- `ALTER TABLE transmission_audit_events RENAME TO transmission_audit_events_v3`. -/
def renameAuditEvents : Migrating Unit := do
  let db ← get
  if db.auditEvents.isNone then
    throw (statementFailed "no such table: transmission_audit_events")
  if db.auditEventsV3.isSome then
    throw (statementFailed
      "there is already another table or index with this name: transmission_audit_events_v3")
  set { db with auditEvents := none, auditEventsV3 := db.auditEvents }

/-- `INSERT INTO transmission_audit_events SELECT * FROM transmission_audit_events_v3`. -/
def copyAuditEvents : Migrating Unit := do
  let db ← get
  let rows := select (fun _ => true) AuditEventRow.sequence (db.auditEventsV3.elim [] (·.rows))
  match rows.foldlM (fun t row => insertRow latestMaximumRejection row t)
      (db.auditEvents.getD {}) with
  | .ok t => set { db with auditEvents := some t }
  | .error _ => throw (statementFailed "constraint failed")

/-- `DROP TABLE transmission_audit_events_v3`. -/
def dropAuditEventsV3 : Migrating Unit := modify fun db => { db with auditEventsV3 := none }

/-- `extend_transmission_audit_rejections`. -/
def extendAuditRejections : Migrating Unit := do
  renameAuditEvents
  createAuditEvents
  copyAuditEvents
  dropAuditEventsV3

/-- A migration; what the first two do is not part of an `AuditDatabase`. -/
structure Migration where
  version : ℕ
  name : String
  sql : Migrating Unit

def migrations : List Migration :=
  [⟨1, "create_sessions", pure ()⟩,
    ⟨2, "create_authoritative_memberships", pure ()⟩,
    ⟨3, "create_transmission_audit_events", createAuditEvents⟩,
    ⟨4, "extend_transmission_audit_rejections", extendAuditRejections⟩]

def latestSchemaVersion : ℕ := 4

/-- The `INSERT` into `schema_migrations`. -/
def recordMigration (version : ℕ) (name : String) : Migrating Unit := do
  let db ← get
  if db.schemaMigrations.any fun entry => entry.1 = version then
    throw (.database "Could not record the schema migration" .primaryKey)
  set { db with schemaMigrations := db.schemaMigrations ++ [(version, name)] }

/-- The transaction of a migration, which is rolled back where something is thrown. -/
def apply (migration : Migration) : Migrating Unit := do
  let saved ← get
  tryCatch
    (do
      migration.sql
      recordMigration migration.version migration.name
      modify fun db => { db with userVersion := migration.version })
    fun e => do
      set saved
      throw e

/-- A pass of the loop over the migrations. -/
def applyIfMissing (migration : Migration) : Migrating Unit := do
  let currentVersion := (← get).userVersion
  if migration.version ≤ currentVersion then pure ()
  else if migration.version ≠ currentVersion + 1 then
    throw (.persistence "SQLite schema migrations are not contiguous.")
  else apply migration

def migrate : Migrating Unit := do
  let version := (← get).userVersion
  if latestSchemaVersion < version then
    throw (.persistence ("Database schema version " ++ toString version
      ++ " is newer than the supported version " ++ toString latestSchemaVersion ++ "."))
  migrations.forM applyIfMissing

end AuditDatabase

end VoxTree

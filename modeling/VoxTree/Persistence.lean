import VoxTree.ClientTypes
import VoxTree.FlatJson
import VoxTree.Lib.Relation
import VoxTree.Store

/-!
# The persistent membership repository

`SqliteControlPlaneRepository`: its membership tables, and the statements that write and read them.
SQLite keeps keyed relations under the declared constraints; a statement that violates one fails and
leaves the tables alone, and a transaction that is rolled back leaves none of its statements behind.
-/

namespace VoxTree

open Relation

/-! ## The membership tables -/

structure ContextRow where
  ownerPlayerId : Bytes
  version : Bytes
  hierarchyId : Bytes

structure ScopeRow where
  ownerPlayerId : Bytes
  scope : ℤ
  displayName : Bytes
  priority : ℤ
  maxConcurrentSpeakers : Option ℤ

structure GroupRow where
  ownerPlayerId : Bytes
  groupId : Bytes
  displayName : Bytes
  active : ℤ

structure SpecializationRow where
  ownerPlayerId : Bytes
  specializationId : Bytes
  groupId : Bytes
  displayName : Bytes

structure TeamRow where
  ownerPlayerId : Bytes
  teamId : Bytes
  specializationId : Bytes
  displayName : Bytes

structure MembershipRow where
  ownerPlayerId : Bytes
  playerId : Bytes
  groupId : Bytes
  specializationId : Bytes
  teamId : Bytes
  connected : ℤ
  canReceiveVoice : ℤ
  transmitMuted : ℤ
  voiceBanStatus : ℤ

structure RoleAssignmentRow where
  ownerPlayerId : Bytes
  playerId : Bytes
  roleId : Bytes

structure RolePermissionsRow where
  ownerPlayerId : Bytes
  roleId : Bytes

/-- A row of `role_transmit_scopes` or of `role_receive_scopes`. -/
structure RoleScopeRow where
  ownerPlayerId : Bytes
  roleId : Bytes
  scope : ℤ

structure MembershipTables where
  contexts : List ContextRow := []
  scopes : List ScopeRow := []
  groups : List GroupRow := []
  specializations : List SpecializationRow := []
  teams : List TeamRow := []
  memberships : List MembershipRow := []
  roleAssignments : List RoleAssignmentRow := []
  rolePermissions : List RolePermissionsRow := []
  roleTransmitScopes : List RoleScopeRow := []
  roleReceiveScopes : List RoleScopeRow := []

namespace MembershipTables

/-- `length(text) > 0`; SQLite counts the characters before the first NUL. -/
def lengthPositive (text : Bytes) : Bool := text.takeWhile (· ≠ 0) ≠ []

/-- `FOREIGN KEY(owner_player_id) REFERENCES membership_contexts(owner_player_id)`. -/
def hasContext (t : MembershipTables) (owner : Bytes) : Bool :=
  t.contexts.any fun row => row.ownerPlayerId = owner

def hasGroup (t : MembershipTables) (owner groupId : Bytes) : Bool :=
  t.groups.any fun row => row.ownerPlayerId = owner && row.groupId = groupId

def hasSpecialization (t : MembershipTables) (owner specializationId : Bytes) : Bool :=
  t.specializations.any fun row =>
    row.ownerPlayerId = owner && row.specializationId = specializationId

def hasTeam (t : MembershipTables) (owner teamId : Bytes) : Bool :=
  t.teams.any fun row => row.ownerPlayerId = owner && row.teamId = teamId

def hasMembership (t : MembershipTables) (owner playerId : Bytes) : Bool :=
  t.memberships.any fun row => row.ownerPlayerId = owner && row.playerId = playerId

def hasRolePermissions (t : MembershipTables) (owner roleId : Bytes) : Bool :=
  t.rolePermissions.any fun row => row.ownerPlayerId = owner && row.roleId = roleId

/-- `membership_contexts`. -/
def contextTable : Table MembershipTables ContextRow Bytes where
  rows := contexts
  withRows rows t := { t with contexts := rows }
  key := ContextRow.ownerPlayerId
  check row :=
    lengthPositive row.ownerPlayerId && lengthPositive row.version && lengthPositive row.hierarchyId
  references _ _ := true

/-- `membership_scopes`. -/
def scopeTable : Table MembershipTables ScopeRow (Bytes × ℤ) where
  rows := scopes
  withRows rows t := { t with scopes := rows }
  key row := (row.ownerPlayerId, row.scope)
  check row :=
    0 ≤ row.scope && row.scope ≤ 2 && lengthPositive row.displayName
      && row.maxConcurrentSpeakers.all fun limit => 0 ≤ limit
  references t row := t.hasContext row.ownerPlayerId

/-- `membership_groups`. -/
def groupTable : Table MembershipTables GroupRow (Bytes × Bytes) where
  rows := groups
  withRows rows t := { t with groups := rows }
  key row := (row.ownerPlayerId, row.groupId)
  check row := lengthPositive row.groupId && (row.active = 0 || row.active = 1)
  references t row := t.hasContext row.ownerPlayerId

/-- `membership_specializations`. -/
def specializationTable : Table MembershipTables SpecializationRow (Bytes × Bytes) where
  rows := specializations
  withRows rows t := { t with specializations := rows }
  key row := (row.ownerPlayerId, row.specializationId)
  check row := lengthPositive row.specializationId && lengthPositive row.groupId
  references t row := t.hasGroup row.ownerPlayerId row.groupId

/-- `membership_teams`. -/
def teamTable : Table MembershipTables TeamRow (Bytes × Bytes) where
  rows := teams
  withRows rows t := { t with teams := rows }
  key row := (row.ownerPlayerId, row.teamId)
  check row := lengthPositive row.teamId && lengthPositive row.specializationId
  references t row := t.hasSpecialization row.ownerPlayerId row.specializationId

/-- `memberships`. -/
def membershipTable : Table MembershipTables MembershipRow (Bytes × Bytes) where
  rows := memberships
  withRows rows t := { t with memberships := rows }
  key row := (row.ownerPlayerId, row.playerId)
  check row :=
    lengthPositive row.playerId && (row.connected = 0 || row.connected = 1)
      && (row.canReceiveVoice = 0 || row.canReceiveVoice = 1)
      && (row.transmitMuted = 0 || row.transmitMuted = 1)
      && 0 ≤ row.voiceBanStatus && row.voiceBanStatus ≤ 2
  references t row :=
    t.hasGroup row.ownerPlayerId row.groupId
      && t.hasSpecialization row.ownerPlayerId row.specializationId
      && t.hasTeam row.ownerPlayerId row.teamId

/-- `membership_role_assignments`. -/
def roleAssignmentTable : Table MembershipTables RoleAssignmentRow (Bytes × Bytes × Bytes) where
  rows := roleAssignments
  withRows rows t := { t with roleAssignments := rows }
  key row := (row.ownerPlayerId, row.playerId, row.roleId)
  check row := lengthPositive row.roleId
  references t row := t.hasMembership row.ownerPlayerId row.playerId

/-- `role_permissions`. -/
def rolePermissionsTable : Table MembershipTables RolePermissionsRow (Bytes × Bytes) where
  rows := rolePermissions
  withRows rows t := { t with rolePermissions := rows }
  key row := (row.ownerPlayerId, row.roleId)
  check row := lengthPositive row.roleId
  references t row := t.hasContext row.ownerPlayerId

/-- What `role_transmit_scopes` and `role_receive_scopes` have in common. -/
def roleScopeTable (rows : MembershipTables → List RoleScopeRow)
    (withRows : List RoleScopeRow → MembershipTables → MembershipTables) :
    Table MembershipTables RoleScopeRow (Bytes × Bytes × ℤ) where
  rows := rows
  withRows := withRows
  key row := (row.ownerPlayerId, row.roleId, row.scope)
  check row := 0 ≤ row.scope && row.scope ≤ 2
  references t row := t.hasRolePermissions row.ownerPlayerId row.roleId

/-- `role_transmit_scopes`. -/
def roleTransmitScopeTable : Table MembershipTables RoleScopeRow (Bytes × Bytes × ℤ) :=
  roleScopeTable roleTransmitScopes fun rows t => { t with roleTransmitScopes := rows }

/-- `role_receive_scopes`. -/
def roleReceiveScopeTable : Table MembershipTables RoleScopeRow (Bytes × Bytes × ℤ) :=
  roleScopeTable roleReceiveScopes fun rows t => { t with roleReceiveScopes := rows }

/-- The declared constraints hold in all tables. -/
structure Declared (t : MembershipTables) : Prop where
  contexts : contextTable.Holds t
  scopes : scopeTable.Holds t
  groups : groupTable.Holds t
  specializations : specializationTable.Holds t
  teams : teamTable.Holds t
  memberships : membershipTable.Holds t
  roleAssignments : roleAssignmentTable.Holds t
  rolePermissions : rolePermissionsTable.Holds t
  roleTransmitScopes : roleTransmitScopeTable.Holds t
  roleReceiveScopes : roleReceiveScopeTable.Holds t

/-- `DELETE FROM membership_contexts WHERE owner_player_id = ?1`, which cascades. -/
def deleteContext (owner : Bytes) (t : MembershipTables) : MembershipTables :=
  let t := { t with contexts := t.contexts.filter fun row => row.ownerPlayerId ≠ owner }
  let t := scopeTable.cascade t
  let t := groupTable.cascade t
  let t := specializationTable.cascade t
  let t := teamTable.cascade t
  let t := membershipTable.cascade t
  let t := roleAssignmentTable.cascade t
  let t := rolePermissionsTable.cascade t
  let t := roleTransmitScopeTable.cascade t
  roleReceiveScopeTable.cascade t

end MembershipTables

/-- Tables under their declared constraints. -/
structure MembershipDatabase where
  tables : MembershipTables
  declared : tables.Declared

/-! ## Statements -/

/-- What a call of the repository throws: `PersistenceError`, which carries SQLite's own message
where SQLite has refused a statement, or what a constructor throws. -/
inductive PersistenceException
  | persistence (message : String)
  | database (operation : String) (violation : Violation)
  | invalidArgument (e : InvalidArgument)
  deriving DecidableEq

/-- A connection: what its statements see, and what a rollback goes back to while a transaction is
open. -/
structure Connection where
  tables : MembershipTables := {}
  saved : Option MembershipTables := none

abbrev Sql (α : Type) := ExceptT PersistenceException (StateM Connection) α

namespace Sql

variable {α : Type}

def reading (f : MembershipTables → Except PersistenceException α) : Sql α :=
  ExceptT.mk fun c => (f c.tables, c)

/-- `BEGIN IMMEDIATE`. -/
def begin : Sql Unit :=
  ExceptT.mk fun c =>
    if c.saved.isSome then
      (.error (.persistence
        "SQLite statement failed: cannot start a transaction within a transaction"), c)
    else (.ok (), { c with saved := some c.tables })

/-- `COMMIT`. -/
def commit : Sql Unit := ExceptT.mk fun c => (.ok (), { c with saved := none })

/-- `ROLLBACK`. -/
def rollback : Sql Unit := ExceptT.mk fun c => (.ok (), ⟨c.saved.getD c.tables, none⟩)

/-- An `INSERT` that has to be done. -/
def insert {ρ κ : Type} [DecidableEq κ] (T : Table MembershipTables ρ κ) (operation : String)
    (row : ρ) : Sql Unit :=
  ExceptT.mk fun c =>
    match T.insert row c.tables with
    | .ok tables => (.ok (), { c with tables })
    | .error violation => (.error (.database operation violation), c)

def deleteContext (owner : PlayerId) : Sql Unit :=
  ExceptT.mk fun c => (.ok (), { c with tables := c.tables.deleteContext owner.value })

end Sql

namespace SqliteControlPlaneRepository

/-! ## Values -/

/-- `std::numeric_limits<int>::max()`, which `bindText` checks against. -/
def maximumTextLength : ℕ := 2147483647

def bindText (value : Bytes) : Except PersistenceException Unit :=
  if maximumTextLength < value.length then
    .error (.persistence "A persisted identifier exceeds SQLite's text length limit.")
  else .ok ()

def bindTexts (values : List Bytes) : Sql Unit := Sql.reading fun _ => values.forM bindText

def readText (value : Bytes) : Except PersistenceException Bytes :=
  if value = [] then
    .error (.persistence "The session database contains an invalid empty identifier.")
  else .ok value

/-- An identifier constructed from `readText`. -/
def readIdentifier {tag : IdTag} (value : Bytes) : Except PersistenceException (StrongId tag) := do
  let text ← readText value
  (StrongId.make text).mapError .invalidArgument

def booleanToInteger (value : Bool) : ℤ := if value then 1 else 0

def readBoolean (value : ℤ) : Except PersistenceException Bool :=
  if value ≠ 0 ∧ value ≠ 1 then
    .error (.persistence "The membership database contains an invalid boolean value.")
  else .ok (value ≠ 0)

def scopeToInteger : VoiceScope → ℤ
  | .team => 0
  | .specialization => 1
  | .group => 2

def scopeFromInteger : ℤ → Except PersistenceException VoiceScope
  | 0 => .ok .team
  | 1 => .ok .specialization
  | 2 => .ok .group
  | _ => .error (.persistence "The membership database contains an invalid voice scope.")

def voiceBanToInteger : VoiceBanStatus → ℤ
  | .none => 0
  | .temporary => 1
  | .permanent => 2

def voiceBanFromInteger : ℤ → Except PersistenceException VoiceBanStatus
  | 0 => .ok .none
  | 1 => .ok .temporary
  | 2 => .ok .permanent
  | _ => .error (.persistence "The membership database contains an invalid voice-ban status.")

def versionToText (version : ℕ) : Bytes := decimal version

def versionFromText (text : Bytes) : Except PersistenceException ℕ :=
  match fromChars text with
  | some (version + 1) => .ok (version + 1)
  | _ => .error (.persistence "The membership database contains an invalid version.")

/-- `static_cast<int>(sqlite3_column_int(…))`: the lower 32 bits. -/
def readInt (value : ℤ) : ℤ := value.bmod 4294967296

/-- `std::numeric_limits<sqlite3_int64>::max()`. -/
def maximumInteger : ℕ := 9223372036854775807

def checkSpeakerLimit (limit : Option ℕ) : Except PersistenceException Unit :=
  if limit.any fun limit => maximumInteger < limit then
    .error (.persistence "A speaker limit exceeds SQLite's integer range.")
  else .ok ()

def readSpeakerLimit : Option ℤ → Except PersistenceException (Option ℕ)
  | none => .ok none
  | some limit =>
    if limit < 0 ∨ (UInt64.size : ℤ) ≤ limit then
      .error (.persistence "The membership database contains an invalid speaker limit.")
    else .ok (some limit.toNat)

/-! ## Writing a context -/

section Rows

variable (owner : PlayerId)

def contextRow (context : AuthoritativeMembershipContext) : ContextRow :=
  ⟨owner.value, versionToText context.snapshot.version, context.snapshot.hierarchy.id.value⟩

def scopeRow (scope : ScopeDefinition) : ScopeRow :=
  ⟨owner.value, scopeToInteger scope.scope, scope.displayName, scope.priority,
    scope.maxConcurrentSpeakers.map Int.ofNat⟩

def groupRow (group : Group) : GroupRow :=
  ⟨owner.value, group.id.value, group.displayName, booleanToInteger group.active⟩

def specializationRow (specialization : Specialization) : SpecializationRow :=
  ⟨owner.value, specialization.id.value, specialization.groupId.value, specialization.displayName⟩

def teamRow (team : Team) : TeamRow :=
  ⟨owner.value, team.id.value, team.specializationId.value, team.displayName⟩

def rolePermissionsRow (role : RolePermissions) : RolePermissionsRow :=
  ⟨owner.value, role.roleId.value⟩

def roleScopeRow (roleId : RoleId) (scope : VoiceScope) : RoleScopeRow :=
  ⟨owner.value, roleId.value, scopeToInteger scope⟩

def membershipRow (m : VoiceMembership) : MembershipRow :=
  ⟨owner.value, m.playerId.value, m.groupId.value, m.specializationId.value, m.teamId.value,
    booleanToInteger m.connected, booleanToInteger m.canReceiveVoice,
    booleanToInteger m.transmitMuted, voiceBanToInteger m.voiceBanStatus⟩

def roleAssignmentRow (playerId : PlayerId) (roleId : RoleId) : RoleAssignmentRow :=
  ⟨owner.value, playerId.value, roleId.value⟩

end Rows

section Persist

open MembershipTables

variable (owner : PlayerId)

def persistScopes (scopes : List ScopeDefinition) : Sql Unit :=
  scopes.forM fun scope => do
    bindTexts [owner.value, scope.displayName]
    Sql.reading fun _ => checkSpeakerLimit scope.maxConcurrentSpeakers
    Sql.insert scopeTable "Could not persist a membership scope" (scopeRow owner scope)

def persistGroups (groups : List Group) : Sql Unit :=
  groups.forM fun group => do
    bindTexts [owner.value, group.id.value, group.displayName]
    Sql.insert groupTable "Could not persist a membership group" (groupRow owner group)

def persistSpecializations (specializations : List Specialization) : Sql Unit :=
  specializations.forM fun specialization => do
    bindTexts [owner.value, specialization.id.value, specialization.groupId.value,
      specialization.displayName]
    Sql.insert specializationTable "Could not persist a membership specialization"
      (specializationRow owner specialization)

def persistTeams (teams : List Team) : Sql Unit :=
  teams.forM fun team => do
    bindTexts [owner.value, team.id.value, team.specializationId.value, team.displayName]
    Sql.insert teamTable "Could not persist a membership team" (teamRow owner team)

/-- The loop over the transmit or the receive scopes of a role. -/
def persistRoleScopes (T : Table MembershipTables RoleScopeRow (Bytes × Bytes × ℤ))
    (operation : String) (roleId : RoleId) (scopes : List VoiceScope) : Sql Unit :=
  scopes.forM fun scope => do
    bindTexts [owner.value, roleId.value]
    Sql.insert T operation (roleScopeRow owner roleId scope)

def persistRoles (roles : List RolePermissions) : Sql Unit :=
  roles.forM fun role => do
    bindTexts [owner.value, role.roleId.value]
    Sql.insert rolePermissionsTable "Could not persist role permissions"
      (rolePermissionsRow owner role)
    persistRoleScopes owner roleTransmitScopeTable "Could not persist a role transmit scope"
      role.roleId role.transmitScopes
    persistRoleScopes owner roleReceiveScopeTable "Could not persist a role receive scope"
      role.roleId role.receiveScopes

def persistRoleAssignments (playerId : PlayerId) (roleIds : List RoleId) : Sql Unit :=
  roleIds.forM fun roleId => do
    bindTexts [owner.value, playerId.value, roleId.value]
    Sql.insert roleAssignmentTable "Could not persist a membership role assignment"
      (roleAssignmentRow owner playerId roleId)

def persistMemberships (memberships : List VoiceMembership) : Sql Unit :=
  memberships.forM fun m => do
    bindTexts [owner.value, m.playerId.value, m.groupId.value, m.specializationId.value,
      m.teamId.value]
    Sql.insert membershipTable "Could not persist a membership" (membershipRow owner m)
    persistRoleAssignments owner m.playerId m.roleIds

def persistMembershipContext (context : AuthoritativeMembershipContext) : Sql Unit := do
  bindTexts [owner.value, versionToText context.snapshot.version,
    context.snapshot.hierarchy.id.value]
  Sql.insert contextTable "Could not persist the membership context" (contextRow owner context)
  persistScopes owner context.snapshot.hierarchy.scopes
  persistGroups owner context.snapshot.hierarchy.groups
  persistSpecializations owner context.snapshot.hierarchy.specializations
  persistTeams owner context.snapshot.hierarchy.teams
  persistRoles owner context.rolePolicy.roles
  persistMemberships owner context.snapshot.memberships

end Persist

/-! ## Reading a context -/

section Load

variable (t : MembershipTables) (owner : PlayerId)

def readScope (row : ScopeRow) : Except PersistenceException ScopeDefinition := do
  let speakerLimit ← readSpeakerLimit row.maxConcurrentSpeakers
  let scope ← scopeFromInteger row.scope
  let displayName ← readText row.displayName
  pure ⟨scope, displayName, readInt row.priority, speakerLimit⟩

def readGroup (row : GroupRow) : Except PersistenceException Group := do
  pure ⟨← readIdentifier row.groupId, row.displayName, ← readBoolean row.active⟩

def readSpecialization (row : SpecializationRow) : Except PersistenceException Specialization := do
  pure ⟨← readIdentifier row.specializationId, ← readIdentifier row.groupId, row.displayName⟩

def readTeam (row : TeamRow) : Except PersistenceException Team := do
  pure ⟨← readIdentifier row.teamId, ← readIdentifier row.specializationId, row.displayName⟩

def readAssignedRoles (member : PlayerId) : Except PersistenceException (List RoleId) := do
  [owner.value, member.value].forM bindText
  (select (fun row => row.ownerPlayerId = owner.value && row.playerId = member.value)
    RoleAssignmentRow.roleId t.roleAssignments).mapM fun row => readIdentifier row.roleId

/-- `readRoleScopes` on one of its two tables. -/
def readRoleScopes (rows : List RoleScopeRow) (roleId : RoleId) :
    Except PersistenceException (List VoiceScope) := do
  [owner.value, roleId.value].forM bindText
  (select (fun row => row.ownerPlayerId = owner.value && row.roleId = roleId.value)
    RoleScopeRow.scope rows).mapM fun row => scopeFromInteger row.scope

def readMembership (row : MembershipRow) : Except PersistenceException VoiceMembership := do
  let playerId ← readIdentifier row.playerId
  let groupId ← readIdentifier row.groupId
  let specializationId ← readIdentifier row.specializationId
  let teamId ← readIdentifier row.teamId
  let roleIds ← readAssignedRoles t owner playerId
  let connected ← readBoolean row.connected
  let canReceiveVoice ← readBoolean row.canReceiveVoice
  let transmitMuted ← readBoolean row.transmitMuted
  let voiceBanStatus ← voiceBanFromInteger row.voiceBanStatus
  pure ⟨playerId, groupId, specializationId, teamId, roleIds, connected, canReceiveVoice,
    transmitMuted, voiceBanStatus⟩

def readRolePermissions (row : RolePermissionsRow) :
    Except PersistenceException RolePermissions := do
  let roleId ← readIdentifier row.roleId
  pure ⟨roleId, ← readRoleScopes owner t.roleTransmitScopes roleId,
    ← readRoleScopes owner t.roleReceiveScopes roleId⟩

/-- The queries of the lists, and the constructors they go to. -/
def readContext (context : ContextRow) :
    Except PersistenceException AuthoritativeMembershipContext := do
  let version ← versionFromText (← readText context.version)
  let hierarchyId ← readIdentifier context.hierarchyId
  let scopes ← (select (fun row => row.ownerPlayerId = owner.value) ScopeRow.scope
    t.scopes).mapM readScope
  let groups ← (select (fun row => row.ownerPlayerId = owner.value) GroupRow.groupId
    t.groups).mapM readGroup
  let specializations ← (select (fun row => row.ownerPlayerId = owner.value)
    SpecializationRow.specializationId t.specializations).mapM readSpecialization
  let teams ← (select (fun row => row.ownerPlayerId = owner.value) TeamRow.teamId
    t.teams).mapM readTeam
  let memberships ← (select (fun row => row.ownerPlayerId = owner.value) MembershipRow.playerId
    t.memberships).mapM (readMembership t owner)
  let roles ← (select (fun row => row.ownerPlayerId = owner.value) RolePermissionsRow.roleId
    t.rolePermissions).mapM (readRolePermissions t owner)
  let hierarchy ← (Hierarchy.make hierarchyId scopes groups specializations teams).mapError
    .invalidArgument
  let snapshot ← (MembershipSnapshot.make version hierarchy memberships).mapError .invalidArgument
  let rolePolicy ← (RolePolicy.make roles).mapError .invalidArgument
  pure ⟨snapshot, rolePolicy⟩

def loadMembershipContext :
    Except PersistenceException (Option AuthoritativeMembershipContext) := do
  bindText owner.value
  match t.contexts.find? fun row => row.ownerPlayerId = owner.value with
  | none => pure none
  | some context => some <$> readContext t owner context

/-- The version check of `upsertIfNewer`. -/
def notNewer (version : ℕ) : Except PersistenceException Bool := do
  bindText owner.value
  match t.contexts.find? fun row => row.ownerPlayerId = owner.value with
  | none => pure false
  | some context =>
    let stored ← versionFromText (← readText context.version)
    pure (version ≤ stored)

end Load

/-! ## The repository -/

def currentFor (playerId : PlayerId) : Sql (Option AuthoritativeMembershipContext) :=
  Sql.reading fun t => loadMembershipContext t playerId

/-- The transaction of `upsertIfNewer`. -/
def replaceIfNewer (playerId : PlayerId) (context : AuthoritativeMembershipContext) :
    Sql (Option MembershipUpdateError) := do
  if ← Sql.reading fun t => notNewer t playerId context.snapshot.version then
    Sql.rollback
    pure (some .versionNotNewer)
  else
    bindTexts [playerId.value]
    Sql.deleteContext playerId
    persistMembershipContext playerId context
    Sql.commit
    pure none

def upsertIfNewer (playerId : PlayerId) (context : AuthoritativeMembershipContext) :
    Sql (Option MembershipUpdateError) :=
  match context.snapshot.find playerId with
  | none => pure (some .playerNotInSnapshot)
  | some _ => do
    Sql.begin
    tryCatch (replaceIfNewer playerId context) fun e => do
      Sql.rollback
      throw e

/-- `erase` of a membership context; whether there was one. -/
def erase (playerId : PlayerId) : Sql Bool := do
  bindTexts [playerId.value]
  let erased ← Sql.reading fun t => .ok (t.hasContext playerId.value)
  Sql.deleteContext playerId
  pure erased

end SqliteControlPlaneRepository

end VoxTree

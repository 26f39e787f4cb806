import VoxTree.Lib.Results
import VoxTree.Persistence

/-!
# What the membership tables keep

Every statement keeps the declared constraints, and one of a transaction keeps what a rollback goes
back to (`InTransaction`). Deleting a context deletes the rows of its owner in all tables and no
others (`deleteContext_eq`).
-/

namespace VoxTree

open Relation Results

namespace MembershipTables

/-! ## Inserting -/

theorem contextTable_lawful : contextTable.Lawful :=
  ⟨fun _ _ => rfl, fun _ => rfl, fun _ _ _ => rfl, fun _ _ => rfl⟩

theorem scopeTable_lawful : scopeTable.Lawful :=
  ⟨fun _ _ => rfl, fun _ => rfl, fun _ _ _ => rfl, fun _ _ => rfl⟩

theorem groupTable_lawful : groupTable.Lawful :=
  ⟨fun _ _ => rfl, fun _ => rfl, fun _ _ _ => rfl, fun _ _ => rfl⟩

theorem specializationTable_lawful : specializationTable.Lawful :=
  ⟨fun _ _ => rfl, fun _ => rfl, fun _ _ _ => rfl, fun _ _ => rfl⟩

theorem teamTable_lawful : teamTable.Lawful :=
  ⟨fun _ _ => rfl, fun _ => rfl, fun _ _ _ => rfl, fun _ _ => rfl⟩

theorem membershipTable_lawful : membershipTable.Lawful :=
  ⟨fun _ _ => rfl, fun _ => rfl, fun _ _ _ => rfl, fun _ _ => rfl⟩

theorem roleAssignmentTable_lawful : roleAssignmentTable.Lawful :=
  ⟨fun _ _ => rfl, fun _ => rfl, fun _ _ _ => rfl, fun _ _ => rfl⟩

theorem rolePermissionsTable_lawful : rolePermissionsTable.Lawful :=
  ⟨fun _ _ => rfl, fun _ => rfl, fun _ _ _ => rfl, fun _ _ => rfl⟩

theorem roleTransmitScopeTable_lawful : roleTransmitScopeTable.Lawful :=
  ⟨fun _ _ => rfl, fun _ => rfl, fun _ _ _ => rfl, fun _ _ => rfl⟩

theorem roleReceiveScopeTable_lawful : roleReceiveScopeTable.Lawful :=
  ⟨fun _ _ => rfl, fun _ => rfl, fun _ _ _ => rfl, fun _ _ => rfl⟩

/-- An insert into the table leaves the constraints of all tables in place. -/
def Admits {ρ κ : Type} [DecidableEq κ] (T : Table MembershipTables ρ κ) : Prop :=
  ∀ (t t' : MembershipTables) (row : ρ), t.Declared → T.insert row t = .ok t' → t'.Declared

theorem contextTable_admits : Admits contextTable := by
  intro t t' row h hinsert
  have hcontexts := h.contexts.insert contextTable_lawful hinsert
  obtain ⟨-, -, -, rfl⟩ := Table.of_insert hinsert
  exact
    { h with
      contexts := hcontexts
      scopes := h.scopes.mono rfl fun _ => any_append_of_any _
      groups := h.groups.mono rfl fun _ => any_append_of_any _
      rolePermissions := h.rolePermissions.mono rfl fun _ => any_append_of_any _ }

theorem scopeTable_admits : Admits scopeTable := by
  intro t t' row h hinsert
  have hscopes := h.scopes.insert scopeTable_lawful hinsert
  obtain ⟨-, -, -, rfl⟩ := Table.of_insert hinsert
  exact { h with scopes := hscopes }

theorem groupTable_admits : Admits groupTable := by
  intro t t' row h hinsert
  have hgroups := h.groups.insert groupTable_lawful hinsert
  obtain ⟨-, -, -, rfl⟩ := Table.of_insert hinsert
  refine
    { h with
      groups := hgroups
      specializations := h.specializations.mono rfl fun _ => any_append_of_any _
      memberships := h.memberships.mono rfl fun m hm => ?_ }
  simp only [membershipTable, Bool.and_eq_true] at hm ⊢
  exact ⟨⟨any_append_of_any _ hm.1.1, hm.1.2⟩, hm.2⟩

theorem specializationTable_admits : Admits specializationTable := by
  intro t t' row h hinsert
  have hspecializations := h.specializations.insert specializationTable_lawful hinsert
  obtain ⟨-, -, -, rfl⟩ := Table.of_insert hinsert
  refine
    { h with
      specializations := hspecializations
      teams := h.teams.mono rfl fun _ => any_append_of_any _
      memberships := h.memberships.mono rfl fun m hm => ?_ }
  simp only [membershipTable, Bool.and_eq_true] at hm ⊢
  exact ⟨⟨hm.1.1, any_append_of_any _ hm.1.2⟩, hm.2⟩

theorem teamTable_admits : Admits teamTable := by
  intro t t' row h hinsert
  have hteams := h.teams.insert teamTable_lawful hinsert
  obtain ⟨-, -, -, rfl⟩ := Table.of_insert hinsert
  refine
    { h with
      teams := hteams
      memberships := h.memberships.mono rfl fun m hm => ?_ }
  simp only [membershipTable, Bool.and_eq_true] at hm ⊢
  exact ⟨hm.1, any_append_of_any _ hm.2⟩

theorem membershipTable_admits : Admits membershipTable := by
  intro t t' row h hinsert
  have hmemberships := h.memberships.insert membershipTable_lawful hinsert
  obtain ⟨-, -, -, rfl⟩ := Table.of_insert hinsert
  exact
    { h with
      memberships := hmemberships
      roleAssignments := h.roleAssignments.mono rfl fun _ => any_append_of_any _ }

theorem roleAssignmentTable_admits : Admits roleAssignmentTable := by
  intro t t' row h hinsert
  have hroleAssignments := h.roleAssignments.insert roleAssignmentTable_lawful hinsert
  obtain ⟨-, -, -, rfl⟩ := Table.of_insert hinsert
  exact { h with roleAssignments := hroleAssignments }

theorem rolePermissionsTable_admits : Admits rolePermissionsTable := by
  intro t t' row h hinsert
  have hrolePermissions := h.rolePermissions.insert rolePermissionsTable_lawful hinsert
  obtain ⟨-, -, -, rfl⟩ := Table.of_insert hinsert
  exact
    { h with
      rolePermissions := hrolePermissions
      roleTransmitScopes := h.roleTransmitScopes.mono rfl fun _ => any_append_of_any _
      roleReceiveScopes := h.roleReceiveScopes.mono rfl fun _ => any_append_of_any _ }

theorem roleTransmitScopeTable_admits : Admits roleTransmitScopeTable := by
  intro t t' row h hinsert
  have hroleTransmitScopes := h.roleTransmitScopes.insert roleTransmitScopeTable_lawful hinsert
  obtain ⟨-, -, -, rfl⟩ := Table.of_insert hinsert
  exact { h with roleTransmitScopes := hroleTransmitScopes }

theorem roleReceiveScopeTable_admits : Admits roleReceiveScopeTable := by
  intro t t' row h hinsert
  have hroleReceiveScopes := h.roleReceiveScopes.insert roleReceiveScopeTable_lawful hinsert
  obtain ⟨-, -, -, rfl⟩ := Table.of_insert hinsert
  exact { h with roleReceiveScopes := hroleReceiveScopes }

/-! ## The rows of some owners -/

/-- The rows of the owners that `keep` accepts, in all tables. -/
def restrict (keep : Bytes → Bool) (t : MembershipTables) : MembershipTables where
  contexts := t.contexts.filter fun row => keep row.ownerPlayerId
  scopes := t.scopes.filter fun row => keep row.ownerPlayerId
  groups := t.groups.filter fun row => keep row.ownerPlayerId
  specializations := t.specializations.filter fun row => keep row.ownerPlayerId
  teams := t.teams.filter fun row => keep row.ownerPlayerId
  memberships := t.memberships.filter fun row => keep row.ownerPlayerId
  roleAssignments := t.roleAssignments.filter fun row => keep row.ownerPlayerId
  rolePermissions := t.rolePermissions.filter fun row => keep row.ownerPlayerId
  roleTransmitScopes := t.roleTransmitScopes.filter fun row => keep row.ownerPlayerId
  roleReceiveScopes := t.roleReceiveScopes.filter fun row => keep row.ownerPlayerId

section Restrict

variable (keep : Bytes → Bool) (t : MembershipTables) (owner id : Bytes)

theorem hasContext_restrict :
    (t.restrict keep).hasContext owner = (keep owner && t.hasContext owner) :=
  any_filter_owner (fun _ h => of_decide_eq_true h) keep

theorem hasGroup_restrict :
    (t.restrict keep).hasGroup owner id = (keep owner && t.hasGroup owner id) :=
  any_filter_owner (fun _ h => of_decide_eq_true (Bool.and_eq_true_iff.1 h).1) keep

theorem hasSpecialization_restrict :
    (t.restrict keep).hasSpecialization owner id = (keep owner && t.hasSpecialization owner id) :=
  any_filter_owner (fun _ h => of_decide_eq_true (Bool.and_eq_true_iff.1 h).1) keep

theorem hasTeam_restrict :
    (t.restrict keep).hasTeam owner id = (keep owner && t.hasTeam owner id) :=
  any_filter_owner (fun _ h => of_decide_eq_true (Bool.and_eq_true_iff.1 h).1) keep

theorem hasMembership_restrict :
    (t.restrict keep).hasMembership owner id = (keep owner && t.hasMembership owner id) :=
  any_filter_owner (fun _ h => of_decide_eq_true (Bool.and_eq_true_iff.1 h).1) keep

theorem hasRolePermissions_restrict :
    (t.restrict keep).hasRolePermissions owner id
      = (keep owner && t.hasRolePermissions owner id) :=
  any_filter_owner (fun _ h => of_decide_eq_true (Bool.and_eq_true_iff.1 h).1) keep

theorem membership_restrict (row : MembershipRow) :
    membershipTable.references (t.restrict keep) row
      = (keep row.ownerPlayerId && membershipTable.references t row) := by
  simp only [membershipTable, hasGroup_restrict, hasSpecialization_restrict, hasTeam_restrict]
  cases keep row.ownerPlayerId <;> simp

end Restrict

section Declared

variable {t : MembershipTables} (h : t.Declared)

include h

theorem Declared.restrict (keep : Bytes → Bool) : (t.restrict keep).Declared where
  contexts := h.contexts.restrict rfl fun _ _ _ => rfl
  scopes := h.scopes.restrict rfl fun _ hkeep hrow =>
    (hasContext_restrict ..).trans (Bool.and_eq_true_iff.2 ⟨hkeep, hrow⟩)
  groups := h.groups.restrict rfl fun _ hkeep hrow =>
    (hasContext_restrict ..).trans (Bool.and_eq_true_iff.2 ⟨hkeep, hrow⟩)
  specializations := h.specializations.restrict rfl fun _ hkeep hrow =>
    (hasGroup_restrict ..).trans (Bool.and_eq_true_iff.2 ⟨hkeep, hrow⟩)
  teams := h.teams.restrict rfl fun _ hkeep hrow =>
    (hasSpecialization_restrict ..).trans (Bool.and_eq_true_iff.2 ⟨hkeep, hrow⟩)
  memberships := h.memberships.restrict rfl fun _ hkeep hrow =>
    (membership_restrict ..).trans (Bool.and_eq_true_iff.2 ⟨hkeep, hrow⟩)
  roleAssignments := h.roleAssignments.restrict rfl fun _ hkeep hrow =>
    (hasMembership_restrict ..).trans (Bool.and_eq_true_iff.2 ⟨hkeep, hrow⟩)
  rolePermissions := h.rolePermissions.restrict rfl fun _ hkeep hrow =>
    (hasContext_restrict ..).trans (Bool.and_eq_true_iff.2 ⟨hkeep, hrow⟩)
  roleTransmitScopes := h.roleTransmitScopes.restrict rfl fun _ hkeep hrow =>
    (hasRolePermissions_restrict ..).trans (Bool.and_eq_true_iff.2 ⟨hkeep, hrow⟩)
  roleReceiveScopes := h.roleReceiveScopes.restrict rfl fun _ hkeep hrow =>
    (hasRolePermissions_restrict ..).trans (Bool.and_eq_true_iff.2 ⟨hkeep, hrow⟩)

/-- Deleting the context of an owner deletes his rows in all tables, and no others. -/
theorem Declared.deleteContext_eq (owner : Bytes) :
    t.deleteContext owner = t.restrict fun o => o ≠ owner := by
  let keep : Bytes → Bool := fun o => o ≠ owner
  unfold MembershipTables.deleteContext
  dsimp only
  rw [h.scopes.cascade_eq fun row => keep row.ownerPlayerId,
    h.groups.cascade_eq fun row => keep row.ownerPlayerId,
    h.specializations.cascade_eq fun row => keep row.ownerPlayerId,
    h.teams.cascade_eq fun row => keep row.ownerPlayerId,
    h.memberships.cascade_eq fun row => keep row.ownerPlayerId,
    h.roleAssignments.cascade_eq fun row => keep row.ownerPlayerId,
    h.rolePermissions.cascade_eq fun row => keep row.ownerPlayerId,
    h.roleTransmitScopes.cascade_eq fun row => keep row.ownerPlayerId,
    h.roleReceiveScopes.cascade_eq fun row => keep row.ownerPlayerId]
  all_goals try rfl
  -- what is referenced has the same owner, from the last table back to the first
  · exact fun row => hasRolePermissions_restrict keep t row.ownerPlayerId row.roleId
  · exact fun row => hasRolePermissions_restrict keep t row.ownerPlayerId row.roleId
  · exact fun row => hasContext_restrict keep t row.ownerPlayerId
  · exact fun row => hasMembership_restrict keep t row.ownerPlayerId row.playerId
  · exact fun row => membership_restrict keep t row
  · exact fun row => hasSpecialization_restrict keep t row.ownerPlayerId row.specializationId
  · exact fun row => hasGroup_restrict keep t row.ownerPlayerId row.groupId
  · exact fun row => hasContext_restrict keep t row.ownerPlayerId
  · exact fun row => hasContext_restrict keep t row.ownerPlayerId

end Declared

end MembershipTables

/-! ## Transactions -/

def MembershipDatabase.connection (d : MembershipDatabase) : Connection := ⟨d.tables, none⟩

/-- A transaction is open that a rollback takes back to `saved`. -/
def InTransaction (saved : MembershipTables) (c : Connection) : Prop :=
  c.saved = some saved ∧ c.tables.Declared

namespace SqliteControlPlaneRepository

open MembershipTables

section Insert

variable {ρ κ : Type} [DecidableEq κ] {T : Table MembershipTables ρ κ} {operation : String}
  {row : ρ} {c : Connection}

theorem run_insert_ok {tables : MembershipTables} (h : T.insert row c.tables = .ok tables) :
    (Sql.insert T operation row).run.run c = (.ok (), { c with tables }) := by
  unfold Sql.insert
  dsimp only [ExceptT.run, ExceptT.mk, StateT.run]
  rw [h]

theorem run_insert_error {violation : Violation} (h : T.insert row c.tables = .error violation) :
    (Sql.insert T operation row).run.run c = (.error (.database operation violation), c) := by
  unfold Sql.insert
  dsimp only [ExceptT.run, ExceptT.mk, StateT.run]
  rw [h]

end Insert

section Keeps

variable {saved : MembershipTables} {c : Connection}

theorem keeps_insert {ρ κ : Type} [DecidableEq κ] {T : Table MembershipTables ρ κ} (hT : Admits T)
    (operation : String) (row : ρ) (h : InTransaction saved c) :
    Ensures (Sql.insert T operation row) c fun _ => InTransaction saved := by
  unfold Ensures
  rcases hinsert : T.insert row c.tables with violation | tables
  · rw [run_insert_error hinsert]
    exact h
  · rw [run_insert_ok hinsert]
    exact ⟨h.1, hT _ _ row h.2 hinsert⟩

theorem keeps_bindTexts (values : List Bytes) (h : InTransaction saved c) :
    Ensures (bindTexts values) c fun _ => InTransaction saved := h

/-- A loop over inserts into a table. -/
theorem keeps_insertEach {β ρ κ : Type} [DecidableEq κ] {T : Table MembershipTables ρ κ}
    (hT : Admits T) (operation : String) (texts : β → List Bytes) (row : β → ρ) (l : List β)
    (h : InTransaction saved c) :
    Ensures (l.forM fun a => do bindTexts (texts a); Sql.insert T operation (row a)) c
      fun _ => InTransaction saved :=
  Ensures.forM_keeps (fun a _ _ h => (keeps_bindTexts (texts a) h).keeps fun _ _ h =>
    keeps_insert hT operation (row a) h) h

theorem keeps_persistMembershipContext (owner : PlayerId)
    (context : AuthoritativeMembershipContext) (h : InTransaction saved c) :
    Ensures (persistMembershipContext owner context) c fun _ => InTransaction saved := by
  refine (keeps_bindTexts _ h).keeps fun _ _ h => ?_
  refine (keeps_insert contextTable_admits _ _ h).keeps fun _ _ h => ?_
  refine Ensures.keeps (Ensures.forM_keeps (fun scope _ _ h => ?_) h) fun _ _ h => ?_
  · refine (keeps_bindTexts _ h).keeps fun _ _ h => ?_
    exact Ensures.keeps (show InTransaction saved _ from h) fun _ _ h =>
      keeps_insert scopeTable_admits _ _ h
  refine (keeps_insertEach groupTable_admits _ _ _ _ h).keeps fun _ _ h => ?_
  refine (keeps_insertEach specializationTable_admits _ _ _ _ h).keeps fun _ _ h => ?_
  refine (keeps_insertEach teamTable_admits _ _ _ _ h).keeps fun _ _ h => ?_
  refine Ensures.keeps (Ensures.forM_keeps (fun role _ _ h => ?_) h) fun _ _ h => ?_
  · refine (keeps_bindTexts _ h).keeps fun _ _ h => ?_
    refine (keeps_insert rolePermissionsTable_admits _ _ h).keeps fun _ _ h => ?_
    refine (keeps_insertEach roleTransmitScopeTable_admits _ _ _ _ h).keeps fun _ _ h => ?_
    exact keeps_insertEach roleReceiveScopeTable_admits _ _ _ _ h
  refine Ensures.forM_keeps (fun m _ _ h => ?_) h
  refine (keeps_bindTexts _ h).keeps fun _ _ h => ?_
  refine (keeps_insert membershipTable_admits _ _ h).keeps fun _ _ h => ?_
  exact keeps_insertEach roleAssignmentTable_admits _ _ _ _ h

end Keeps

/-- What the transaction of `upsertIfNewer` ends in: it is committed, rolled back or still open. -/
structure Replaced (saved : MembershipTables)
    (r : Except PersistenceException (Option MembershipUpdateError)) (c : Connection) : Prop where
  committed : r = .ok none → c.saved = none ∧ c.tables.Declared
  rejected : ∀ e, r = .ok (some e) → c = ⟨saved, none⟩
  failed : ∀ e, r = .error e → InTransaction saved c

theorem ensures_replaceIfNewer (playerId : PlayerId) (context : AuthoritativeMembershipContext)
    {t : MembershipTables} (h : t.Declared) :
    Ensures (replaceIfNewer playerId context) ⟨t, some t⟩ (Replaced t) := by
  have hopen : InTransaction t ⟨t, some t⟩ := ⟨rfl, h⟩
  have hfailed : ∀ e c, InTransaction t c → Replaced t (.error e) c := fun e c hc =>
    ⟨nofun, nofun, fun _ _ => hc⟩
  refine Ensures.bind (R := fun _ c => c = ⟨t, some t⟩) rfl ?_ ?_
  · rintro e c rfl
    exact hfailed e _ hopen
  rintro newer c rfl
  cases newer with
  | true => exact ⟨nofun, fun _ _ => rfl, nofun⟩
  | false =>
    refine Ensures.bind (keeps_bindTexts [playerId.value] hopen) hfailed fun _ c hc => ?_
    have hdeleted : Ensures (Sql.deleteContext playerId) c fun _ => InTransaction t := by
      refine ⟨hc.1, ?_⟩
      show (c.tables.deleteContext playerId.value).Declared
      rw [hc.2.deleteContext_eq]
      exact hc.2.restrict _
    refine hdeleted.bind hfailed fun _ c hc => ?_
    refine (keeps_persistMembershipContext playerId context hc).bind hfailed fun _ c hc => ?_
    exact ⟨fun _ => ⟨rfl, hc.2⟩, nofun, nofun⟩

/-- A call leaves a database behind, with no transaction open. Where it does not succeed it leaves
everything as it was. -/
theorem ensures_upsertIfNewer (d : MembershipDatabase) (playerId : PlayerId)
    (context : AuthoritativeMembershipContext) :
    Ensures (upsertIfNewer playerId context) d.connection fun r c =>
      (∃ d' : MembershipDatabase, c = d'.connection) ∧ (r ≠ .ok none → c = d.connection) := by
  unfold upsertIfNewer
  rcases context.snapshot.find playerId with _ | m
  · exact ⟨⟨d, rfl⟩, fun _ => rfl⟩
  refine Ensures.bind (R := fun r c => r = .ok () ∧ c = ⟨d.tables, some d.tables⟩) ⟨rfl, rfl⟩
    (fun e c h => nomatch h.1) ?_
  rintro _ c ⟨-, rfl⟩
  refine (ensures_replaceIfNewer playerId context d.declared).tryCatch (fun r c h => ?_)
    fun e c h => ?_
  · rcases r with _ | e
    · obtain ⟨hsaved, hdeclared⟩ := h.committed rfl
      obtain ⟨tables, saved⟩ := c
      obtain rfl : saved = none := hsaved
      exact ⟨⟨⟨tables, hdeclared⟩, rfl⟩, fun hne => absurd rfl hne⟩
    · obtain rfl := h.rejected e rfl
      exact ⟨⟨d, rfl⟩, fun _ => rfl⟩
  · obtain ⟨hsaved, -⟩ := h.failed e rfl
    have hback : (⟨c.saved.getD c.tables, none⟩ : Connection) = d.connection := by
      rw [hsaved]
      rfl
    exact ⟨⟨d, hback⟩, fun _ => hback⟩

end SqliteControlPlaneRepository

end VoxTree

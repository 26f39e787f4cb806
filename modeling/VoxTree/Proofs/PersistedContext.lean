import VoxTree.Lib.Keyed
import VoxTree.Proofs.Json
import VoxTree.Proofs.MembershipTables
import VoxTree.Proofs.Routing

/-!
# A context in the tables and back

A context that the tables can hold is written in full where its owner has no rows
(`run_persistMembershipContext`), and what is read of its rows is the same context up to the order
of its lists (`load_written`).
-/

namespace VoxTree

open Relation Results MembershipTables

/-! ## What is asked of a context -/

namespace SqliteControlPlaneRepository

/-- The identifiers that are stored with a context. -/
def identifiers (owner : PlayerId) (context : AuthoritativeMembershipContext) : List Bytes :=
  owner.value :: context.snapshot.hierarchy.id.value
    :: (context.snapshot.hierarchy.groups.map (·.id.value)
      ++ context.snapshot.hierarchy.specializations.map (·.id.value)
      ++ context.snapshot.hierarchy.teams.map (·.id.value)
      ++ context.rolePolicy.roles.map (·.roleId.value)
      ++ context.snapshot.memberships.flatMap fun m =>
        m.playerId.value :: m.roleIds.map StrongId.value)

/-- The names that are stored with a context. -/
def displayNames (context : AuthoritativeMembershipContext) : List Bytes :=
  context.snapshot.hierarchy.scopes.map ScopeDefinition.displayName
    ++ context.snapshot.hierarchy.groups.map Group.displayName
    ++ context.snapshot.hierarchy.specializations.map Specialization.displayName
    ++ context.snapshot.hierarchy.teams.map Team.displayName

/-- A context of its owner without repetitions in its lists of roles and scopes, whose limits are
SQLite's integers and whose identifiers have no NUL. Versions and priorities are of their own types,
`std::uint64_t` and `int`. -/
structure Regular (owner : PlayerId) (context : AuthoritativeMembershipContext) : Prop where
  owned : (context.snapshot.find owner).isSome = true
  roleIds_unique : ∀ m ∈ context.snapshot.memberships, m.roleIds.Nodup
  transmit_unique : ∀ role ∈ context.rolePolicy.roles, role.transmitScopes.Nodup
  receive_unique : ∀ role ∈ context.rolePolicy.roles, role.receiveScopes.Nodup
  limits : ∀ scope ∈ context.snapshot.hierarchy.scopes, ∀ limit ∈ scope.maxConcurrentSpeakers,
    limit < 2 ^ 63
  identifiers : ∀ id ∈ identifiers owner context, 0 ∉ id
  version : context.snapshot.version < UInt64.size
  priorities : ∀ scope ∈ context.snapshot.hierarchy.scopes,
    -(2 ^ 31) ≤ scope.priority ∧ scope.priority < 2 ^ 31

/-- What the tables can hold of an owner: the texts have room, and no scope's name starts with a
NUL. -/
structure Storable (owner : PlayerId) (context : AuthoritativeMembershipContext) : Prop
    extends Regular owner context where
  scope_names : ∀ scope ∈ context.snapshot.hierarchy.scopes, scope.displayName.head? ≠ some 0
  lengths : ∀ text ∈ SqliteControlPlaneRepository.identifiers owner context
    ++ displayNames context, text.length ≤ maximumTextLength

/-! ## Writing -/

/-- The tables with the rows of a context. -/
def written (owner : PlayerId) (context : AuthoritativeMembershipContext)
    (t : MembershipTables) : MembershipTables where
  contexts := t.contexts ++ [contextRow owner context]
  scopes := t.scopes ++ context.snapshot.hierarchy.scopes.map (scopeRow owner)
  groups := t.groups ++ context.snapshot.hierarchy.groups.map (groupRow owner)
  specializations :=
    t.specializations ++ context.snapshot.hierarchy.specializations.map (specializationRow owner)
  teams := t.teams ++ context.snapshot.hierarchy.teams.map (teamRow owner)
  memberships := t.memberships ++ context.snapshot.memberships.map (membershipRow owner)
  roleAssignments := t.roleAssignments ++ context.snapshot.memberships.flatMap fun m =>
    m.roleIds.map (roleAssignmentRow owner m.playerId)
  rolePermissions := t.rolePermissions ++ context.rolePolicy.roles.map (rolePermissionsRow owner)
  roleTransmitScopes := t.roleTransmitScopes ++ context.rolePolicy.roles.flatMap fun role =>
    role.transmitScopes.map (roleScopeRow owner role.roleId)
  roleReceiveScopes := t.roleReceiveScopes ++ context.rolePolicy.roles.flatMap fun role =>
    role.receiveScopes.map (roleScopeRow owner role.roleId)

theorem lengthPositive_of_head {text : Bytes} (h : text ≠ []) (hhead : text.head? ≠ some 0) :
    lengthPositive text = true := by
  rcases text with _ | ⟨b, text⟩
  · exact absurd rfl h
  · have hb : b ≠ 0 := by simpa using hhead
    simp [lengthPositive, hb]

theorem lengthPositive_id {tag : IdTag} (id : StrongId tag) (h : 0 ∉ id.value) :
    lengthPositive id.value = true :=
  lengthPositive_of_head id.nonempty fun hhead => h (List.mem_of_mem_head? hhead)

theorem lengthPositive_decimal (n : ℕ) : lengthPositive (decimal n) = true := by
  refine lengthPositive_of_head (Encoding.decimal_ne_nil n) fun hhead => ?_
  have hdigit : Encoding.isDigit 0 = true :=
    Encoding.isDigit_of_mem_decimal (n := n) (List.mem_of_mem_head? hhead)
  exact absurd hdigit (by decide)

section Loops

variable {c : Connection}

/-- Keys that are unique in the end tell the row of a pass from those before it. -/
theorem key_not_mem {β ρ κ : Type} {key : ρ → κ} {rows : List ρ} {row : β → ρ}
    {before rest : List β} {a : β}
    (h : ((rows ++ (before ++ a :: rest).map row).map key).Nodup) :
    key (row a) ∉ (rows ++ before.map row).map key := by
  have hsplit : rows ++ (before ++ a :: rest).map row
      = (rows ++ before.map row) ++ row a :: rest.map row := by simp
  rw [hsplit, List.map_append, List.map_cons] at h
  exact fun hmem => (List.nodup_append.1 h).2.2 _ hmem _ List.mem_cons_self rfl

theorem run_bindTexts {values : List Bytes} (h : ∀ v ∈ values, v.length ≤ maximumTextLength) :
    (bindTexts values).run.run c = (.ok (), c) := by
  have hok : values.forM bindText = .ok () :=
    forM_ok fun v hv => if_neg (Nat.not_lt.2 (h v hv))
  show (values.forM bindText, c) = _
  rw [hok]

/-- A loop whose passes each insert a row of the table. -/
theorem run_insertEach {β ρ κ : Type} [DecidableEq κ] {T : Table MembershipTables ρ κ}
    (hT : T.Lawful) {f : β → Sql Unit} {row : β → ρ} {l : List β}
    (hf : ∀ a ∈ l, ∀ (c : Connection) tables, T.insert (row a) c.tables = .ok tables →
      (f a).run.run c = (.ok (), { c with tables }))
    (hcheck : ∀ a ∈ l, T.check (row a) = true)
    (hreferences : ∀ a ∈ l, T.references c.tables (row a) = true)
    (hkeys : ((T.rows c.tables ++ l.map row).map T.key).Nodup) :
    (l.forM f).run.run c
      = (.ok (), { c with tables := T.withRows (T.rows c.tables ++ l.map row) c.tables }) := by
  have hloop := run_forM_ok (f := f) (l := l) (fun before : List β =>
    ({ c with tables := T.withRows (T.rows c.tables ++ before.map row) c.tables } : Connection))
  rw [List.map_nil, List.append_nil, hT.withRows_rows] at hloop
  refine hloop fun before a rest hsplit => ?_
  subst hsplit
  have ha : a ∈ before ++ a :: rest := List.mem_append_right _ List.mem_cons_self
  have hkey := key_not_mem hkeys
  rw [← hT.rows_withRows (T.rows c.tables ++ before.map row) c.tables] at hkey
  have hinsert := Table.insert_ok (hcheck a ha) hkey (by
    rw [hT.references_withRows]
    exact hreferences a ha)
  rw [hT.rows_withRows, hT.withRows_withRows, List.append_assoc] at hinsert
  rw [hf a ha _ _ hinsert, List.map_append]
  rfl

end Loops

/-! ### The texts of a context -/

section Texts

variable {owner : PlayerId} {context : AuthoritativeMembershipContext}

theorem mem_identifiers {id : Bytes} : id ∈ identifiers owner context ↔
    id = owner.value ∨ id = context.snapshot.hierarchy.id.value
      ∨ (∃ group ∈ context.snapshot.hierarchy.groups, group.id.value = id)
      ∨ (∃ specialization ∈ context.snapshot.hierarchy.specializations,
        specialization.id.value = id)
      ∨ (∃ team ∈ context.snapshot.hierarchy.teams, team.id.value = id)
      ∨ (∃ role ∈ context.rolePolicy.roles, role.roleId.value = id)
      ∨ ∃ m ∈ context.snapshot.memberships, m.playerId.value = id
        ∨ ∃ roleId ∈ m.roleIds, roleId.value = id := by
  simp only [identifiers, List.mem_cons, List.mem_append, List.mem_map, List.mem_flatMap, or_assoc,
    eq_comm (a := id)]

theorem mem_displayNames {text : Bytes} : text ∈ displayNames context ↔
    (∃ scope ∈ context.snapshot.hierarchy.scopes, scope.displayName = text)
      ∨ (∃ group ∈ context.snapshot.hierarchy.groups, group.displayName = text)
      ∨ (∃ specialization ∈ context.snapshot.hierarchy.specializations,
        specialization.displayName = text)
      ∨ ∃ team ∈ context.snapshot.hierarchy.teams, team.displayName = text := by
  simp only [displayNames, List.mem_append, List.mem_map, or_assoc]

/-- An identifier of a context passes the check of its column. -/
structure Kept (text : Bytes) : Prop where
  length : text.length ≤ maximumTextLength
  positive : lengthPositive text = true

namespace Storable

variable (h : Storable owner context)

include h

theorem kept {tag : IdTag} {id : StrongId tag}
    (hid : id.value ∈ SqliteControlPlaneRepository.identifiers owner context) : Kept id.value :=
  ⟨h.lengths _ (List.mem_append_left _ hid), lengthPositive_id id (h.identifiers _ hid)⟩

theorem owner_kept : Kept owner.value := h.kept (mem_identifiers.2 (.inl rfl))

theorem hierarchy_kept : Kept context.snapshot.hierarchy.id.value :=
  h.kept (mem_identifiers.2 (.inr (.inl rfl)))

theorem group_kept {id : GroupId} (hid : id ∈ context.snapshot.hierarchy.groups.map Group.id) :
    Kept id.value := by
  obtain ⟨group, hgroup, rfl⟩ := List.mem_map.1 hid
  exact h.kept (mem_identifiers.2 (.inr (.inr (.inl ⟨group, hgroup, rfl⟩))))

theorem specialization_kept {id : SpecializationId}
    (hid : id ∈ context.snapshot.hierarchy.specializations.map Specialization.id) :
    Kept id.value := by
  obtain ⟨specialization, hmem, rfl⟩ := List.mem_map.1 hid
  exact h.kept (mem_identifiers.2 (.inr (.inr (.inr (.inl ⟨specialization, hmem, rfl⟩)))))

theorem team_kept {id : TeamId} (hid : id ∈ context.snapshot.hierarchy.teams.map Team.id) :
    Kept id.value := by
  obtain ⟨team, hteam, rfl⟩ := List.mem_map.1 hid
  exact h.kept (mem_identifiers.2 (.inr (.inr (.inr (.inr (.inl ⟨team, hteam, rfl⟩))))))

theorem role_kept {role : RolePermissions} (hrole : role ∈ context.rolePolicy.roles) :
    Kept role.roleId.value :=
  h.kept (mem_identifiers.2 (.inr (.inr (.inr (.inr (.inr (.inl ⟨role, hrole, rfl⟩)))))))

theorem player_kept {m : VoiceMembership} (hm : m ∈ context.snapshot.memberships) :
    Kept m.playerId.value :=
  h.kept (mem_identifiers.2
    (.inr (.inr (.inr (.inr (.inr (.inr ⟨m, hm, .inl rfl⟩)))))))

theorem assigned_kept {m : VoiceMembership} (hm : m ∈ context.snapshot.memberships) {r : RoleId}
    (hr : r ∈ m.roleIds) : Kept r.value :=
  h.kept (mem_identifiers.2
    (.inr (.inr (.inr (.inr (.inr (.inr ⟨m, hm, .inr ⟨r, hr, rfl⟩⟩)))))))

theorem name_length {text : Bytes} (htext : text ∈ displayNames context) :
    text.length ≤ maximumTextLength :=
  h.lengths _ (List.mem_append_right _ htext)

end Storable

/-- The path of a member is one of the hierarchy. -/
theorem path_mem {snapshot : MembershipSnapshot} {m : VoiceMembership}
    (hm : m ∈ snapshot.memberships) :
    m.groupId ∈ snapshot.hierarchy.groups.map Group.id
      ∧ m.specializationId ∈ snapshot.hierarchy.specializations.map Specialization.id
      ∧ m.teamId ∈ snapshot.hierarchy.teams.map Team.id := by
  have hpath := snapshot.paths_valid m hm
  unfold MembershipSnapshot.validPath at hpath
  rcases hgroup : snapshot.hierarchy.findGroup m.groupId with _ | group
  · simp [hgroup] at hpath
  rcases hspecialization : snapshot.hierarchy.findSpecialization m.specializationId with
    _ | specialization
  · simp [hgroup, hspecialization] at hpath
  rcases hteam : snapshot.hierarchy.findTeam m.teamId with _ | team
  · simp [hgroup, hspecialization, hteam] at hpath
  refine ⟨List.mem_map.2 ⟨group, List.mem_of_find?_eq_some hgroup, ?_⟩,
    List.mem_map.2 ⟨specialization, List.mem_of_find?_eq_some hspecialization, ?_⟩,
    List.mem_map.2 ⟨team, List.mem_of_find?_eq_some hteam, ?_⟩⟩
  · simpa using List.find?_some hgroup
  · simpa using List.find?_some hspecialization
  · simpa using List.find?_some hteam

end Texts

/-! ### Keys -/

theorem scopeToInteger_injective : Function.Injective scopeToInteger := by
  intro a b h
  cases a <;> cases b <;> first | rfl | cases h

/-- No row is the owner's. -/
def Fresh (owner : Bytes) (t : MembershipTables) : Prop := t.restrict (fun o => o = owner) = {}

/-- The keys of all tables are unique. -/
structure UniqueKeys (t : MembershipTables) : Prop where
  contexts : (t.contexts.map contextTable.key).Nodup
  scopes : (t.scopes.map scopeTable.key).Nodup
  groups : (t.groups.map groupTable.key).Nodup
  specializations : (t.specializations.map specializationTable.key).Nodup
  teams : (t.teams.map teamTable.key).Nodup
  memberships : (t.memberships.map membershipTable.key).Nodup
  roleAssignments : (t.roleAssignments.map roleAssignmentTable.key).Nodup
  rolePermissions : (t.rolePermissions.map rolePermissionsTable.key).Nodup
  roleTransmitScopes : (t.roleTransmitScopes.map roleTransmitScopeTable.key).Nodup
  roleReceiveScopes : (t.roleReceiveScopes.map roleReceiveScopeTable.key).Nodup

section Keys

variable {owner : PlayerId} {context : AuthoritativeMembershipContext} {t : MembershipTables}

/-- New rows of an owner who has none so far. -/
theorem nodup_append_fresh {ρ κ : Type} {own : ρ → Bytes} {key : ρ → κ} {o : Bytes}
    {rows new : List ρ} (hfresh : (rows.filter fun r => own r = o) = [])
    (hkey : ∀ r r', key r = key r' → own r = own r') (hown : ∀ r ∈ new, own r = o)
    (hrows : (rows.map key).Nodup) (hnew : (new.map key).Nodup) :
    ((rows ++ new).map key).Nodup := by
  rw [List.map_append]
  refine List.nodup_append.2 ⟨hrows, hnew, fun k hk k' hk' heq => ?_⟩
  obtain ⟨r, hr, rfl⟩ := List.mem_map.1 hk
  obtain ⟨r', hr', rfl⟩ := List.mem_map.1 hk'
  exact List.filter_eq_nil_iff.1 hfresh r hr
    (decide_eq_true ((hkey r r' heq).trans (hown r' hr')))

/-- The keys of rows made of entries that are different themselves. -/
theorem nodup_keys {β γ κ : Type} {l : List β} {id : β → γ} (h : (l.map id).Nodup) {key : γ → κ}
    (hkey : Function.Injective key) : (l.map fun a => key (id a)).Nodup := by
  have hmap := h.map hkey
  rwa [List.map_map] at hmap

theorem pair_value_injective {tag : IdTag} (owner : Bytes) :
    Function.Injective fun id : StrongId tag => (owner, id.value) := fun _ _ h =>
  StrongId.value_injective (Prod.mk.inj h).2

/-- The rows of the scopes of all roles. -/
theorem nodup_roleScopes {roles : List RolePermissions} {scopes : RolePermissions → List VoiceScope}
    (hroles : (roles.map RolePermissions.roleId).Nodup) (hscopes : ∀ r ∈ roles, (scopes r).Nodup) :
    ((roles.flatMap fun role => (scopes role).map (roleScopeRow owner role.roleId)).map
      roleTransmitScopeTable.key).Nodup := by
  rw [List.map_flatMap]
  refine Keyed.nodup_flatMap (q := fun k => k.2.1) (nodup_keys hroles StrongId.value_injective)
    (fun role hrole => ?_) fun role _ k hk => ?_
  · rw [List.map_map]
    refine (hscopes role hrole).map fun a b hab => ?_
    exact scopeToInteger_injective (Prod.mk.inj (Prod.mk.inj hab).2).2
  · rw [List.map_map] at hk
    obtain ⟨scope, -, rfl⟩ := List.mem_map.1 hk
    rfl

theorem nodup_roleAssignments {memberships : List VoiceMembership}
    (hplayers : (memberships.map VoiceMembership.playerId).Nodup)
    (hroles : ∀ m ∈ memberships, m.roleIds.Nodup) :
    ((memberships.flatMap fun m => m.roleIds.map (roleAssignmentRow owner m.playerId)).map
      roleAssignmentTable.key).Nodup := by
  rw [List.map_flatMap]
  refine Keyed.nodup_flatMap (q := fun k => k.2.1) (nodup_keys hplayers StrongId.value_injective)
    (fun m hm => ?_) fun m _ k hk => ?_
  · rw [List.map_map]
    refine (hroles m hm).map fun a b hab => ?_
    exact StrongId.value_injective (Prod.mk.inj (Prod.mk.inj hab).2).2
  · rw [List.map_map] at hk
    obtain ⟨roleId, -, rfl⟩ := List.mem_map.1 hk
    rfl

/-- The rows of a context have keys of their own. -/
theorem Storable.written_keys (h : Storable owner context) (ht : t.Declared)
    (hfresh : Fresh owner.value t) : UniqueKeys (written owner context t) where
  contexts := by
    refine nodup_append_fresh (congrArg MembershipTables.contexts hfresh) (fun _ _ h => h) ?_
      ht.contexts.keys_unique (List.nodup_singleton _)
    intro r hr
    rw [List.mem_singleton.1 hr]
    rfl
  scopes := by
    refine nodup_append_fresh (congrArg MembershipTables.scopes hfresh)
      (fun _ _ h => (Prod.mk.inj h).1) (List.forall_mem_map.2 fun _ _ => rfl)
      ht.scopes.keys_unique ?_
    rw [List.map_map]
    exact nodup_keys (Hierarchy.checkScopes_nodup context.snapshot.hierarchy.scopes_valid)
      fun _ _ h => scopeToInteger_injective (Prod.mk.inj h).2
  groups := by
    refine nodup_append_fresh (congrArg MembershipTables.groups hfresh)
      (fun _ _ h => (Prod.mk.inj h).1) (List.forall_mem_map.2 fun _ _ => rfl)
      ht.groups.keys_unique ?_
    rw [List.map_map]
    exact nodup_keys context.snapshot.hierarchy.groups_unique (pair_value_injective owner.value)
  specializations := by
    refine nodup_append_fresh (congrArg MembershipTables.specializations hfresh)
      (fun _ _ h => (Prod.mk.inj h).1) (List.forall_mem_map.2 fun _ _ => rfl)
      ht.specializations.keys_unique ?_
    rw [List.map_map]
    exact nodup_keys context.snapshot.hierarchy.specializations_unique
      (pair_value_injective owner.value)
  teams := by
    refine nodup_append_fresh (congrArg MembershipTables.teams hfresh)
      (fun _ _ h => (Prod.mk.inj h).1) (List.forall_mem_map.2 fun _ _ => rfl)
      ht.teams.keys_unique ?_
    rw [List.map_map]
    exact nodup_keys context.snapshot.hierarchy.teams_unique (pair_value_injective owner.value)
  memberships := by
    refine nodup_append_fresh (congrArg MembershipTables.memberships hfresh)
      (fun _ _ h => (Prod.mk.inj h).1) (List.forall_mem_map.2 fun _ _ => rfl)
      ht.memberships.keys_unique ?_
    rw [List.map_map]
    exact nodup_keys context.snapshot.players_unique (pair_value_injective owner.value)
  roleAssignments := by
    refine nodup_append_fresh (congrArg MembershipTables.roleAssignments hfresh)
      (fun _ _ h => (Prod.mk.inj h).1) (List.forall_mem_flatMap.2 fun _ _ =>
        List.forall_mem_map.2 fun _ _ => rfl) ht.roleAssignments.keys_unique ?_
    exact nodup_roleAssignments context.snapshot.players_unique h.roleIds_unique
  rolePermissions := by
    refine nodup_append_fresh (congrArg MembershipTables.rolePermissions hfresh)
      (fun _ _ h => (Prod.mk.inj h).1) (List.forall_mem_map.2 fun _ _ => rfl)
      ht.rolePermissions.keys_unique ?_
    rw [List.map_map]
    exact nodup_keys context.rolePolicy.roles_unique (pair_value_injective owner.value)
  roleTransmitScopes := by
    refine nodup_append_fresh (congrArg MembershipTables.roleTransmitScopes hfresh)
      (fun _ _ h => (Prod.mk.inj h).1) (List.forall_mem_flatMap.2 fun _ _ =>
        List.forall_mem_map.2 fun _ _ => rfl) ht.roleTransmitScopes.keys_unique ?_
    exact nodup_roleScopes context.rolePolicy.roles_unique h.transmit_unique
  roleReceiveScopes := by
    refine nodup_append_fresh (congrArg MembershipTables.roleReceiveScopes hfresh)
      (fun _ _ h => (Prod.mk.inj h).1) (List.forall_mem_flatMap.2 fun _ _ =>
        List.forall_mem_map.2 fun _ _ => rfl) ht.roleReceiveScopes.keys_unique ?_
    exact nodup_roleScopes context.rolePolicy.roles_unique h.receive_unique

end Keys

/-! ### The loops -/

section Persist

variable {owner : PlayerId} {context : AuthoritativeMembershipContext} {c : Connection}

/-- What an identifier refers to is among the rows made of the entries that have it. -/
theorem any_of_mem {β ρ : Type} {tag : IdTag} {l : List β} {id : β → StrongId tag} {row : β → ρ}
    {rows : List ρ} (hrows : ∀ a ∈ l, row a ∈ rows) {k : StrongId tag} (hk : k ∈ l.map id)
    {own column : ρ → Bytes} (hown : ∀ a, own (row a) = owner.value)
    (hcolumn : ∀ a, column (row a) = (id a).value) :
    (rows.any fun r => own r = owner.value && column r = k.value) = true := by
  obtain ⟨a, ha, rfl⟩ := List.mem_map.1 hk
  refine List.any_eq_true.2 ⟨row a, hrows a ha, ?_⟩
  rw [hown, hcolumn]
  simp

theorem Storable.run_persistScopes (h : Storable owner context)
    (hcontext : c.tables.hasContext owner.value = true)
    (hkeys : ((c.tables.scopes ++ context.snapshot.hierarchy.scopes.map (scopeRow owner)).map
      scopeTable.key).Nodup) :
    (persistScopes owner context.snapshot.hierarchy.scopes).run.run c
      = (.ok (), { c with tables := { c.tables with
          scopes := c.tables.scopes
            ++ context.snapshot.hierarchy.scopes.map (scopeRow owner) } }) := by
  refine run_insertEach scopeTable_lawful (fun scope hscope c tables hinsert => ?_)
    (fun scope hscope => ?_) (fun _ _ => hcontext) hkeys
  · have htexts : ∀ v ∈ [owner.value, scope.displayName], v.length ≤ maximumTextLength := by
      simp only [List.forall_mem_cons, List.not_mem_nil, false_implies, implies_true, and_true]
      exact ⟨h.owner_kept.length, h.name_length (mem_displayNames.2 (.inl ⟨scope, hscope, rfl⟩))⟩
    have hlimit : (Sql.reading fun _ => checkSpeakerLimit scope.maxConcurrentSpeakers).run.run c
        = (.ok (), c) := by
      refine congrArg (·, c) (if_neg ?_)
      rw [Option.any_eq_true]
      rintro ⟨limit, hsome, hlt⟩
      have hbound := h.limits scope hscope limit hsome
      have hlt : maximumInteger < limit := by simpa using hlt
      unfold maximumInteger at hlt
      omega
    refine (run_bind_ok (run_bindTexts htexts)).trans ?_
    exact (run_bind_ok hlimit).trans (run_insert_ok hinsert)
  · have hname := (Hierarchy.checkScopes_eq_none_iff.1
      context.snapshot.hierarchy.scopes_valid).1 scope hscope
    have hpositive := lengthPositive_of_head hname (h.scope_names scope hscope)
    have hscope : 0 ≤ scopeToInteger scope.scope ∧ scopeToInteger scope.scope ≤ 2 := by
      cases scope.scope <;> decide
    have hlimit : (scope.maxConcurrentSpeakers.map Int.ofNat).all fun limit => 0 ≤ limit := by
      cases scope.maxConcurrentSpeakers <;> simp
    simp only [scopeTable, scopeRow, hscope, hpositive, hlimit, decide_true, Bool.and_self]

theorem Storable.run_persistGroups (h : Storable owner context)
    (hcontext : c.tables.hasContext owner.value = true)
    (hkeys : ((c.tables.groups ++ context.snapshot.hierarchy.groups.map (groupRow owner)).map
      groupTable.key).Nodup) :
    (persistGroups owner context.snapshot.hierarchy.groups).run.run c
      = (.ok (), { c with tables := { c.tables with
          groups := c.tables.groups
            ++ context.snapshot.hierarchy.groups.map (groupRow owner) } }) := by
  have hid : ∀ group ∈ context.snapshot.hierarchy.groups, Kept group.id.value := fun group hgroup =>
    h.group_kept (List.mem_map_of_mem hgroup)
  refine run_insertEach groupTable_lawful (fun group hgroup c tables hinsert => ?_)
    (fun group hgroup => ?_) (fun _ _ => hcontext) hkeys
  · refine (run_bind_ok (run_bindTexts ?_)).trans (run_insert_ok hinsert)
    simp only [List.forall_mem_cons, List.not_mem_nil, false_implies, implies_true, and_true]
    exact ⟨h.owner_kept.length, (hid group hgroup).length,
      h.name_length (mem_displayNames.2 (.inr (.inl ⟨group, hgroup, rfl⟩)))⟩
  · have hactive : booleanToInteger group.active = 0 ∨ booleanToInteger group.active = 1 := by
      cases group.active <;> decide
    simpa [groupTable, groupRow, (hid group hgroup).positive] using hactive

theorem Storable.run_persistSpecializations (h : Storable owner context)
    (hgroups : ∀ group ∈ context.snapshot.hierarchy.groups, groupRow owner group ∈ c.tables.groups)
    (hkeys : ((c.tables.specializations
      ++ context.snapshot.hierarchy.specializations.map (specializationRow owner)).map
        specializationTable.key).Nodup) :
    (persistSpecializations owner context.snapshot.hierarchy.specializations).run.run c
      = (.ok (), { c with tables := { c.tables with
          specializations := c.tables.specializations
            ++ context.snapshot.hierarchy.specializations.map (specializationRow owner) } }) := by
  have hid : ∀ specialization ∈ context.snapshot.hierarchy.specializations,
      Kept specialization.id.value ∧ Kept specialization.groupId.value :=
    fun specialization hmem => ⟨h.specialization_kept (List.mem_map_of_mem hmem),
      h.group_kept (context.snapshot.hierarchy.specializations_owned specialization hmem)⟩
  refine run_insertEach specializationTable_lawful (fun specialization hmem c tables hinsert => ?_)
    (fun specialization hmem => ?_) (fun specialization hmem => ?_) hkeys
  · refine (run_bind_ok (run_bindTexts ?_)).trans (run_insert_ok hinsert)
    simp only [List.forall_mem_cons, List.not_mem_nil, false_implies, implies_true, and_true]
    exact ⟨h.owner_kept.length, (hid specialization hmem).1.length,
      (hid specialization hmem).2.length,
      h.name_length (mem_displayNames.2 (.inr (.inr (.inl ⟨specialization, hmem, rfl⟩))))⟩
  · simp [specializationTable, specializationRow, (hid specialization hmem).1.positive,
      (hid specialization hmem).2.positive]
  · exact any_of_mem hgroups
      (context.snapshot.hierarchy.specializations_owned specialization hmem)
      (fun _ => rfl) fun _ => rfl

theorem Storable.run_persistTeams (h : Storable owner context)
    (hspecializations : ∀ specialization ∈ context.snapshot.hierarchy.specializations,
      specializationRow owner specialization ∈ c.tables.specializations)
    (hkeys : ((c.tables.teams ++ context.snapshot.hierarchy.teams.map (teamRow owner)).map
      teamTable.key).Nodup) :
    (persistTeams owner context.snapshot.hierarchy.teams).run.run c
      = (.ok (), { c with tables := { c.tables with
          teams := c.tables.teams
            ++ context.snapshot.hierarchy.teams.map (teamRow owner) } }) := by
  have hid : ∀ team ∈ context.snapshot.hierarchy.teams,
      Kept team.id.value ∧ Kept team.specializationId.value :=
    fun team hmem => ⟨h.team_kept (List.mem_map_of_mem hmem),
      h.specialization_kept (context.snapshot.hierarchy.teams_owned team hmem)⟩
  refine run_insertEach teamTable_lawful (fun team hmem c tables hinsert => ?_)
    (fun team hmem => ?_) (fun team hmem => ?_) hkeys
  · refine (run_bind_ok (run_bindTexts ?_)).trans (run_insert_ok hinsert)
    simp only [List.forall_mem_cons, List.not_mem_nil, false_implies, implies_true, and_true]
    exact ⟨h.owner_kept.length, (hid team hmem).1.length, (hid team hmem).2.length,
      h.name_length (mem_displayNames.2 (.inr (.inr (.inr ⟨team, hmem, rfl⟩))))⟩
  · simp [teamTable, teamRow, (hid team hmem).1.positive, (hid team hmem).2.positive]
  · exact any_of_mem hspecializations (context.snapshot.hierarchy.teams_owned team hmem)
      (fun _ => rfl) fun _ => rfl

/-- The scopes of a role, behind those of the roles before it. -/
theorem run_persistRoleScopes {T : Table MembershipTables RoleScopeRow (Bytes × Bytes × ℤ)}
    (hT : T.Lawful) (hcheck : ∀ row, T.check row = roleTransmitScopeTable.check row)
    (hreferences : ∀ t row, T.references t row = roleTransmitScopeTable.references t row)
    {operation : String} {roleId : RoleId} {scopes : List VoiceScope} (howner : Kept owner.value)
    (hrole : Kept roleId.value)
    (hpermissions : c.tables.hasRolePermissions owner.value roleId.value = true)
    (hkeys : ((T.rows c.tables ++ scopes.map (roleScopeRow owner roleId)).map T.key).Nodup) :
    (persistRoleScopes owner T operation roleId scopes).run.run c
      = (.ok (), { c with
          tables := T.withRows (T.rows c.tables ++ scopes.map (roleScopeRow owner roleId))
            c.tables }) := by
  refine run_insertEach hT (fun scope _ c tables hinsert => ?_) (fun scope _ => ?_)
    (fun scope _ => ?_) hkeys
  · refine (run_bind_ok (run_bindTexts ?_)).trans (run_insert_ok hinsert)
    simp only [List.forall_mem_cons, List.not_mem_nil, false_implies, implies_true, and_true]
    exact ⟨howner.length, hrole.length⟩
  · rw [hcheck]
    cases scope <;> rfl
  · rw [hreferences]
    exact hpermissions

/-- The tables after the loop over the roles has come so far. -/
def withRoles (owner : PlayerId) (roles : List RolePermissions) (t : MembershipTables) :
    MembershipTables :=
  { t with
    rolePermissions := t.rolePermissions ++ roles.map (rolePermissionsRow owner)
    roleTransmitScopes := t.roleTransmitScopes ++ roles.flatMap fun role =>
      role.transmitScopes.map (roleScopeRow owner role.roleId)
    roleReceiveScopes := t.roleReceiveScopes ++ roles.flatMap fun role =>
      role.receiveScopes.map (roleScopeRow owner role.roleId) }

/-- Keys that are unique in the end are unique after each pass. -/
theorem nodup_pass {β ρ κ : Type} {key : ρ → κ} {rows : List ρ} {f : β → List ρ}
    {before rest : List β} {a : β}
    (h : ((rows ++ (before ++ a :: rest).flatMap f).map key).Nodup) :
    ((rows ++ before.flatMap f ++ f a).map key).Nodup := by
  have hsplit : rows ++ (before ++ a :: rest).flatMap f
      = (rows ++ before.flatMap f ++ f a) ++ rest.flatMap f := by simp
  rw [hsplit] at h
  exact h.sublist ((List.sublist_append_left _ _).map key)

theorem Storable.run_persistRoles (h : Storable owner context)
    (hcontext : c.tables.hasContext owner.value = true)
    (hpermissions : ((withRoles owner context.rolePolicy.roles c.tables).rolePermissions.map
      rolePermissionsTable.key).Nodup)
    (htransmit : ((withRoles owner context.rolePolicy.roles c.tables).roleTransmitScopes.map
      roleTransmitScopeTable.key).Nodup)
    (hreceive : ((withRoles owner context.rolePolicy.roles c.tables).roleReceiveScopes.map
      roleReceiveScopeTable.key).Nodup) :
    (persistRoles owner context.rolePolicy.roles).run.run c
      = (.ok (), { c with tables := withRoles owner context.rolePolicy.roles c.tables }) := by
  let after : List RolePermissions → Connection := fun roles =>
    { c with tables := withRoles owner roles c.tables }
  have hstart : after [] = c := by simp [after, withRoles]
  have hloop : (persistRoles owner context.rolePolicy.roles).run.run (after [])
      = (.ok (), after context.rolePolicy.roles) := by
    refine run_forM_ok after fun before role rest hsplit => ?_
    have hrole : Kept role.roleId.value :=
      h.role_kept (hsplit ▸ List.mem_append_right _ List.mem_cons_self)
    simp only [withRoles, hsplit] at hpermissions htransmit hreceive
    have hinsert : rolePermissionsTable.insert (rolePermissionsRow owner role) (after before).tables
        = .ok { (after before).tables with
          rolePermissions := (after before).tables.rolePermissions
            ++ [rolePermissionsRow owner role] } :=
      Table.insert_ok hrole.positive (key_not_mem hpermissions) hcontext
    refine (run_bind_ok (run_bindTexts ?_)).trans ?_
    · simp only [List.forall_mem_cons, List.not_mem_nil, false_implies, implies_true, and_true]
      exact ⟨h.owner_kept.length, hrole.length⟩
    refine (run_bind_ok (run_insert_ok hinsert)).trans ?_
    have hparent : (rolePermissionsTable.withRows ((after before).tables.rolePermissions
        ++ [rolePermissionsRow owner role]) (after before).tables).hasRolePermissions owner.value
          role.roleId.value = true :=
      List.any_eq_true.2 ⟨rolePermissionsRow owner role, List.mem_append_right _
        List.mem_cons_self, by simp [rolePermissionsRow]⟩
    refine (run_bind_ok (run_persistRoleScopes roleTransmitScopeTable_lawful (fun _ => rfl)
      (fun _ _ => rfl) h.owner_kept hrole hparent ?_)).trans ?_
    · exact nodup_pass htransmit
    refine (run_persistRoleScopes roleReceiveScopeTable_lawful (fun _ => rfl) (fun _ _ => rfl)
      h.owner_kept hrole hparent ?_).trans ?_
    · exact nodup_pass hreceive
    simp [after, withRoles, roleTransmitScopeTable, roleReceiveScopeTable, roleScopeTable]
  rw [hstart] at hloop
  exact hloop

/-- The tables after the loop over the memberships has come so far. -/
def withMemberships (owner : PlayerId) (memberships : List VoiceMembership)
    (t : MembershipTables) : MembershipTables :=
  { t with
    memberships := t.memberships ++ memberships.map (membershipRow owner)
    roleAssignments := t.roleAssignments ++ memberships.flatMap fun m =>
      m.roleIds.map (roleAssignmentRow owner m.playerId) }

theorem membershipTable_check {m : VoiceMembership} (h : Kept m.playerId.value) :
    membershipTable.check (membershipRow owner m) = true := by
  have hboolean : ∀ b : Bool, (booleanToInteger b = 0 || booleanToInteger b = 1) = true := by
    decide
  have hban : 0 ≤ voiceBanToInteger m.voiceBanStatus ∧ voiceBanToInteger m.voiceBanStatus ≤ 2 := by
    cases m.voiceBanStatus <;> decide
  simp only [membershipTable, membershipRow, h.positive, hboolean, hban, decide_true, Bool.and_self]

theorem run_persistRoleAssignments {playerId : PlayerId} {roleIds : List RoleId}
    (howner : Kept owner.value) (hplayer : Kept playerId.value)
    (hroles : ∀ r ∈ roleIds, Kept r.value)
    (hmembership : c.tables.hasMembership owner.value playerId.value = true)
    (hkeys : ((c.tables.roleAssignments ++ roleIds.map (roleAssignmentRow owner playerId)).map
      roleAssignmentTable.key).Nodup) :
    (persistRoleAssignments owner playerId roleIds).run.run c
      = (.ok (), { c with tables := { c.tables with
          roleAssignments := c.tables.roleAssignments
            ++ roleIds.map (roleAssignmentRow owner playerId) } }) := by
  refine run_insertEach roleAssignmentTable_lawful (fun roleId hr c tables hinsert => ?_)
    (fun roleId hr => (hroles roleId hr).positive) (fun _ _ => hmembership) hkeys
  refine (run_bind_ok (run_bindTexts ?_)).trans (run_insert_ok hinsert)
  simp only [List.forall_mem_cons, List.not_mem_nil, false_implies, implies_true, and_true]
  exact ⟨howner.length, hplayer.length, (hroles roleId hr).length⟩

theorem Storable.run_persistMemberships (h : Storable owner context)
    (hgroups : ∀ group ∈ context.snapshot.hierarchy.groups, groupRow owner group ∈ c.tables.groups)
    (hspecializations : ∀ specialization ∈ context.snapshot.hierarchy.specializations,
      specializationRow owner specialization ∈ c.tables.specializations)
    (hteams : ∀ team ∈ context.snapshot.hierarchy.teams, teamRow owner team ∈ c.tables.teams)
    (hmemberships : ((withMemberships owner context.snapshot.memberships
      c.tables).memberships.map membershipTable.key).Nodup)
    (hassignments : ((withMemberships owner context.snapshot.memberships
      c.tables).roleAssignments.map roleAssignmentTable.key).Nodup) :
    (persistMemberships owner context.snapshot.memberships).run.run c
      = (.ok (), { c with
          tables := withMemberships owner context.snapshot.memberships c.tables }) := by
  let after : List VoiceMembership → Connection := fun memberships =>
    { c with tables := withMemberships owner memberships c.tables }
  have hstart : after [] = c := by simp [after, withMemberships]
  have hloop : (persistMemberships owner context.snapshot.memberships).run.run (after [])
      = (.ok (), after context.snapshot.memberships) := by
    refine run_forM_ok after fun before m rest hsplit => ?_
    have hm : m ∈ context.snapshot.memberships :=
      hsplit ▸ List.mem_append_right _ List.mem_cons_self
    have hplayer := h.player_kept hm
    obtain ⟨hgroup, hspecialization, hteam⟩ := path_mem hm
    simp only [withMemberships, hsplit] at hmemberships hassignments
    have hreferences : membershipTable.references (after before).tables (membershipRow owner m)
        = true := by
      refine Bool.and_eq_true_iff.2 ⟨Bool.and_eq_true_iff.2 ⟨?_, ?_⟩, ?_⟩
      · exact any_of_mem hgroups hgroup (fun _ => rfl) fun _ => rfl
      · exact any_of_mem hspecializations hspecialization (fun _ => rfl) fun _ => rfl
      · exact any_of_mem hteams hteam (fun _ => rfl) fun _ => rfl
    have hinsert : membershipTable.insert (membershipRow owner m) (after before).tables
        = .ok { (after before).tables with
          memberships := (after before).tables.memberships ++ [membershipRow owner m] } :=
      Table.insert_ok (membershipTable_check hplayer) (key_not_mem hmemberships) hreferences
    refine (run_bind_ok (run_bindTexts ?_)).trans ?_
    · simp only [List.forall_mem_cons, List.not_mem_nil, false_implies, implies_true, and_true]
      exact ⟨h.owner_kept.length, hplayer.length, (h.group_kept hgroup).length,
        (h.specialization_kept hspecialization).length, (h.team_kept hteam).length⟩
    refine (run_bind_ok (run_insert_ok hinsert)).trans ?_
    refine (run_persistRoleAssignments h.owner_kept hplayer (fun r => h.assigned_kept hm) ?_
      ?_).trans ?_
    · exact List.any_eq_true.2 ⟨membershipRow owner m, List.mem_append_right _
        List.mem_cons_self, by simp [membershipRow]⟩
    · exact nodup_pass hassignments
    simp [after, withMemberships]
  rw [hstart] at hloop
  exact hloop

/-- A context that the tables can hold is written where its owner has no rows. -/
theorem Storable.run_persistMembershipContext (h : Storable owner context)
    (hdeclared : c.tables.Declared) (hfresh : Fresh owner.value c.tables) :
    (persistMembershipContext owner context).run.run c
      = (.ok (), { c with tables := written owner context c.tables }) := by
  have hkeys := h.written_keys hdeclared hfresh
  have hcontext : contextTable.insert (contextRow owner context) c.tables
      = .ok { c.tables with contexts := c.tables.contexts ++ [contextRow owner context] } := by
    refine Table.insert_ok ?_ ?_ rfl
    · simp [contextTable, contextRow, h.owner_kept.positive, h.hierarchy_kept.positive,
        versionToText, lengthPositive_decimal]
    · have hunique := hkeys.contexts
      simp only [written, List.map_append] at hunique
      exact fun hmem => (List.nodup_append.1 hunique).2.2 _ hmem _ List.mem_cons_self rfl
  refine (run_bind_ok (run_bindTexts ?_)).trans ?_
  · simp only [List.forall_mem_cons, List.not_mem_nil, false_implies, implies_true, and_true]
    have hversion : (versionToText context.snapshot.version).length ≤ 20 :=
      Encoding.length_decimal_le (by omega) (Nat.lt_trans h.version (by decide))
    exact ⟨h.owner_kept.length, Nat.le_trans hversion (by decide), h.hierarchy_kept.length⟩
  refine (run_bind_ok (run_insert_ok hcontext)).trans ?_
  have hhas : ({ c.tables with
      contexts := c.tables.contexts ++ [contextRow owner context] } : MembershipTables).hasContext
        owner.value = true :=
    List.any_eq_true.2 ⟨contextRow owner context, List.mem_append_right _ List.mem_cons_self,
      by simp [contextRow]⟩
  refine (run_bind_ok (h.run_persistScopes ?_ ?_)).trans ?_
  · exact hhas
  · exact hkeys.scopes
  refine (run_bind_ok (h.run_persistGroups ?_ ?_)).trans ?_
  · exact hhas
  · exact hkeys.groups
  refine (run_bind_ok (h.run_persistSpecializations ?_ ?_)).trans ?_
  · exact fun group hgroup => List.mem_append_right _ (List.mem_map_of_mem hgroup)
  · exact hkeys.specializations
  refine (run_bind_ok (h.run_persistTeams ?_ ?_)).trans ?_
  · exact fun specialization hmem => List.mem_append_right _ (List.mem_map_of_mem hmem)
  · exact hkeys.teams
  refine (run_bind_ok (h.run_persistRoles ?_ ?_ ?_ ?_)).trans ?_
  · exact hhas
  · exact hkeys.rolePermissions
  · exact hkeys.roleTransmitScopes
  · exact hkeys.roleReceiveScopes
  refine (h.run_persistMemberships ?_ ?_ ?_ ?_ ?_).trans ?_
  · exact fun group hgroup => List.mem_append_right _ (List.mem_map_of_mem hgroup)
  · exact fun specialization hmem => List.mem_append_right _ (List.mem_map_of_mem hmem)
  · exact fun team hmem => List.mem_append_right _ (List.mem_map_of_mem hmem)
  · exact hkeys.memberships
  · exact hkeys.roleAssignments
  · rfl

end Persist

end SqliteControlPlaneRepository

end VoxTree

import VoxTree.Proofs.PersistedContext

/-!
# What is read of an owner's rows

A context is read from the rows of its owner only (`load_restrict`), and from the rows that a
context was written in the same context is read, up to the order of its lists (`load_written`).
-/

namespace VoxTree

open Relation Results MembershipTables

namespace SqliteControlPlaneRepository

/-! ## The rows that are read -/

section Restrict

variable {keep : Bytes → Bool} {owner : PlayerId} (h : keep owner.value = true)

include h

theorem select_own {ρ κ : Type} [Ord κ] {own : ρ → Bytes} {condition : ρ → Bool} {column : ρ → κ}
    (hown : ∀ row, condition row = true → own row = owner.value) (rows : List ρ) :
    select condition column (rows.filter fun row => keep (own row))
      = select condition column rows :=
  select_filter condition column (fun row hrow => (congrArg keep (hown row hrow)).trans h) rows

theorem readAssignedRoles_restrict (t : MembershipTables) :
    readAssignedRoles (t.restrict keep) owner = readAssignedRoles t owner := by
  funext member
  unfold readAssignedRoles MembershipTables.restrict
  rw [select_own h fun row hrow => of_decide_eq_true (Bool.and_eq_true_iff.1 hrow).1]

theorem readRoleScopes_restrict (rows : List RoleScopeRow) :
    readRoleScopes owner (rows.filter fun row => keep row.ownerPlayerId)
      = readRoleScopes owner rows := by
  funext roleId
  unfold readRoleScopes
  rw [select_own h fun row hrow => of_decide_eq_true (Bool.and_eq_true_iff.1 hrow).1]

theorem readContext_restrict (t : MembershipTables) :
    readContext (t.restrict keep) owner = readContext t owner := by
  have hmembership : readMembership (t.restrict keep) owner = readMembership t owner := by
    funext row
    unfold readMembership
    rw [readAssignedRoles_restrict h]
  have hrole : readRolePermissions (t.restrict keep) owner = readRolePermissions t owner := by
    funext row
    unfold readRolePermissions MembershipTables.restrict
    rw [readRoleScopes_restrict h, readRoleScopes_restrict h]
  funext context
  unfold readContext
  rw [hmembership, hrole]
  unfold MembershipTables.restrict
  simp only [select_own h fun row hrow => of_decide_eq_true hrow]

/-- A context is read from the rows of its owner. -/
theorem load_restrict (t : MembershipTables) :
    loadMembershipContext (t.restrict keep) owner = loadMembershipContext t owner := by
  have hfind : ((t.contexts.filter fun row => keep row.ownerPlayerId).find? fun row =>
      row.ownerPlayerId = owner.value)
        = t.contexts.find? fun row => row.ownerPlayerId = owner.value := by
    rw [List.find?_filter]
    congr 1
    funext row
    by_cases hrow : row.ownerPlayerId = owner.value
    · simp [hrow, h]
    · simp [hrow]
  unfold loadMembershipContext
  rw [readContext_restrict h]
  unfold MembershipTables.restrict
  rw [hfind]

end Restrict

/-! ## Reading rows back -/

section Read

variable {α β ρ κ : Type} {read : ρ → Except PersistenceException β} {R : α → β → Prop}

theorem mapM_of_forall₂ {q : α → ρ → Prop} (hread : ∀ a r, q a r → ∃ b, read r = .ok b ∧ R a b)
    {l : List α} {rows : List ρ} (h : List.Forall₂ q l rows) :
    ∃ l', rows.mapM read = .ok l' ∧ List.Forall₂ R l l' := by
  induction h with
  | nil => exact ⟨[], rfl, .nil⟩
  | @cons a r l rows hrow _ ih =>
    obtain ⟨b, hb, hrel⟩ := hread a r hrow
    obtain ⟨l', hl', hrest⟩ := ih
    refine ⟨b :: l', ?_, .cons hrel hrest⟩
    rw [List.mapM_cons]
    exact bind_ok hb (bind_ok hl' rfl)

/-- A query whose rows are made of the entries of a list reads these entries, in some order. -/
theorem read_select [Ord κ] {condition : ρ → Bool} (column : ρ → κ) {rows : List ρ} {l : List α}
    {row : α → ρ} (hrows : rows.filter condition = l.map row)
    (hread : ∀ a ∈ l, ∃ b, read (row a) = .ok b ∧ R a b) :
    ∃ l', (select condition column rows).mapM read = .ok l' ∧ Keyed.SameUpTo R l l' := by
  have hmade : List.Forall₂ (fun a r => a ∈ l ∧ r = row a) l (l.map row) := by
    rw [List.forall₂_map_right_iff]
    exact List.forall₂_same.2 fun a ha => ⟨ha, rfl⟩
  have hselected := (Keyed.SameUpTo.of_forall₂ hmade).perm (.refl l)
    (hrows ▸ select_perm condition column rows)
  obtain ⟨m, hperm, hm⟩ := hselected
  obtain ⟨l', hl', hrel⟩ := mapM_of_forall₂ (R := R) (fun a r ⟨ha, hr⟩ => hr ▸ hread a ha) hm
  exact ⟨l', hl', m, hperm, hrel⟩

/-- Where every entry is read back as it is. -/
theorem read_select_eq [Ord κ] {condition : ρ → Bool} (column : ρ → κ)
    (read : ρ → Except PersistenceException α) {rows : List ρ} {l : List α} {row : α → ρ}
    (hrows : rows.filter condition = l.map row) (hread : ∀ a ∈ l, read (row a) = .ok a) :
    ∃ l', (select condition column rows).mapM read = .ok l' ∧ l.Perm l' := by
  obtain ⟨l', hl', m, hperm, hm⟩ := read_select (R := (· = ·)) column hrows
    fun a ha => ⟨a, hread a ha, rfl⟩
  rw [List.forall₂_eq_eq_eq] at hm
  exact ⟨l', hl', hm ▸ hperm⟩

end Read

theorem readIdentifier_value {tag : IdTag} (id : StrongId tag) :
    readIdentifier id.value = .ok id := by
  have htext : readText id.value = .ok id.value := if_neg id.nonempty
  have hmake : StrongId.make id.value = .ok id := dif_pos id.nonempty
  unfold readIdentifier
  refine bind_ok htext ?_
  rw [hmake]
  rfl

theorem readBoolean_booleanToInteger (b : Bool) : readBoolean (booleanToInteger b) = .ok b := by
  cases b <;> rfl

theorem scopeFromInteger_scopeToInteger (scope : VoiceScope) :
    scopeFromInteger (scopeToInteger scope) = .ok scope := by
  cases scope <;> rfl

theorem voiceBanFromInteger_voiceBanToInteger (status : VoiceBanStatus) :
    voiceBanFromInteger (voiceBanToInteger status) = .ok status := by
  cases status <;> rfl

theorem versionFromText_versionToText {version : ℕ} (hpos : 0 < version)
    (h : version < UInt64.size) : versionFromText (versionToText version) = .ok version := by
  obtain ⟨version, rfl⟩ := Nat.exists_eq_succ_of_ne_zero hpos.ne'
  unfold versionFromText versionToText
  rw [JsonParser.fromChars_decimal h]

theorem readScope_scopeRow (owner : PlayerId) {scope : ScopeDefinition}
    (hname : scope.displayName ≠ [])
    (hlimit : ∀ limit ∈ scope.maxConcurrentSpeakers, limit < 2 ^ 63)
    (hpriority : -(2 ^ 31) ≤ scope.priority ∧ scope.priority < 2 ^ 31) :
    readScope (scopeRow owner scope) = .ok scope := by
  have hint : readInt scope.priority = scope.priority := by
    unfold readInt
    rw [Int.bmod_eq_of_le] <;> omega
  have hspeakers : readSpeakerLimit (scope.maxConcurrentSpeakers.map Int.ofNat)
      = .ok scope.maxConcurrentSpeakers := by
    rcases hsome : scope.maxConcurrentSpeakers with _ | limit
    · rfl
    · have hbound := hlimit limit hsome
      refine if_neg ?_
      simp only [UInt64.size, Int.ofNat_eq_natCast]
      omega
  have htext : readText scope.displayName = .ok scope.displayName := if_neg hname
  unfold readScope scopeRow
  refine bind_ok hspeakers (bind_ok (scopeFromInteger_scopeToInteger _) (bind_ok htext ?_))
  rw [hint]
  rfl

theorem readGroup_groupRow (owner : PlayerId) (group : Group) :
    readGroup (groupRow owner group) = .ok group := by
  unfold readGroup groupRow
  exact bind_ok (readIdentifier_value _) (bind_ok (readBoolean_booleanToInteger _) rfl)

theorem readSpecialization_specializationRow (owner : PlayerId) (specialization : Specialization) :
    readSpecialization (specializationRow owner specialization) = .ok specialization := by
  unfold readSpecialization specializationRow
  exact bind_ok (readIdentifier_value _) (bind_ok (readIdentifier_value _) rfl)

theorem readTeam_teamRow (owner : PlayerId) (team : Team) :
    readTeam (teamRow owner team) = .ok team := by
  unfold readTeam teamRow
  exact bind_ok (readIdentifier_value _) (bind_ok (readIdentifier_value _) rfl)

/-! ## Constructing from lists read back -/

end SqliteControlPlaneRepository

/-- The constructor accepts the lists of a hierarchy in any order. -/
theorem Hierarchy.make_perm (h : Hierarchy) {scopes : List ScopeDefinition} {groups : List Group}
    {specializations : List Specialization} {teams : List Team} (hscopes : h.scopes.Perm scopes)
    (hgroups : h.groups.Perm groups) (hspecializations : h.specializations.Perm specializations)
    (hteams : h.teams.Perm teams) :
    ∃ h', make h.id scopes groups specializations teams = .ok h' ∧ h.Same h' := by
  have hgroups' : (groups.map Group.id).Nodup := (hgroups.map _).nodup_iff.1 h.groups_unique
  have hspecializations' : (specializations.map Specialization.id).Nodup :=
    (hspecializations.map _).nodup_iff.1 h.specializations_unique
  have hteams' : (teams.map Team.id).Nodup := (hteams.map _).nodup_iff.1 h.teams_unique
  have hscopes' : checkScopes scopes = none := by
    obtain ⟨hnames, hunique⟩ := checkScopes_eq_none_iff.1 h.scopes_valid
    exact checkScopes_eq_none_iff.2 ⟨fun definition hmem => hnames _ (hscopes.mem_iff.2 hmem),
      (hscopes.map _).nodup_iff.1 hunique⟩
  have howned : ∀ s ∈ specializations, s.groupId ∈ groups.map Group.id := fun s hs =>
    (hgroups.map _).mem_iff.1 (h.specializations_owned s (hspecializations.mem_iff.2 hs))
  have howned' : ∀ t ∈ teams, t.specializationId ∈ specializations.map Specialization.id :=
    fun t ht => (hspecializations.map _).mem_iff.1 (h.teams_owned t (hteams.mem_iff.2 ht))
  refine ⟨⟨h.id, scopes, groups, specializations, teams, hgroups', hspecializations', hteams',
    hscopes', howned, howned'⟩, ?_, rfl, hscopes, hgroups, hspecializations, hteams⟩
  unfold make
  rw [dif_pos hgroups', dif_pos hspecializations', dif_pos hteams']
  split
  · rename_i e he
    rw [hscopes'] at he
    cases he
  · rw [dif_pos howned, dif_pos howned']

/-- The constructor accepts the memberships of a snapshot, their roles in any order. -/
theorem MembershipSnapshot.make_of_same (s : MembershipSnapshot) {hierarchy : Hierarchy}
    {memberships : List VoiceMembership} (hh : s.hierarchy.Same hierarchy)
    (hm : Keyed.SameUpTo VoiceMembership.Same s.memberships memberships) :
    ∃ s', make s.version hierarchy memberships = .ok s' ∧ s.Same s' := by
  have hown : ∀ e, make s.version s.hierarchy s.memberships ≠ .error e := by
    intro e he
    unfold make at he
    rw [dif_pos s.version_pos, dif_pos s.players_unique, dif_pos s.paths_valid] at he
    cases he
  have hmake : (∃ e, make s.version s.hierarchy s.memberships = .error e
        ∧ make s.version hierarchy memberships = .error e)
      ∨ ∃ s₁ s', make s.version s.hierarchy s.memberships = .ok s₁
        ∧ make s.version hierarchy memberships = .ok s' ∧ s₁.Same s' := make_same hh hm
  rcases hmake with ⟨e, he, -⟩ | ⟨-, s', -, hs', -⟩
  · exact absurd he (hown e)
  · obtain ⟨hversion, rfl, hperm⟩ := make_ok hs'
    exact ⟨s', hs', hversion.symm, hh, hm.perm (.refl _) hperm.symm⟩

/-- The constructor accepts the roles of a policy, their scopes in any order. -/
theorem RolePolicy.make_of_same (policy : RolePolicy) {roles : List RolePermissions}
    (h : Keyed.SameUpTo RolePermissions.Same policy.roles roles) :
    ∃ policy', make roles = .ok policy' ∧ policy.Same policy' := by
  have hunique : (roles.map RolePermissions.roleId).Nodup :=
    (h.map_perm fun _ _ hs => hs.role).nodup_iff.1 policy.roles_unique
  exact ⟨⟨roles, hunique⟩, dif_pos hunique, h⟩

namespace SqliteControlPlaneRepository

/-! ## Reading a context back -/

section Written

variable {owner : PlayerId} {context : AuthoritativeMembershipContext}

/-- The rows of an entry among the rows of all entries. -/
theorem filter_own {α β ρ : Type} {tag : IdTag} {l : List α} {id : α → StrongId tag}
    (entries : α → List β) (row : StrongId tag → β → ρ) (own column : ρ → Bytes)
    (hid : (l.map id).Nodup) (hown : ∀ k b, own (row k b) = owner.value)
    (hcolumn : ∀ k b, column (row k b) = k.value) {a : α} (ha : a ∈ l) :
    (l.flatMap fun a => (entries a).map (row (id a))).filter
        (fun r => own r = owner.value && column r = (id a).value)
      = (entries a).map (row (id a)) := by
  have hrows : ∀ r ∈ l.flatMap fun a => (entries a).map (row (id a)), own r = owner.value := by
    simp only [List.mem_flatMap, List.mem_map]
    rintro r ⟨b, -, x, -, rfl⟩
    exact hown _ _
  have hkeys : (l.map fun a => (id a).value).Nodup := nodup_keys hid StrongId.value_injective
  have hkey : ∀ a ∈ l, ∀ r ∈ (entries a).map (row (id a)), column r = (id a).value := by
    intro a _ r hr
    obtain ⟨x, -, rfl⟩ := List.mem_map.1 hr
    exact hcolumn _ _
  rw [← Keyed.filter_flatMap hkeys hkey ha]
  refine List.filter_congr fun r hr => ?_
  simp [hrows r hr]

/-- The texts of a query are short enough. -/
theorem bindTexts_ok {texts : List Bytes} (h : ∀ text ∈ texts, Kept text) :
    texts.forM bindText = .ok () :=
  forM_ok fun text htext => if_neg (Nat.not_lt.2 (h text htext).length)

theorem readAssignedRoles_written (howner : Kept owner.value) {m : VoiceMembership}
    (hm : m ∈ context.snapshot.memberships) (hplayer : Kept m.playerId.value) :
    ∃ roleIds, readAssignedRoles (written owner context {}) owner m.playerId = .ok roleIds
      ∧ m.roleIds.Perm roleIds := by
  obtain ⟨roleIds, hread, hperm⟩ := read_select_eq RoleAssignmentRow.roleId
    (fun row => readIdentifier row.roleId)
    (filter_own VoiceMembership.roleIds (roleAssignmentRow owner) RoleAssignmentRow.ownerPlayerId
      RoleAssignmentRow.playerId context.snapshot.players_unique (fun _ _ => rfl)
      (fun _ _ => rfl) hm)
    fun roleId _ => readIdentifier_value roleId
  exact ⟨roleIds, bind_ok (bindTexts_ok (by simp [howner, hplayer])) hread, hperm⟩

theorem readRoleScopes_written (howner : Kept owner.value) {role : RolePermissions}
    (hmem : role ∈ context.rolePolicy.roles) (hrole : Kept role.roleId.value)
    (scopes : RolePermissions → List VoiceScope) :
    ∃ scopes', readRoleScopes owner (context.rolePolicy.roles.flatMap fun role =>
        (scopes role).map (roleScopeRow owner role.roleId)) role.roleId = .ok scopes'
      ∧ (scopes role).Perm scopes' := by
  obtain ⟨scopes', hread, hperm⟩ := read_select_eq RoleScopeRow.scope
    (fun row => scopeFromInteger row.scope)
    (filter_own scopes (roleScopeRow owner) RoleScopeRow.ownerPlayerId RoleScopeRow.roleId
      context.rolePolicy.roles_unique (fun _ _ => rfl) (fun _ _ => rfl) hmem)
    fun scope _ => scopeFromInteger_scopeToInteger scope
  exact ⟨scopes', bind_ok (bindTexts_ok (by simp [howner, hrole])) hread, hperm⟩

/-- The rows of an owner among rows that are all his. -/
theorem filter_all {β ρ : Type} (own : ρ → Bytes) {row : β → ρ} {l : List β}
    (hown : ∀ a, own (row a) = owner.value) :
    ((l.map row).filter fun r => own r = owner.value) = l.map row :=
  List.filter_eq_self.2 (List.forall_mem_map.2 fun a _ => decide_eq_true (hown a))

namespace Storable

variable (h : Storable owner context)

include h

theorem readScope_written : ∀ scope ∈ context.snapshot.hierarchy.scopes,
    readScope (scopeRow owner scope) = .ok scope := by
  intro scope hscope
  have hvalid := Hierarchy.checkScopes_eq_none_iff.1 context.snapshot.hierarchy.scopes_valid
  exact readScope_scopeRow owner (hvalid.1 scope hscope) (h.limits scope hscope)
    (h.priorities scope hscope)

theorem readMembership_written {m : VoiceMembership} (hm : m ∈ context.snapshot.memberships) :
    ∃ m', readMembership (written owner context {}) owner (membershipRow owner m) = .ok m'
      ∧ m.Same m' := by
  obtain ⟨roleIds, hroles, hperm⟩ := readAssignedRoles_written h.owner_kept hm (h.player_kept hm)
  refine ⟨{ m with roleIds }, ?_, hperm, rfl⟩
  unfold readMembership membershipRow
  exact bind_ok (readIdentifier_value _) <| bind_ok (readIdentifier_value _) <|
    bind_ok (readIdentifier_value _) <| bind_ok (readIdentifier_value _) <| bind_ok hroles <|
    bind_ok (readBoolean_booleanToInteger _) <| bind_ok (readBoolean_booleanToInteger _) <|
    bind_ok (readBoolean_booleanToInteger _) <|
    bind_ok (voiceBanFromInteger_voiceBanToInteger _) rfl

theorem readRolePermissions_written {role : RolePermissions}
    (hmem : role ∈ context.rolePolicy.roles) :
    ∃ role', readRolePermissions (written owner context {}) owner (rolePermissionsRow owner role)
      = .ok role' ∧ role.Same role' := by
  have hkept := h.role_kept hmem
  obtain ⟨transmitScopes, htransmit, htransmit'⟩ :=
    readRoleScopes_written h.owner_kept hmem hkept RolePermissions.transmitScopes
  obtain ⟨receiveScopes, hreceive, hreceive'⟩ :=
    readRoleScopes_written h.owner_kept hmem hkept RolePermissions.receiveScopes
  refine ⟨⟨role.roleId, transmitScopes, receiveScopes⟩, ?_, rfl, htransmit', hreceive'⟩
  unfold readRolePermissions rolePermissionsRow
  exact bind_ok (readIdentifier_value _) (bind_ok htransmit (bind_ok hreceive rfl))

/-- What is read of the rows of a context is the same context. -/
theorem readContext_written :
    ∃ context', readContext (written owner context {}) owner (contextRow owner context)
      = .ok context' ∧ context.Same context' := by
  have hversion : versionFromText (versionToText context.snapshot.version)
      = .ok context.snapshot.version :=
    versionFromText_versionToText context.snapshot.version_pos h.version
  have htext : readText (versionToText context.snapshot.version)
      = .ok (versionToText context.snapshot.version) :=
    if_neg (Encoding.decimal_ne_nil _)
  obtain ⟨scopes, hscopes, hscopes'⟩ := read_select_eq ScopeRow.scope readScope
    (filter_all ScopeRow.ownerPlayerId fun _ => rfl) h.readScope_written
  obtain ⟨groups, hgroups, hgroups'⟩ := read_select_eq GroupRow.groupId readGroup
    (filter_all GroupRow.ownerPlayerId fun _ => rfl) fun group _ => readGroup_groupRow owner group
  obtain ⟨specializations, hspecializations, hspecializations'⟩ :=
    read_select_eq SpecializationRow.specializationId readSpecialization
      (filter_all SpecializationRow.ownerPlayerId fun _ => rfl)
      fun specialization _ => readSpecialization_specializationRow owner specialization
  obtain ⟨teams, hteams, hteams'⟩ := read_select_eq TeamRow.teamId readTeam
    (filter_all TeamRow.ownerPlayerId fun _ => rfl) fun team _ => readTeam_teamRow owner team
  obtain ⟨memberships, hmemberships, hmemberships'⟩ := read_select MembershipRow.playerId
    (filter_all MembershipRow.ownerPlayerId fun _ => rfl) fun m hm => h.readMembership_written hm
  obtain ⟨roles, hroles, hroles'⟩ := read_select RolePermissionsRow.roleId
    (filter_all RolePermissionsRow.ownerPlayerId fun _ => rfl)
    fun role hrole => h.readRolePermissions_written hrole
  obtain ⟨hierarchy, hhierarchy, hhierarchy'⟩ := context.snapshot.hierarchy.make_perm hscopes'
    hgroups' hspecializations' hteams'
  obtain ⟨snapshot, hsnapshot, hsnapshot'⟩ :=
    context.snapshot.make_of_same hhierarchy' hmemberships'
  obtain ⟨rolePolicy, hpolicy, hpolicy'⟩ := context.rolePolicy.make_of_same hroles'
  refine ⟨⟨snapshot, rolePolicy⟩, ?_, hsnapshot', hpolicy'⟩
  unfold readContext contextRow
  exact bind_ok htext <| bind_ok hversion <| bind_ok (readIdentifier_value _) <|
    bind_ok hscopes <| bind_ok hgroups <| bind_ok hspecializations <| bind_ok hteams <|
    bind_ok hmemberships <| bind_ok hroles <| bind_ok (mapError_ok hhierarchy) <|
    bind_ok (mapError_ok hsnapshot) <| bind_ok (mapError_ok hpolicy) rfl

/-- And so what is loaded is the same context. -/
theorem load_written : ∃ context',
    loadMembershipContext (written owner context {}) owner = .ok (some context')
      ∧ context.Same context' := by
  obtain ⟨context', hread, hsame⟩ := h.readContext_written
  have hbind : bindText owner.value = .ok () := if_neg (Nat.not_lt.2 h.owner_kept.length)
  have hfind : (written owner context {}).contexts.find?
      (fun row => row.ownerPlayerId = owner.value) = some (contextRow owner context) := by
    simp [written, contextRow]
  refine ⟨context', ?_, hsame⟩
  unfold loadMembershipContext
  refine bind_ok hbind ?_
  rw [hfind]
  show some <$> readContext (written owner context {}) owner (contextRow owner context) = _
  rw [hread]
  rfl

end Storable

/-! ## The rows of one owner -/

theorem filter_append_own {ρ : Type} (own : ρ → Bytes) {keep : Bytes → Bool} {o : Bytes}
    {rows new : List ρ} (hown : ∀ r ∈ new, own r = o) :
    ((rows ++ new).filter fun r => keep (own r))
      = (rows.filter fun r => keep (own r)) ++ if keep o then new else [] := by
  rw [List.filter_append]
  congr 1
  split_ifs with hkeep
  · exact List.filter_eq_self.2 fun r hr => (congrArg keep (hown r hr)).trans hkeep
  · exact List.filter_eq_nil_iff.2 fun r hr => hown r hr ▸ hkeep

/-- What is written for an owner are rows of his. -/
theorem restrict_written (keep : Bytes → Bool) (t : MembershipTables) :
    (written owner context t).restrict keep
      = if keep owner.value then written owner context (t.restrict keep) else t.restrict keep := by
  have hmap : ∀ {β ρ : Type} (own : ρ → Bytes) (row : β → ρ) (l : List β) (rows : List ρ),
      (∀ a, own (row a) = owner.value) → ((rows ++ l.map row).filter fun r => keep (own r))
        = (rows.filter fun r => keep (own r)) ++ if keep owner.value then l.map row else [] :=
    fun own _ _ _ h => filter_append_own own (List.forall_mem_map.2 fun a _ => h a)
  have hcontext : ∀ r ∈ [contextRow owner context], r.ownerPlayerId = owner.value :=
    List.forall_mem_singleton.2 rfl
  have hassignments : ∀ r ∈ context.snapshot.memberships.flatMap (fun m =>
      m.roleIds.map (roleAssignmentRow owner m.playerId)), r.ownerPlayerId = owner.value :=
    List.forall_mem_flatMap.2 fun _ _ => List.forall_mem_map.2 fun _ _ => rfl
  have hscopes : ∀ scopes : RolePermissions → List VoiceScope,
      ∀ r ∈ context.rolePolicy.roles.flatMap (fun role =>
        (scopes role).map (roleScopeRow owner role.roleId)), r.ownerPlayerId = owner.value :=
    fun _ => List.forall_mem_flatMap.2 fun _ _ => List.forall_mem_map.2 fun _ _ => rfl
  unfold MembershipTables.restrict written
  dsimp only
  rw [filter_append_own ContextRow.ownerPlayerId hcontext,
    hmap ScopeRow.ownerPlayerId (scopeRow owner) _ _ fun _ => rfl,
    hmap GroupRow.ownerPlayerId (groupRow owner) _ _ fun _ => rfl,
    hmap SpecializationRow.ownerPlayerId (specializationRow owner) _ _ fun _ => rfl,
    hmap TeamRow.ownerPlayerId (teamRow owner) _ _ fun _ => rfl,
    hmap MembershipRow.ownerPlayerId (membershipRow owner) _ _ fun _ => rfl,
    filter_append_own RoleAssignmentRow.ownerPlayerId hassignments,
    hmap RolePermissionsRow.ownerPlayerId (rolePermissionsRow owner) _ _ fun _ => rfl,
    filter_append_own RoleScopeRow.ownerPlayerId (hscopes RolePermissions.transmitScopes),
    filter_append_own RoleScopeRow.ownerPlayerId (hscopes RolePermissions.receiveScopes)]
  split_ifs <;> simp

/-- What an owner without rows has after his context was written. -/
theorem Storable.load_own (h : Storable owner context) {t : MembershipTables}
    (hfresh : Fresh owner.value t) : ∃ context',
    loadMembershipContext (written owner context t) owner = .ok (some context')
      ∧ context.Same context' := by
  let keep : Bytes → Bool := fun o => o = owner.value
  have hkeep : keep owner.value = true := decide_eq_true rfl
  have hrows : (written owner context t).restrict keep = written owner context {} := by
    rw [restrict_written, if_pos hkeep]
    exact congrArg (written owner context) hfresh
  rw [← load_restrict hkeep, hrows]
  exact h.load_written

/-- What the others have does not change. -/
theorem load_other {other : PlayerId} (hne : other ≠ owner) (t : MembershipTables) :
    loadMembershipContext (written owner context t) other = loadMembershipContext t other := by
  let keep : Bytes → Bool := fun o => o ≠ owner.value
  have hkeep : keep other.value = true :=
    decide_eq_true fun heq => hne (StrongId.value_injective heq)
  have hdrop : ¬keep owner.value = true := fun h => of_decide_eq_true h rfl
  have hrows : (written owner context t).restrict keep = t.restrict keep := by
    rw [restrict_written, if_neg hdrop]
  rw [← load_restrict hkeep, hrows, load_restrict hkeep]

end Written

end SqliteControlPlaneRepository

end VoxTree

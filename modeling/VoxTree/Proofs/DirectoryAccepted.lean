import VoxTree.Proofs.DirectoryNodes
import VoxTree.Proofs.DirectoryWire

/-!
# When the client takes the directory it is served

Every directory that the service makes hangs together, so the client takes it where it can name the
nodes and tell them apart: a hierarchy may be built without names, and with a team that has the
identifier of its group (`directory_accepted_iff`).
-/

namespace VoxTree

open Client DirectoryApplicationService

/-! ## What the service was given -/

/-- The versions of a call are of the type the source gives them. -/
def DirectoryOp.Words : DirectoryOp → Prop
  | .upsertProfile profile => profile.version < UInt64.size
  | .replacePublicRoles catalogVersion _ => catalogVersion < UInt64.size
  | .directoryFor memberships actor =>
    ∀ context ∈ memberships actor, context.snapshot.version < UInt64.size
  | .presenceFor _ _ _ _ _ => True

namespace DirectoryApplicationService

/-- What `upsertProfile` and `replacePublicRoles` let in, and the versions made of it. -/
structure Supplied (d : DirectoryApplicationService) : Prop where
  profiles : ∀ (p : PlayerId) (profile : DirectoryProfile), d.profiles[p]? = some profile →
    profile.displayName ≠ [] ∧ profile.version < UInt64.size
  roles : ∀ (r : RoleId) (role : PublicDirectoryRole), d.publicRoles[r]? = some role →
    role.roleId = r ∧ role.displayName ≠ [] ∧ role.version < UInt64.size
  versions : ∀ (g : GroupId) (versioned : VersionedDirectory),
    d.directoryVersions[g]? = some versioned →
      1 ≤ versioned.version ∧ versioned.version < UInt64.size

variable {d d' : DirectoryApplicationService}

theorem supplied_initial : Supplied {} where
  profiles p profile h := by simp at h
  roles r role h := by simp at h
  versions g versioned h := by simp at h

theorem supplied_upsertProfile (h : d.Supplied) {profile : DirectoryProfile}
    (hversion : profile.version < UInt64.size) : (d.upsertProfile profile).2.Supplied := by
  unfold upsertProfile
  split_ifs with hinvalid
  · exact h
  · exact h
  · refine ⟨fun p other hother => ?_, h.roles, h.versions⟩
    rw [Std.ExtTreeMap.getElem?_insert] at hother
    split_ifs at hother
    · obtain rfl := Option.some.inj hother
      exact ⟨fun hname => hinvalid (.inl hname), hversion⟩
    · exact h.profiles p other hother

/-- Every role that is collected is one of the catalog's that the loop let through. -/
theorem collectRoles_ok {catalogVersion : ℕ} : ∀ {roles : List PublicDirectoryRole}
    {collected replacement : Std.ExtTreeMap RoleId PublicDirectoryRole},
    collectRoles catalogVersion collected roles = .ok replacement →
      (∀ (r : RoleId) (role : PublicDirectoryRole), collected[r]? = some role →
        role.roleId = r ∧ role.displayName ≠ [] ∧ role.version ≤ catalogVersion) →
      ∀ (r : RoleId) (role : PublicDirectoryRole), replacement[r]? = some role →
        role.roleId = r ∧ role.displayName ≠ [] ∧ role.version ≤ catalogVersion
  | [], _, _, h, hcollected => by
    cases h
    exact hcollected
  | listed :: roles, collected, _, h, hcollected => by
    unfold collectRoles at h
    split_ifs at h with hinvalid hduplicate
    refine collectRoles_ok h fun r role hrole => ?_
    rw [Std.ExtTreeMap.getElem?_insert] at hrole
    split_ifs at hrole with hr
    · obtain rfl := Option.some.inj hrole
      simp only [not_or, not_lt] at hinvalid
      exact ⟨Std.LawfulEqOrd.eq_of_compare hr, hinvalid.1, hinvalid.2.2⟩
    · exact hcollected r role hrole

theorem supplied_replacePublicRoles (h : d.Supplied) {catalogVersion : ℕ}
    (hversion : catalogVersion < UInt64.size) (roles : List PublicDirectoryRole) :
    (d.replacePublicRoles catalogVersion roles).2.Supplied := by
  unfold replacePublicRoles
  rcases hcollect : collectRoles catalogVersion ∅ roles with e | replacement
  · split_ifs <;> exact h
  · split_ifs
    · exact h
    · exact h
    · refine ⟨h.profiles, fun r role hrole => ?_, h.versions⟩
      obtain ⟨hid, hname, hle⟩ := collectRoles_ok hcollect (fun r role hnone => by simp at hnone)
        r role hrole
      exact ⟨hid, hname, Nat.lt_of_le_of_lt hle hversion⟩

/-- The sources raise a version to one of theirs. -/
theorem raiseSourceVersion_lt (h : d.Supplied) {sourceVersion : ℕ}
    (hversion : sourceVersion < UInt64.size) (m : VoiceMembership) :
    d.raiseSourceVersion sourceVersion m < UInt64.size := by
  have hrole : ∀ r : RoleId, (d.publicRoles[r]?).elim 0 PublicDirectoryRole.version
      < UInt64.size := by
    intro r
    rcases hfound : d.publicRoles[r]? with _ | role
    · decide
    · exact (h.roles r role hfound).2.2
  have hprofile : (d.profiles[m.playerId]?).elim 0 DirectoryProfile.version < UInt64.size := by
    rcases hfound : d.profiles[m.playerId]? with _ | profile
    · decide
    · exact (h.profiles m.playerId profile hfound).2
  unfold raiseSourceVersion
  refine List.foldlRecOn (d.publicRoleIds m) _ (motive := (· < UInt64.size)) ?_ fun v hv r _ => ?_
  · exact Nat.max_lt.2 ⟨hversion, hprofile⟩
  · exact Nat.max_lt.2 ⟨hv, hrole r⟩

theorem Supplied.record (h : d.Supplied) {version : ℕ} (hpos : 1 ≤ version)
    (hlt : version < UInt64.size) (g : GroupId) (fingerprint : Bytes) :
    Supplied
      { d with directoryVersions := d.directoryVersions.insert g ⟨version, fingerprint⟩ } := by
  refine ⟨h.profiles, h.roles, fun g' versioned hg => ?_⟩
  rw [Std.ExtTreeMap.getElem?_insert] at hg
  split_ifs at hg
  · obtain rfl := Option.some.inj hg
    exact ⟨hpos, hlt⟩
  · exact h.versions g' versioned hg

theorem versionFor_supplied (h : d.Supplied) {g : GroupId} {sourceVersion : ℕ}
    (hsource : sourceVersion < UInt64.size) (fingerprint : Bytes) :
    (d.versionFor g sourceVersion fingerprint).2.Supplied
      ∧ ∀ version ∈ (d.versionFor g sourceVersion fingerprint).1,
        1 ≤ version ∧ version < UInt64.size := by
  unfold versionFor
  rcases hrecord : d.directoryVersions[g]? with _ | versioned
  · have hlt : max 1 sourceVersion < UInt64.size := Nat.max_lt.2 ⟨by decide, hsource⟩
    refine ⟨h.record (Nat.le_max_left _ _) hlt g fingerprint, ?_⟩
    simpa using hlt
  · obtain ⟨hpos, hlt⟩ := h.versions g versioned hrecord
    dsimp only
    split_ifs with hsame hexhausted
    · exact ⟨h, by simpa using ⟨hpos, hlt⟩⟩
    · exact ⟨h, by simp⟩
    · have hnext : max (versioned.version + 1) sourceVersion < UInt64.size :=
        Nat.max_lt.2 ⟨Nat.not_le.1 hexhausted, hsource⟩
      have hfirst : 1 ≤ max (versioned.version + 1) sourceVersion := by omega
      refine ⟨h.record hfirst hnext g fingerprint, ?_⟩
      simp only [Option.mem_def, Option.some.injEq, forall_eq']
      exact ⟨hfirst, hnext⟩

theorem makeDirectory_supplied (h : d.Supplied) {context : AuthoritativeMembershipContext}
    (hversion : context.snapshot.version < UInt64.size) (membership : VoiceMembership) :
    (d.makeDirectory context membership).2.Supplied := by
  have hsource : (visibleMemberships context.snapshot membership.groupId).foldl
      d.raiseSourceVersion context.snapshot.version < UInt64.size :=
    List.foldlRecOn _ _ (motive := (· < UInt64.size)) hversion fun _ hv m _ =>
      raiseSourceVersion_lt h hv m
  unfold makeDirectory
  dsimp only
  split
  · exact h
  · split_ifs
    · exact h
    · exact h
    · rename_i group _ _ _
      have hsupplied := versionFor_supplied h (g := membership.groupId) hsource
        (d.directoryContent context.snapshot.hierarchy group
          (visibleMemberships context.snapshot membership.groupId)).fingerprint
      split <;> rename_i hversioned <;> rw [hversioned] at hsupplied <;> exact hsupplied.1

/-- Every call leaves the service supplied. -/
theorem Supplied.call (h : d.Supplied) {op : DirectoryOp} (hop : op.Words) :
    (op.call d).Supplied := by
  cases op with
  | upsertProfile profile => exact supplied_upsertProfile h hop
  | replacePublicRoles catalogVersion roles => exact supplied_replacePublicRoles h hop roles
  | directoryFor memberships actor =>
    show (d.directoryFor memberships actor).2.Supplied
    unfold directoryFor
    rcases hcontext : currentContextFor memberships actor with _ | ⟨context, membership⟩
    · exact h
    · exact makeDirectory_supplied h (hop context (currentContextFor_ok hcontext).1) membership
  | presenceFor memberships connectedScopeCount actor afterVersion observedAt =>
    obtain ⟨presenceVersions, hcall⟩ := presenceFor_snd d memberships connectedScopeCount actor
      afterVersion observedAt
    show (d.presenceFor memberships connectedScopeCount actor afterVersion observedAt).2.Supplied
    rw [hcall]
    exact ⟨h.profiles, h.roles, h.versions⟩

theorem Supplied.run : ∀ {ops : List DirectoryOp} {d : DirectoryApplicationService}, d.Supplied →
    (∀ op ∈ ops, op.Words) → (ops.foldl DirectoryOp.call d).Supplied
  | [], _, h, _ => h
  | op :: ops, d, h, hops => by
    rw [List.foldl_cons]
    exact (h.call (hops op List.mem_cons_self)).run fun other hother =>
      hops other (List.mem_cons_of_mem op hother)

end DirectoryApplicationService

/-! ## What the client can tell apart and name -/

namespace Hierarchy

variable (hierarchy : Hierarchy) (group : Group)

/-- The group and what is below it have names, and identifiers that differ also across levels. -/
structure Presentable : Prop where
  groupNamed : group.displayName ≠ []
  specializationsNamed : ∀ specialization ∈ hierarchy.specializationsOf group,
    specialization.displayName ≠ []
  teamsNamed : ∀ team ∈ hierarchy.teamsOf group, team.displayName ≠ []
  distinct : (group.id.value
    :: ((hierarchy.specializationsOf group).map (fun specialization => specialization.id.value)
      ++ (hierarchy.teamsOf group).map fun team => team.id.value)).Nodup

end Hierarchy

namespace DirectoryApplicationService

theorem ListsSpecialization.placed {group : Group} {size : ℕ} {specialization : Specialization}
    {node : DirectoryNode} (h : ListsSpecialization group size specialization node) :
    Placed node := by
  obtain ⟨index, -, rfl⟩ := h
  exact ⟨specialization.id.nonempty, fun heq => group.id.nonempty (Option.some.inj heq), by simp⟩

theorem ListsTeam.placed {size : ℕ} {team : Team} {node : DirectoryNode}
    (h : ListsTeam size team node) : Placed node := by
  obtain ⟨index, -, rfl⟩ := h
  exact ⟨team.id.nonempty, fun heq => team.specializationId.nonempty (Option.some.inj heq),
    by simp⟩

section Nodes

variable {hierarchy : Hierarchy} {group : Group} {node : DirectoryNode}

theorem placed_of_mem (h : node ∈ directoryNodes hierarchy group) : Placed node := by
  rcases mem_directoryNodes h with rfl | ⟨specialization, -, hlists⟩ | ⟨team, -, hlists⟩
  · exact ⟨group.id.nonempty, by simp, by simp⟩
  · exact hlists.placed
  · exact hlists.placed

/-- What the nodes say is what the hierarchy says of what they list, whatever their indices. -/
theorem map_directoryNodes {β : Type*} (say : DirectoryNode → β)
    {ofSpecialization : Specialization → β} {ofTeam : Team → β}
    (hspecialization : ∀ (specialization : Specialization) (index : ℕ),
      say ⟨specialization.id.value, .specialization, some group.id.value,
        specialization.displayName, index⟩ = ofSpecialization specialization)
    (hteam : ∀ (team : Team) (index : ℕ), say ⟨team.id.value, .team,
      some team.specializationId.value, team.displayName, index⟩ = ofTeam team) :
    (directoryNodes hierarchy group).map say
      = say ⟨group.id.value, .group, none, group.displayName, 0⟩
        :: ((hierarchy.specializationsOf group).map ofSpecialization
          ++ (hierarchy.teamsOf group).map ofTeam) := by
  obtain ⟨specializations, teams, hnodes, hspecializations, hteams⟩ :=
    directoryNodes_lists hierarchy group
  rw [hnodes, List.map_cons, List.map_append]
  congr 2
  · refine (Keyed.map_eq_of_forall₂ hspecializations ?_).symm
    rintro specialization _ ⟨index, -, rfl⟩
    exact (hspecialization specialization index).symm
  · refine (Keyed.map_eq_of_forall₂ hteams ?_).symm
    rintro team _ ⟨index, -, rfl⟩
    exact (hteam team index).symm

/-- The nodes have names and different identifiers where what they list does. -/
theorem legible_iff :
    (∀ node ∈ directoryNodes hierarchy group, node.displayName ≠ [])
        ∧ ((directoryNodes hierarchy group).map DirectoryNode.nodeId).Nodup
      ↔ hierarchy.Presentable group := by
  have hids : (directoryNodes hierarchy group).map DirectoryNode.nodeId
      = group.id.value
        :: ((hierarchy.specializationsOf group).map (fun specialization => specialization.id.value)
          ++ (hierarchy.teamsOf group).map fun team => team.id.value) :=
    map_directoryNodes DirectoryNode.nodeId (fun _ _ => rfl) fun _ _ => rfl
  have hnames : (directoryNodes hierarchy group).map DirectoryNode.displayName
      = group.displayName
        :: ((hierarchy.specializationsOf group).map Specialization.displayName
          ++ (hierarchy.teamsOf group).map Team.displayName) :=
    map_directoryNodes DirectoryNode.displayName (fun _ _ => rfl) fun _ _ => rfl
  have hnamed : (∀ node ∈ directoryNodes hierarchy group, node.displayName ≠ [])
      ↔ ∀ name ∈ (directoryNodes hierarchy group).map DirectoryNode.displayName, name ≠ [] := by
    simp
  rw [hnamed, hnames, hids]
  simp only [List.forall_mem_cons, List.forall_mem_append, List.forall_mem_map]
  exact ⟨fun ⟨⟨hgroup, hspecialization, hteam⟩, hdistinct⟩ =>
      ⟨hgroup, hspecialization, hteam, hdistinct⟩,
    fun h => ⟨⟨h.groupNamed, h.specializationsNamed, h.teamsNamed⟩, h.distinct⟩⟩

end Nodes

variable {d d' : DirectoryApplicationService}

/-- The catalog's roles are listed under their identifiers. -/
theorem roleIds_filterMap (h : d.Supplied) : ∀ {roleIds : List RoleId},
    (∀ r ∈ roleIds, ∃ role, d.publicRoles[r]? = some role) →
      (roleIds.filterMap fun r => d.publicRoles[r]?).map PublicDirectoryRole.roleId = roleIds
  | [], _ => rfl
  | r :: roleIds, hlisted => by
    obtain ⟨role, hrole⟩ := hlisted r List.mem_cons_self
    rw [List.filterMap_cons_some hrole, List.map_cons, (h.roles r role hrole).1,
      roleIds_filterMap h fun r' hr' => hlisted r' (List.mem_cons_of_mem r hr')]

/-! ## Every directory hangs together -/

/-- A hierarchy whose nodes a `std::uint32_t` can count. -/
structure Sized (hierarchy : Hierarchy) : Prop where
  specializations : hierarchy.specializations.length ≤ UInt32.size
  teams : hierarchy.teams.length ≤ UInt32.size

variable {context : AuthoritativeMembershipContext} {membership : VoiceMembership} {group : Group}
  {a : DirectorySnapshot}

theorem directoryContent_coherent (h : d.Supplied) (hversion : 1 ≤ a.version)
    (hgroup : context.snapshot.hierarchy.findGroup membership.groupId = some group)
    (hid : a.groupId = membership.groupId)
    (hlimit : (visibleMemberships context.snapshot membership.groupId).length
      ≤ maximumDirectoryParticipants)
    (hcontent : a.content = d.directoryContent context.snapshot.hierarchy group
      (visibleMemberships context.snapshot membership.groupId)) : Coherent a := by
  have hnodes : a.nodes = directoryNodes context.snapshot.hierarchy group :=
    congrArg DirectoryContent.nodes hcontent
  have hroles : a.publicRoles = (sortedUnique ((visibleMemberships context.snapshot
      membership.groupId).flatMap d.publicRoleIds)).filterMap fun r => d.publicRoles[r]? :=
    congrArg DirectoryContent.publicRoles hcontent
  have hparticipants : a.participants
      = (visibleMemberships context.snapshot membership.groupId).map d.participant :=
    congrArg DirectoryContent.participants hcontent
  have hgroupId : group.id = membership.groupId := by simpa using List.find?_some hgroup
  have hroleIds : a.publicRoles.map PublicDirectoryRole.roleId = sortedUnique
      ((visibleMemberships context.snapshot membership.groupId).flatMap d.publicRoleIds) := by
    rw [hroles, roleIds_filterMap h]
    intro r hr
    obtain ⟨m, -, hm⟩ := List.mem_flatMap.1 (mem_sortedUnique.1 hr)
    exact mem_publicRoleIds hm
  refine
    { version := hversion
      placed := fun node hnode => placed_of_mem (hnodes ▸ hnode)
      root := ?_
      parents := fun node hnode parent hparent => ?_
      limit := ?_
      rolesNamed := fun role hrole => ?_
      rolesUnique := by rw [hroleIds]; exact nodup_sortedUnique _
      participantsNamed := fun participant hparticipant => ?_
      participantsUnique := ?_
      teams := fun participant hparticipant => ?_
      assigned := fun participant hparticipant => ?_ }
  · obtain ⟨specializations, teams, hlisted, hspecializations, hteams⟩ :=
      directoryNodes_lists context.snapshot.hierarchy group
    refine ⟨group.displayName, specializations ++ teams, ?_, fun node hnode => ?_⟩
    · rw [hnodes, hlisted, hid, hgroupId]
    · rcases List.mem_append.1 hnode with hnode | hnode
      · obtain ⟨specialization, -, index, -, rfl⟩ :=
          (Keyed.SameUpTo.of_forall₂ hspecializations).exists_left hnode
        simp
      · obtain ⟨team, -, index, -, rfl⟩ :=
          (Keyed.SameUpTo.of_forall₂ hteams).exists_left hnode
        simp
  · rw [hnodes] at hnode ⊢
    exact exists_parentNode hnode hparent
  · rw [hparticipants, List.length_map]
    exact hlimit
  · rw [hroles, List.mem_filterMap] at hrole
    obtain ⟨r, -, hr⟩ := hrole
    exact (h.roles r role hr).2.1
  · rw [hparticipants, List.mem_map] at hparticipant
    obtain ⟨m, -, rfl⟩ := hparticipant
    show (d.profiles[m.playerId]?).elim m.playerId.value DirectoryProfile.displayName ≠ []
    rcases hprofile : d.profiles[m.playerId]? with _ | profile
    · exact m.playerId.nonempty
    · exact (h.profiles m.playerId profile hprofile).1
  · rw [hparticipants, List.map_map]
    exact nodup_visibleMemberships context.snapshot membership.groupId
  · rw [hparticipants, List.mem_map] at hparticipant
    obtain ⟨m, hm, rfl⟩ := hparticipant
    obtain ⟨hmem, hown⟩ := mem_visibleMemberships.1 hm
    obtain ⟨team, hteam, hteamId⟩ := exists_team hmem (hown ▸ hgroup)
    obtain ⟨node, hnode, hnodeId, htype⟩ := exists_teamNode hteam
    exact ⟨node, hnodes ▸ hnode, hnodeId.trans (congrArg StrongId.value hteamId), htype⟩
  · rw [hparticipants, List.mem_map] at hparticipant
    obtain ⟨m, hm, rfl⟩ := hparticipant
    refine ⟨nodup_sortedUnique _, fun r hr => ?_⟩
    rw [hroleIds, mem_sortedUnique]
    exact List.mem_flatMap.2 ⟨m, hm, mem_sortedUnique.1 hr⟩

/-- What a read gives hangs together; the client can name its nodes and tell them apart where the
hierarchy is presentable. -/
theorem directoryFor_coherent (h : d.Supplied) {memberships : Memberships} {actor : PlayerId}
    (hread : d.directoryFor memberships actor = (.ok (.ok a), d'))
    (hcontext : currentContextFor memberships actor = some (context, membership))
    (hgroup : context.snapshot.hierarchy.findGroup membership.groupId = some group)
    (hversion : context.snapshot.version < UInt64.size)
    (hsized : Sized context.snapshot.hierarchy) :
    Coherent a ∧ JsonValue.Fits a
      ∧ (Legible a ↔ context.snapshot.hierarchy.Presentable group) := by
  obtain ⟨context', membership', hcontext', hmake⟩ := directoryFor_ok.1 hread
  obtain ⟨rfl, rfl⟩ := Prod.mk.inj (Option.some.inj (hcontext.symm.trans hcontext'))
  obtain ⟨group', hgroup', -, hlimit, hid, hcontent, hversioned⟩ := makeDirectory_ok.1 hmake
  obtain rfl := Option.some.inj (hgroup.symm.trans hgroup')
  have hsource : (visibleMemberships context.snapshot membership.groupId).foldl
      d.raiseSourceVersion context.snapshot.version < UInt64.size :=
    List.foldlRecOn _ _ (motive := (· < UInt64.size)) hversion fun _ hv m _ =>
      raiseSourceVersion_lt h hv m
  have hbounds := (versionFor_supplied h hsource a.content.fingerprint (g := membership.groupId)).2
  rw [hversioned] at hbounds
  obtain ⟨hpos, hlt⟩ := hbounds a.version rfl
  have hnodes : a.nodes = directoryNodes context.snapshot.hierarchy group :=
    congrArg DirectoryContent.nodes hcontent
  refine ⟨directoryContent_coherent h hpos hgroup hid hlimit hcontent,
    ⟨hlt, fun node hnode => ?_⟩, ?_⟩
  · have hindex := sortIndex_lt hsized.specializations hsized.teams (by decide) (hnodes ▸ hnode)
    exact hindex.trans (by decide)
  · rw [← legible_iff, ← hnodes]
    exact ⟨fun h => ⟨h.named, h.distinct⟩, fun h => ⟨h.1, h.2⟩⟩

end DirectoryApplicationService

/-! ## The answer at the client -/

section Answer

open Network Results

/-- The service behind the adapter, with what its providers answer. -/
def DirectoryApplicationService.answering (memberships : Memberships)
    (connectedScopeCount : PlayerId → ℕ) : DirectoryService DirectoryApplicationService where
  directoryFor actor := ExceptT.mk fun d => d.directoryFor memberships actor
  presenceFor actor afterVersion observedAt := ExceptT.mk fun d =>
    d.presenceFor memberships connectedScopeCount actor afterVersion observedAt

variable {memberships : Memberships} {connectedScopeCount : PlayerId → ℕ} {actor : PlayerId}
  {request : HttpRequest} {d d' : DirectoryApplicationService} {response : HttpResponse}

/-- An answer with status 200 carries the directory that was read. -/
theorem directoryResponse_ok
    (h : (directoryResponse request actor
      (DirectoryApplicationService.answering memberships connectedScopeCount)).run.run d
        = (.ok response, d')) (hstatus : response.statusCode = 200) :
    ∃ a, d.directoryFor memberships actor = (.ok (.ok a), d') ∧ response = directoryAnswered a := by
  have hread : ((DirectoryApplicationService.answering memberships
      connectedScopeCount).directoryFor actor).run.run d = d.directoryFor memberships actor := rfl
  unfold directoryResponse at h
  rcases hr : d.directoryFor memberships actor with ⟨e | (_ | _) | a, d''⟩ <;> rw [hr] at hread
  · rw [run_bind_error hread] at h
    cases h
  · rw [run_bind_ok hread] at h
    cases h
    cases hstatus
  · rw [run_bind_ok hread] at h
    cases h
    cases hstatus
  · rw [run_bind_ok hread] at h
    dsimp only at h
    split at h
    · cases h
      cases hstatus
    · cases h
      exact ⟨a, rfl, rfl⟩

/-- A read without a tag is answered with the directory. -/
theorem directoryResponse_of_read {a : DirectorySnapshot}
    (hread : d.directoryFor memberships actor = (.ok (.ok a), d'))
    (htag : request.header "if-none-match" = []) :
    (directoryResponse request actor
      (DirectoryApplicationService.answering memberships connectedScopeCount)).run.run d
        = (.ok (directoryAnswered a), d') := by
  have hservice : ((DirectoryApplicationService.answering memberships
      connectedScopeCount).directoryFor actor).run.run d = (.ok (.ok a), d') := hread
  have hother : ¬[] = Network.entityTag a.version := by simp [Network.entityTag]
  unfold directoryResponse
  rw [run_bind_ok hservice]
  dsimp only
  rw [htag, if_neg hother]
  rfl

/-- The answer to a read of the directory is taken, as the view of what was read, where what is
below the actor's group has names and different identifiers. -/
theorem directory_accepted_iff {ops : List DirectoryOp} (hops : ∀ op ∈ ops, op.Words)
    {context : AuthoritativeMembershipContext} {membership : VoiceMembership} {group : Group}
    (hcontext : currentContextFor memberships actor = some (context, membership))
    (hgroup : context.snapshot.hierarchy.findGroup membership.groupId = some group)
    (hversion : context.snapshot.version < UInt64.size)
    (hsized : Sized context.snapshot.hierarchy)
    (hresponse : (directoryResponse request actor
      (DirectoryApplicationService.answering memberships connectedScopeCount)).run.run
        (ops.foldl DirectoryOp.call {}) = (.ok response, d'))
    (hstatus : response.statusCode = 200) (c : ControlPlaneClient)
    (hsession : c.session.isSome) (correlationId : CorrelationId) {knownVersion : Option ℕ}
    (hknown : knownVersion ≠ some 0) :
    ∃ a, (ops.foldl DirectoryOp.call {}).directoryFor memberships actor = (.ok (.ok a), d')
      ∧ ∀ fetch, c.directory (fun _ => .ok response.complete) correlationId knownVersion = .ok fetch
        ↔ context.snapshot.hierarchy.Presentable group ∧ fetch = some a.view := by
  obtain ⟨a, hread, rfl⟩ := directoryResponse_ok hresponse hstatus
  obtain ⟨hcoherent, hfits, hlegible⟩ := directoryFor_coherent (supplied_initial.run hops) hread
    hcontext hgroup hversion hsized
  refine ⟨a, hread, fun fetch => ?_⟩
  rw [c.directory_answered correlationId hsession hfits hcoherent hknown, hlegible,
    eq_comm (a := fetch)]

namespace Sample

/-- The team has the identifier of its group. -/
def sharedIdHierarchy : Hierarchy :=
  { hierarchy with
    teams := [⟨⟨group.value, group.nonempty⟩, specialization, bytes "Team"⟩]
    teams_unique := by decide
    teams_owned := by decide }

def sharedIdContext : AuthoritativeMembershipContext where
  snapshot :=
    { version := 1
      hierarchy := sharedIdHierarchy
      memberships := [{ member alice with teamId := ⟨group.value, group.nonempty⟩ }]
      version_pos := Nat.one_pos
      players_unique := by decide
      paths_valid := by decide
      sorted := by decide }
  rolePolicy := rolePolicy

/-- A client with the session of `alice`. -/
def signedIn : ControlPlaneClient where
  deviceId := device
  session := some ⟨session, alice, device, 1000⟩

def directoryRequest : HttpRequest := ⟨bytes "GET", bytes "/api/v1/directory", ∅, []⟩

end Sample

open Sample

/-- The staff of a group with distinct identifiers. -/
theorem directory_accepted_staffed :
    ∃ (response : HttpResponse) (a : DirectorySnapshot) (d' : DirectoryApplicationService),
      (directoryResponse directoryRequest carol
          (DirectoryApplicationService.answering (fun _ => some withBob) fun _ => 0)).run.run {}
          = (.ok response, d')
        ∧ signedIn.directory (fun _ => .ok response.complete) correlation none
          = .ok (some a.view) := by
  obtain ⟨a, d', hread⟩ : ∃ a d',
      ({} : DirectoryApplicationService).directoryFor (fun _ => some withBob) carol
        = (.ok (.ok a), d') := ⟨_, _, rfl⟩
  have hresponse : (directoryResponse directoryRequest carol
      (DirectoryApplicationService.answering (fun _ => some withBob) fun _ => 0)).run.run
        (([] : List DirectoryOp).foldl DirectoryOp.call {}) = (.ok (directoryAnswered a), d') :=
    directoryResponse_of_read hread rfl
  have hops : ∀ op ∈ ([] : List DirectoryOp), op.Words := by simp
  have hcontext : currentContextFor (fun _ => some withBob) carol
      = some (withBob, { member carol with roleIds := confusableRoles }) := rfl
  have hgroup : withBob.snapshot.hierarchy.findGroup group = some ⟨group, bytes "Group", true⟩ :=
    rfl
  have hknown : (none : Option ℕ) ≠ some 0 := nofun
  have hpresentable : staffedHierarchy.Presentable ⟨group, bytes "Group", true⟩ :=
    ⟨by decide, by decide, by decide, by decide⟩
  obtain ⟨b, -, haccepted⟩ := directory_accepted_iff hops hcontext hgroup (by decide)
    ⟨by decide, by decide⟩ hresponse rfl signedIn rfl correlation hknown
  exact ⟨_, b, d', hresponse, (haccepted _).2 ⟨hpresentable, rfl⟩⟩

/-- The directory of a group with a team of the same identifier is served and refused. -/
theorem directory_shared_id_refused :
    ∃ (response : HttpResponse) (a : DirectorySnapshot) (d' : DirectoryApplicationService),
      ({} : DirectoryApplicationService).directoryFor (fun _ => some sharedIdContext) alice
          = (.ok (.ok a), d')
        ∧ (directoryResponse directoryRequest alice
          (DirectoryApplicationService.answering (fun _ => some sharedIdContext)
            fun _ => 0)).run.run {} = (.ok response, d')
        ∧ response.statusCode = 200
        ∧ ∀ fetch, signedIn.directory (fun _ => .ok response.complete) correlation none
          ≠ .ok fetch := by
  obtain ⟨a, d', hread⟩ : ∃ a d',
      ({} : DirectoryApplicationService).directoryFor (fun _ => some sharedIdContext) alice
        = (.ok (.ok a), d') := ⟨_, _, rfl⟩
  have hcontext : currentContextFor (fun _ => some sharedIdContext) alice
      = some (sharedIdContext, { member alice with teamId := ⟨group.value, group.nonempty⟩ }) := rfl
  have hgroup : sharedIdContext.snapshot.hierarchy.findGroup group
      = some ⟨group, bytes "Group", true⟩ := rfl
  have hknown : (none : Option ℕ) ≠ some 0 := nofun
  obtain ⟨hcoherent, hfits, hlegible⟩ := directoryFor_coherent supplied_initial hread hcontext
    hgroup (by decide) ⟨by decide, by decide⟩
  have hshared : ¬sharedIdHierarchy.Presentable ⟨group, bytes "Group", true⟩ := fun h =>
    absurd h.distinct (by decide)
  refine ⟨_, a, d', hread, directoryResponse_of_read hread rfl, rfl, fun fetch haccepted => ?_⟩
  have hanswered := (signedIn.directory_answered correlation rfl hfits hcoherent hknown).1 haccepted
  exact hshared (hlegible.1 hanswered.1)

end Answer

end VoxTree

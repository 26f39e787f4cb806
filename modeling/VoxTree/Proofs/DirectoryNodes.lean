import VoxTree.Lib.Keyed
import VoxTree.Lib.TreeMap
import VoxTree.Lib.Unique
import VoxTree.Proofs.DirectoryServer

/-!
# What a directory lists

The nodes of a directory are the group, its specializations and their teams, each as the hierarchy
has it (`directoryNodes_lists`). The participants are the members of the group, each once.
-/

namespace VoxTree

/-! ## The nodes of a group -/

namespace Hierarchy

variable (hierarchy : Hierarchy) (group : Group)

def specializationsOf : List Specialization :=
  hierarchy.specializations.filter fun specialization => specialization.groupId = group.id

def teamsOf : List Team :=
  hierarchy.teams.filter fun team =>
    (hierarchy.specializationsOf group).any fun specialization =>
      specialization.id = team.specializationId

end Hierarchy

namespace DirectoryApplicationService

/-- The node lists the specialization. -/
def ListsSpecialization (group : Group) (size : ℕ) (specialization : Specialization)
    (node : DirectoryNode) : Prop :=
  ∃ index < size, node = ⟨specialization.id.value, .specialization, some group.id.value,
    specialization.displayName, index⟩

/-- The node lists the team. -/
def ListsTeam (size : ℕ) (team : Team) (node : DirectoryNode) : Prop :=
  ∃ index < size, node = ⟨team.id.value, .team, some team.specializationId.value,
    team.displayName, index⟩

theorem specializationNodes_lists (hierarchy : Hierarchy) (group : Group) :
    List.Forall₂ (ListsSpecialization group (hierarchy.specializationsOf group).length)
      (hierarchy.specializationsOf group) (specializationNodes hierarchy group) := by
  have hfrom : ∀ (l : List Specialization) (k size : ℕ), k + l.length ≤ size →
      List.Forall₂ (ListsSpecialization group size) l
        ((l.zipIdx k).map fun entry =>
          ⟨entry.1.id.value, .specialization, some group.id.value, entry.1.displayName,
            entry.2⟩) := by
    intro l
    induction l with
    | nil => exact fun _ _ _ => .nil
    | cons specialization l ih =>
      intro k size hsize
      rw [List.length_cons] at hsize
      exact .cons ⟨k, by omega, rfl⟩ (ih (k + 1) size (by omega))
  exact hfrom (hierarchy.specializationsOf group) 0 _ (by omega)

/-- Counting on adds no key. -/
theorem contains_insert_of_contains {next : Std.ExtTreeMap SpecializationId ℕ}
    {k : SpecializationId} (h : next.contains k = true) {index : ℕ} (k' : SpecializationId) :
    (next.insert k index).contains k' = next.contains k' := by
  rw [Std.ExtTreeMap.contains_insert]
  rcases heq : compare k k' with _ | _ | _
  · simp
  · rw [← Std.LawfulEqOrd.eq_of_compare heq, h]
    simp
  · simp

theorem teamNodes_lists : ∀ (teams : List Team) {next : Std.ExtTreeMap SpecializationId ℕ}
    {b size : ℕ}, (∀ (k : SpecializationId) (v : ℕ), next[k]? = some v → v ≤ b) →
      b + teams.length ≤ size →
      List.Forall₂ (ListsTeam size) (teams.filter fun team => next.contains team.specializationId)
        (teamNodes next teams)
  | [], _, _, _, _, _ => .nil
  | team :: rest, next, b, size, h, hsize => by
    rw [List.length_cons] at hsize
    unfold teamNodes
    rcases hindex : next[team.specializationId]? with _ | index
    · have hhidden : next.contains team.specializationId = false := by
        rw [← Std.ExtTreeMap.isSome_getElem?_eq_contains, hindex, Option.isSome_none]
      rw [List.filter_cons_of_neg (by simp [hhidden])]
      exact teamNodes_lists rest h (by omega)
    · have hvisible : next.contains team.specializationId = true := by
        rw [← Std.ExtTreeMap.isSome_getElem?_eq_contains, hindex, Option.isSome_some]
      have hle := h team.specializationId index hindex
      have hbound : ∀ (k : SpecializationId) (v : ℕ),
          (next.insert team.specializationId (index + 1))[k]? = some v → v ≤ b + 1 := by
        intro k v hv
        rw [Std.ExtTreeMap.getElem?_insert] at hv
        split_ifs at hv with hk
        · have hvalue := Option.some.inj hv
          omega
        · exact Nat.le_succ_of_le (h k v hv)
      have hfits : b + 1 + rest.length ≤ size := by omega
      have hrest := teamNodes_lists rest hbound hfits
      rw [List.filter_cons_of_pos (by exact hvisible)]
      simp only [contains_insert_of_contains hvisible] at hrest
      exact .cons ⟨index, by omega, rfl⟩ hrest

/-- Every specialization starts counting its teams at zero. -/
theorem getElem?_firstIndices {l : List Specialization} (h : (l.map Specialization.id).Nodup)
    (k : SpecializationId) :
    (l.foldl (fun next specialization => next.insert specialization.id 0)
        (∅ : Std.ExtTreeMap SpecializationId ℕ))[k]?
      = if l.any fun specialization => specialization.id = k then some 0 else none := by
  split_ifs with hany
  · obtain ⟨specialization, hmem, hid⟩ := List.any_eq_true.1 hany
    obtain rfl : specialization.id = k := by simpa using hid
    exact TreeMap.getElem?_foldl_insert_of_mem h hmem
  · have hne : ∀ specialization ∈ l, specialization.id ≠ k := fun specialization hmem hid =>
      hany (List.any_eq_true.2 ⟨specialization, hmem, by simpa using hid⟩)
    rw [TreeMap.getElem?_foldl_insert_of_notMem hne, Std.ExtTreeMap.getElem?_empty]

theorem contains_firstIndices {l : List Specialization} (h : (l.map Specialization.id).Nodup)
    (k : SpecializationId) :
    (l.foldl (fun next specialization => next.insert specialization.id 0)
        (∅ : Std.ExtTreeMap SpecializationId ℕ)).contains k
      = l.any fun specialization => specialization.id = k := by
  rw [← Std.ExtTreeMap.isSome_getElem?_eq_contains, getElem?_firstIndices h]
  split_ifs with hany <;> simp [hany]

/-- Teams elsewhere are not listed. -/
theorem teamNodes_filter : ∀ (teams : List Team) (next : Std.ExtTreeMap SpecializationId ℕ),
    teamNodes next (teams.filter fun team => next.contains team.specializationId)
      = teamNodes next teams
  | [], _ => rfl
  | team :: rest, next => by
    rcases hindex : next[team.specializationId]? with _ | index
    · have hhidden : next.contains team.specializationId = false := by
        rw [← Std.ExtTreeMap.isSome_getElem?_eq_contains, hindex, Option.isSome_none]
      rw [List.filter_cons_of_neg (by simp [hhidden]), teamNodes_filter rest next]
      simp only [teamNodes, hindex]
    · have hvisible : next.contains team.specializationId = true := by
        rw [← Std.ExtTreeMap.isSome_getElem?_eq_contains, hindex, Option.isSome_some]
      have hrest := teamNodes_filter rest (next.insert team.specializationId (index + 1))
      simp only [contains_insert_of_contains hvisible] at hrest
      rw [List.filter_cons_of_pos (by exact hvisible)]
      simp only [teamNodes, hindex, hrest]

/-- The nodes of a group: itself, its specializations and their teams. -/
theorem directoryNodes_lists (hierarchy : Hierarchy) (group : Group) :
    ∃ specializations teams,
      directoryNodes hierarchy group
          = ⟨group.id.value, .group, none, group.displayName, 0⟩ :: (specializations ++ teams)
        ∧ List.Forall₂ (ListsSpecialization group (hierarchy.specializationsOf group).length)
          (hierarchy.specializationsOf group) specializations
        ∧ List.Forall₂ (ListsTeam hierarchy.teams.length) (hierarchy.teamsOf group) teams := by
  have hunique : ((hierarchy.specializationsOf group).map Specialization.id).Nodup :=
    hierarchy.specializations_unique.sublist (List.filter_sublist.map _)
  have hzero : ∀ (k : SpecializationId) (v : ℕ), ((hierarchy.specializationsOf group).foldl
      (fun next specialization => next.insert specialization.id 0)
      (∅ : Std.ExtTreeMap SpecializationId ℕ))[k]? = some v → v ≤ 0 := by
    intro k v hv
    rw [getElem?_firstIndices hunique k] at hv
    split_ifs at hv
    exact (Option.some.inj hv).ge
  have hteams := teamNodes_lists hierarchy.teams hzero (Nat.le_of_eq (Nat.zero_add _))
  simp only [contains_firstIndices hunique] at hteams
  exact ⟨_, _, rfl, specializationNodes_lists hierarchy group, hteams⟩

section Nodes

variable {hierarchy : Hierarchy} {group : Group} {node : DirectoryNode}

/-- A node is the group, or lists one of the specializations or teams. -/
theorem mem_directoryNodes (h : node ∈ directoryNodes hierarchy group) :
    node = ⟨group.id.value, .group, none, group.displayName, 0⟩
      ∨ (∃ specialization ∈ hierarchy.specializationsOf group,
        ListsSpecialization group hierarchy.specializations.length specialization node)
      ∨ ∃ team ∈ hierarchy.teamsOf group, ListsTeam hierarchy.teams.length team node := by
  obtain ⟨specializations, teams, hnodes, hspecializations, hteams⟩ :=
    directoryNodes_lists hierarchy group
  rw [hnodes, List.mem_cons, List.mem_append] at h
  rcases h with h | h | h
  · exact .inl h
  · obtain ⟨specialization, hmem, index, hindex, hnode⟩ :=
      (Keyed.SameUpTo.of_forall₂ hspecializations).exists_left h
    exact .inr (.inl ⟨specialization, hmem, index,
      Nat.lt_of_lt_of_le hindex (List.length_filter_le _ _), hnode⟩)
  · exact .inr (.inr ((Keyed.SameUpTo.of_forall₂ hteams).exists_left h))

theorem sortIndex_lt {size : ℕ} (hspecializations : hierarchy.specializations.length ≤ size)
    (hteams : hierarchy.teams.length ≤ size) (hsize : 0 < size)
    (h : node ∈ directoryNodes hierarchy group) : node.sortIndex < size := by
  rcases mem_directoryNodes h with rfl | ⟨specialization, -, index, hindex, rfl⟩ |
    ⟨team, -, index, hindex, rfl⟩
  · exact hsize
  · exact Nat.lt_of_lt_of_le hindex hspecializations
  · exact Nat.lt_of_lt_of_le hindex hteams

theorem exists_specializationNode {specialization : Specialization}
    (h : specialization ∈ hierarchy.specializationsOf group) :
    ∃ node ∈ directoryNodes hierarchy group,
      node.nodeId = specialization.id.value ∧ node.nodeType = .specialization := by
  obtain ⟨specializations, teams, hnodes, hspecializations, -⟩ :=
    directoryNodes_lists hierarchy group
  obtain ⟨node, hnode, index, -, hlists⟩ :=
    (Keyed.SameUpTo.of_forall₂ hspecializations).exists_right h
  refine ⟨node, ?_, by rw [hlists], by rw [hlists]⟩
  rw [hnodes]
  exact List.mem_cons_of_mem _ (List.mem_append_left _ hnode)

theorem exists_teamNode {team : Team} (h : team ∈ hierarchy.teamsOf group) :
    ∃ node ∈ directoryNodes hierarchy group,
      node.nodeId = team.id.value ∧ node.nodeType = .team := by
  obtain ⟨specializations, teams, hnodes, -, hteams⟩ := directoryNodes_lists hierarchy group
  obtain ⟨node, hnode, index, -, hlists⟩ := (Keyed.SameUpTo.of_forall₂ hteams).exists_right h
  refine ⟨node, ?_, by rw [hlists], by rw [hlists]⟩
  rw [hnodes]
  exact List.mem_cons_of_mem _ (List.mem_append_right _ hnode)

/-- The parent of a node is a node one level above. -/
theorem exists_parentNode (h : node ∈ directoryNodes hierarchy group) {parent : Bytes}
    (hparent : node.parentNodeId = some parent) :
    ∃ above ∈ directoryNodes hierarchy group, above.nodeId = parent
      ∧ above.nodeType = if node.nodeType = .team then .specialization else .group := by
  rcases mem_directoryNodes h with rfl | ⟨specialization, -, index, -, rfl⟩ |
    ⟨team, hteam, index, -, rfl⟩
  · cases hparent
  · obtain rfl := Option.some.inj hparent
    exact ⟨_, List.mem_cons_self, rfl, rfl⟩
  · obtain rfl := Option.some.inj hparent
    obtain ⟨specialization, hmem, hid⟩ := List.any_eq_true.1 (List.mem_filter.1 hteam).2
    obtain ⟨above, habove, hvalue, htype⟩ := exists_specializationNode hmem
    have hid : specialization.id = team.specializationId := by simpa using hid
    exact ⟨above, habove, hvalue.trans (congrArg StrongId.value hid), htype⟩

end Nodes

/-! ## The people of a group -/

variable {d : DirectoryApplicationService}

theorem mem_sortedUnique {roleIds : List RoleId} {r : RoleId} :
    r ∈ sortedUnique roleIds ↔ r ∈ roleIds := by
  unfold sortedUnique
  rw [Unique.mem_eraseReps, List.mem_insertionSort]

instance {tag : IdTag} : Std.Antisymm fun a b : StrongId tag => (compare a b).isLE = true :=
  ⟨fun _ _ hab hba => Std.LawfulEqOrd.eq_of_compare (Std.OrientedCmp.isLE_antisymm hab hba)⟩

theorem sorted_roleIds (roleIds : List RoleId) :
    (roleIds.insertionSort fun a b => (compare a b).isLE = true).Pairwise
      fun a b => (compare a b).isLE = true := by
  have : IsTrans RoleId fun a b => (compare a b).isLE = true :=
    ⟨fun _ _ _ => Std.TransOrd.isLE_trans⟩
  have : Std.Total fun a b : RoleId => (compare a b).isLE = true :=
    ⟨fun a b => by
      rw [Std.OrientedOrd.eq_swap (a := b)]
      cases compare a b <;> simp⟩
  exact List.pairwise_insertionSort _ roleIds

theorem nodup_sortedUnique (roleIds : List RoleId) : (sortedUnique roleIds).Nodup :=
  Unique.nodup_eraseReps (sorted_roleIds roleIds)

/-- What is left depends on which roles are listed only. -/
theorem sortedUnique_congr {roleIds roleIds' : List RoleId} (h : ∀ r, r ∈ roleIds ↔ r ∈ roleIds') :
    sortedUnique roleIds = sortedUnique roleIds' := by
  refine Unique.eq_of_sorted ((sorted_roleIds roleIds).sublist (Unique.eraseReps_sublist _))
    ((sorted_roleIds roleIds').sublist (Unique.eraseReps_sublist _)) (nodup_sortedUnique _)
    (nodup_sortedUnique _) fun r => ?_
  rw [mem_sortedUnique, mem_sortedUnique, h]

theorem nodup_visibleMemberships (snapshot : MembershipSnapshot) (g : GroupId) :
    ((visibleMemberships snapshot g).map VoiceMembership.playerId).Nodup := by
  have hperm := (List.perm_insertionSort (fun a b => MembershipSnapshot.byPlayer a b = true)
    (snapshot.memberships.filter fun m => m.groupId = g)).map VoiceMembership.playerId
  exact hperm.nodup_iff.2 (snapshot.players_unique.sublist (List.filter_sublist.map _))

theorem mem_publicRoleIds {m : VoiceMembership} {r : RoleId} (h : r ∈ d.publicRoleIds m) :
    ∃ role, d.publicRoles[r]? = some role := by
  have hlisted : d.publicRoles.contains r = true := (List.mem_filter.1 h).2
  rw [← Std.ExtTreeMap.isSome_getElem?_eq_contains] at hlisted
  exact Option.isSome_iff_exists.1 hlisted

/-- The team of a visible member is one of the group's. -/
theorem exists_team {snapshot : MembershipSnapshot} {group : Group} {m : VoiceMembership}
    (hm : m ∈ snapshot.memberships) (hgroup : snapshot.hierarchy.findGroup m.groupId = some group) :
    ∃ team ∈ snapshot.hierarchy.teamsOf group, team.id = m.teamId := by
  have hpath := snapshot.paths_valid m hm
  unfold MembershipSnapshot.validPath at hpath
  rw [hgroup] at hpath
  rcases hspecialization : snapshot.hierarchy.findSpecialization m.specializationId with
    _ | specialization
  · simp [hspecialization] at hpath
  rcases hteam : snapshot.hierarchy.findTeam m.teamId with _ | team
  · simp [hspecialization, hteam] at hpath
  simp only [hspecialization, hteam, Bool.and_eq_true, decide_eq_true_eq] at hpath
  have hteamId : team.id = m.teamId := by simpa using List.find?_some hteam
  refine ⟨team, List.mem_filter.2 ⟨List.mem_of_find?_eq_some hteam, ?_⟩, hteamId⟩
  exact List.any_eq_true.2 ⟨specialization, List.mem_filter.2
    ⟨List.mem_of_find?_eq_some hspecialization, by simpa using hpath.1⟩, by simp [hpath.2]⟩

end DirectoryApplicationService

end VoxTree

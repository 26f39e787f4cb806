import VoxTree.Proofs.DirectoryNodes
import VoxTree.Proofs.Persistence

/-!
# Which contexts are kept, and in which order

Of a newer context, an update succeeds exactly if the tables can hold it (`Storable.of_succeeds`).
The siblings are read back in the order of their identifiers (`load_byIdentifier`), so that the
directory of a group is as before exactly if its specializations and teams are in that order
(`directoryNodes_byIdentifier`).
-/

namespace VoxTree

open Relation Results MembershipTables

/-! ## The order of identifiers -/

section Ascending

variable {α : Type} {tag : IdTag} (id : α → StrongId tag)

/-- In the order of the identifiers. -/
def Ascending (l : List α) : Prop := l.Pairwise fun a b => (compare (id a) (id b)).isLE = true

/-- The entries put in the order of their identifiers. -/
def byIdentifier (l : List α) : List α :=
  l.insertionSort fun a b => (compare (id a) (id b)).isLE = true

variable {id} {l l' : List α}

theorem byIdentifier_perm : (byIdentifier id l).Perm l := List.perm_insertionSort _ l

theorem ascending_byIdentifier : Ascending id (byIdentifier id l) := by
  have : IsTrans α fun a b => (compare (id a) (id b)).isLE = true :=
    ⟨fun _ _ _ => Std.TransOrd.isLE_trans⟩
  have : Std.Total fun a b : α => (compare (id a) (id b)).isLE = true :=
    ⟨fun a b => by
      rw [Std.OrientedOrd.eq_swap (a := id b)]
      cases compare (id a) (id b) <;> simp⟩
  exact List.pairwise_insertionSort _ l

theorem byIdentifier_eq_iff : byIdentifier id l = l ↔ Ascending id l := by
  constructor
  · intro h
    rw [← h]
    exact ascending_byIdentifier
  · exact List.Pairwise.insertionSort_eq

/-- The order is one of the identifiers' texts. -/
theorem Ascending.of_map_eq (hl : Ascending id l)
    (h : l.map (fun a => (id a).value) = l'.map fun a => (id a).value) : Ascending id l' := by
  have htexts : (l.map fun a => (id a).value).Pairwise fun a b => (compare a b).isLE = true :=
    List.pairwise_map.2 hl
  rw [h] at htexts
  exact List.pairwise_map.1 htexts

/-- Identifiers that are different leave one order. -/
theorem eq_of_ascending (h : l.Perm l') (hid : (l.map id).Nodup) (hl : Ascending id l)
    (hl' : Ascending id l') : l = l' := by
  refine h.eq_of_pairwise (fun a b ha hb hab hba => ?_) hl hl'
  have heq : id a = id b := Std.LawfulEqOrd.eq_of_compare (Std.OrientedCmp.isLE_antisymm hab hba)
  exact List.inj_on_of_nodup_map hid ha (h.mem_iff.2 hb) heq

/-- Some of the entries are in the same order as before exactly if they are ascending. -/
theorem filter_byIdentifier_iff (hid : (l.map id).Nodup) (p : α → Bool) :
    (byIdentifier id l).filter p = l.filter p ↔ Ascending id (l.filter p) := by
  have hperm : ((byIdentifier id l).filter p).Perm (l.filter p) := byIdentifier_perm.filter p
  have hsorted : Ascending id ((byIdentifier id l).filter p) :=
    ascending_byIdentifier.sublist List.filter_sublist
  constructor
  · intro h
    rw [← h]
    exact hsorted
  · intro h
    have hnodup : ((l.filter p).map id).Nodup := hid.sublist (List.filter_sublist.map id)
    exact eq_of_ascending hperm ((hperm.map id).nodup_iff.2 hnodup) hsorted h

end Ascending

/-- The same hierarchy with its siblings in the order of their identifiers. -/
structure Hierarchy.ByIdentifier (h h' : Hierarchy) : Prop where
  groups : h'.groups = byIdentifier Group.id h.groups
  specializations : h'.specializations = byIdentifier Specialization.id h.specializations
  teams : h'.teams = byIdentifier Team.id h.teams

/-! ## The nodes of a directory -/

namespace DirectoryApplicationService

variable {hierarchy hierarchy' : Hierarchy} {group : Group}

/-- The nodes follow the specializations and the teams of the group. -/
theorem directoryNodes_congr
    (hspecializations : hierarchy'.specializationsOf group = hierarchy.specializationsOf group)
    (hteams : hierarchy'.teamsOf group = hierarchy.teamsOf group) :
    directoryNodes hierarchy' group = directoryNodes hierarchy group := by
  have hnodes : ∀ h : Hierarchy, directoryNodes h group
      = ⟨group.id.value, .group, none, group.displayName, 0⟩
        :: ((h.specializationsOf group).zipIdx.map fun entry =>
            ⟨entry.1.id.value, .specialization, some group.id.value, entry.1.displayName, entry.2⟩)
          ++ teamNodes ((h.specializationsOf group).foldl
            (fun next specialization => next.insert specialization.id 0) ∅) (h.teamsOf group) := by
    intro h
    have hunique : ((h.specializationsOf group).map Specialization.id).Nodup :=
      h.specializations_unique.sublist (List.filter_sublist.map _)
    have hfilter := teamNodes_filter h.teams ((h.specializationsOf group).foldl
      (fun next specialization => next.insert specialization.id 0) ∅)
    simp only [contains_firstIndices hunique] at hfilter
    rw [Hierarchy.teamsOf, hfilter]
    rfl
  rw [hnodes, hnodes, hspecializations, hteams]

/-- Entries that are listed one by one, under their own names. -/
theorem map_of_forall₂ {α : Type} {R : α → DirectoryNode → Prop} {name : α → Bytes} {l : List α}
    {nodes : List DirectoryNode} (h : List.Forall₂ R l nodes)
    (hname : ∀ a node, R a node → name a = node.nodeId) :
    l.map name = nodes.map DirectoryNode.nodeId := by
  rw [← List.forall₂_eq_eq_eq, List.forall₂_map_left_iff, List.forall₂_map_right_iff]
  exact h.imp hname

/-- The specializations and the teams that the nodes list, each by its identifier. -/
theorem nodeIds_directoryNodes (hierarchy : Hierarchy) (group : Group) :
    (hierarchy.specializationsOf group).map (·.id.value)
        = ((directoryNodes hierarchy group).filter fun node =>
          node.nodeType = .specialization).map DirectoryNode.nodeId
      ∧ (hierarchy.teamsOf group).map (·.id.value)
        = ((directoryNodes hierarchy group).filter fun node => node.nodeType = .team).map
          DirectoryNode.nodeId := by
  obtain ⟨specializations, teams, hnodes, hspecializations, hteams⟩ :=
    directoryNodes_lists hierarchy group
  have hspecialization : ∀ node ∈ specializations, node.nodeType = .specialization := by
    intro node hnode
    obtain ⟨_, _, _, -, rfl⟩ := (Keyed.SameUpTo.of_forall₂ hspecializations).exists_left hnode
    rfl
  have hteam : ∀ node ∈ teams, node.nodeType = .team := by
    intro node hnode
    obtain ⟨_, _, _, -, rfl⟩ := (Keyed.SameUpTo.of_forall₂ hteams).exists_left hnode
    rfl
  have hall : ∀ {nodes : List DirectoryNode} {type : DirectoryNodeType},
      (∀ node ∈ nodes, node.nodeType = type) → nodes.filter (·.nodeType = type) = nodes :=
    fun h => List.filter_eq_self.2 fun node hnode => decide_eq_true (h node hnode)
  have hnone : ∀ {nodes : List DirectoryNode} {type type' : DirectoryNodeType},
      (∀ node ∈ nodes, node.nodeType = type') → type' ≠ type →
        nodes.filter (·.nodeType = type) = [] := fun h hne =>
    List.filter_eq_nil_iff.2 fun node hnode hof =>
      hne ((h node hnode).symm.trans (of_decide_eq_true hof))
  rw [hnodes, List.filter_cons_of_neg (by simp), List.filter_cons_of_neg (by simp),
    List.filter_append, List.filter_append, hall hspecialization, hall hteam,
    hnone hspecialization (by simp), hnone hteam (by simp), List.append_nil, List.nil_append]
  refine ⟨map_of_forall₂ hspecializations ?_, map_of_forall₂ hteams ?_⟩
  · rintro specialization node ⟨index, -, rfl⟩
    rfl
  · rintro team node ⟨index, -, rfl⟩
    rfl

/-- Where the siblings are in the order of their identifiers, the nodes are those of the original
exactly if the group's specializations and teams were in that order. -/
theorem directoryNodes_byIdentifier (h : hierarchy.ByIdentifier hierarchy') (group : Group) :
    directoryNodes hierarchy' group = directoryNodes hierarchy group
      ↔ Ascending Specialization.id (hierarchy.specializationsOf group)
        ∧ Ascending Team.id (hierarchy.teamsOf group) := by
  have hspecializations : hierarchy'.specializationsOf group
      = (byIdentifier Specialization.id hierarchy.specializations).filter
        fun specialization => specialization.groupId = group.id := by
    rw [← h.specializations]
    rfl
  have hteams : hierarchy'.teamsOf group
      = (byIdentifier Team.id hierarchy.teams).filter fun team =>
        (hierarchy.specializationsOf group).any fun specialization =>
          specialization.id = team.specializationId := by
    have hperm : (hierarchy'.specializationsOf group).Perm (hierarchy.specializationsOf group) :=
      hspecializations ▸ byIdentifier_perm.filter _
    unfold Hierarchy.teamsOf
    rw [h.teams]
    exact List.filter_congr fun team _ => hperm.any_eq
  have hspecializations_iff : hierarchy'.specializationsOf group
      = hierarchy.specializationsOf group
        ↔ Ascending Specialization.id (hierarchy.specializationsOf group) := by
    rw [hspecializations]
    exact filter_byIdentifier_iff hierarchy.specializations_unique _
  have hteams_iff : hierarchy'.teamsOf group = hierarchy.teamsOf group
      ↔ Ascending Team.id (hierarchy.teamsOf group) := by
    rw [hteams]
    exact filter_byIdentifier_iff hierarchy.teams_unique _
  constructor
  · intro hnodes
    have hids := nodeIds_directoryNodes hierarchy group
    have hids' := nodeIds_directoryNodes hierarchy' group
    rw [hnodes] at hids'
    have hs : Ascending Specialization.id (hierarchy'.specializationsOf group) := by
      rw [hspecializations]
      exact ascending_byIdentifier.sublist List.filter_sublist
    have ht : Ascending Team.id (hierarchy'.teamsOf group) := by
      rw [hteams]
      exact ascending_byIdentifier.sublist List.filter_sublist
    exact ⟨hs.of_map_eq (hids'.1.trans hids.1.symm), ht.of_map_eq (hids'.2.trans hids.2.symm)⟩
  · rintro ⟨hs, ht⟩
    exact directoryNodes_congr (hspecializations_iff.2 hs) (hteams_iff.2 ht)

end DirectoryApplicationService

namespace SqliteControlPlaneRepository

section Contexts

variable {owner : PlayerId} {context context' : AuthoritativeMembershipContext}

/-! ## What is read back -/

/-- A query whose rows are made of the entries of a list reads these entries in the order of the
column. -/
theorem read_select_order {α ρ : Type} {tag : IdTag} (id : α → StrongId tag) {condition : ρ → Bool}
    {column : ρ → Bytes} {read : ρ → Except PersistenceException α} {rows : List ρ} {l : List α}
    {row : α → ρ} (hrows : rows.filter condition = l.map row)
    (hcolumn : ∀ a, column (row a) = (id a).value) (hread : ∀ a, read (row a) = .ok a) :
    (select condition column rows).mapM read = .ok (byIdentifier id l) := by
  have hselect : select condition column rows = (byIdentifier id l).map row := by
    have hmap : (l.insertionSort fun a b => (compare (id a) (id b)).isLE = true).map row
        = (l.map row).insertionSort fun a b => (compare (column a) (column b)).isLE = true := by
      refine List.map_insertionSort _ _ row l fun a _ b _ => ?_
      rw [hcolumn, hcolumn]
      rfl
    unfold select byIdentifier
    rw [hrows, hmap]
  rw [hselect, List.mapM_map]
  have hall : ∀ l : List α, l.mapM (fun a => read (row a)) = .ok l := by
    intro l
    induction l with
    | nil => rfl
    | cons a l ih =>
      rw [List.mapM_cons]
      exact bind_ok (hread a) (bind_ok ih rfl)
  exact hall _

theorem lists_of_make {id : HierarchyId} {scopes : List ScopeDefinition} {groups : List Group}
    {specializations : List Specialization} {teams : List Team} {h : Hierarchy}
    (hmake : Hierarchy.make id scopes groups specializations teams = .ok h) :
    h.groups = groups ∧ h.specializations = specializations ∧ h.teams = teams := by
  unfold Hierarchy.make at hmake
  split_ifs at hmake <;> split at hmake <;> cases hmake
  exact ⟨rfl, rfl, rfl⟩

/-- The hierarchy that is read consists of the groups, specializations and teams that are. -/
theorem hierarchy_of_readContext {t : MembershipTables} {row : ContextRow}
    (h : readContext t owner row = .ok context') :
    (select (fun row => row.ownerPlayerId = owner.value) GroupRow.groupId t.groups).mapM readGroup
        = .ok context'.snapshot.hierarchy.groups
      ∧ (select (fun row => row.ownerPlayerId = owner.value) SpecializationRow.specializationId
        t.specializations).mapM readSpecialization
          = .ok context'.snapshot.hierarchy.specializations
      ∧ (select (fun row => row.ownerPlayerId = owner.value) TeamRow.teamId
        t.teams).mapM readTeam = .ok context'.snapshot.hierarchy.teams := by
  unfold readContext at h
  obtain ⟨text, -, h⟩ := ok_bind h
  obtain ⟨version, -, h⟩ := ok_bind h
  obtain ⟨hierarchyId, -, h⟩ := ok_bind h
  obtain ⟨scopes, -, h⟩ := ok_bind h
  obtain ⟨groups, hgroups, h⟩ := ok_bind h
  obtain ⟨specializations, hspecializations, h⟩ := ok_bind h
  obtain ⟨teams, hteams, h⟩ := ok_bind h
  obtain ⟨memberships, -, h⟩ := ok_bind h
  obtain ⟨roles, -, h⟩ := ok_bind h
  obtain ⟨hierarchy, hhierarchy, h⟩ := ok_bind h
  obtain ⟨snapshot, hsnapshot, h⟩ := ok_bind h
  obtain ⟨policy, -, h⟩ := ok_bind h
  obtain rfl := Except.ok.inj h
  obtain ⟨-, rfl, -⟩ := MembershipSnapshot.make_ok (of_mapError hsnapshot)
  obtain ⟨rfl, rfl, rfl⟩ := lists_of_make (of_mapError hhierarchy)
  exact ⟨hgroups, hspecializations, hteams⟩

/-- The siblings are read back in the order of their identifiers. -/
theorem load_byIdentifier {t : MembershipTables} (hfresh : Fresh owner.value t)
    (h : loadMembershipContext (written owner context t) owner = .ok (some context')) :
    context.snapshot.hierarchy.ByIdentifier context'.snapshot.hierarchy := by
  let keep : Bytes → Bool := fun o => o = owner.value
  have hkeep : keep owner.value = true := decide_eq_true rfl
  have hrows : (written owner context t).restrict keep = written owner context {} := by
    rw [restrict_written, if_pos hkeep]
    exact congrArg (written owner context) hfresh
  have hfind : (written owner context {}).contexts.find?
      (fun row => row.ownerPlayerId = owner.value) = some (contextRow owner context) := by
    simp [written, contextRow]
  rw [← load_restrict hkeep, hrows] at h
  unfold loadMembershipContext at h
  obtain ⟨-, -, h⟩ := ok_bind h
  rw [hfind] at h
  have hread : readContext (written owner context {}) owner (contextRow owner context)
      = .ok context' := by
    rcases hread : readContext (written owner context {}) owner (contextRow owner context) with
      e | c
    · simp only [hread] at h
      cases h
    · simp only [hread] at h
      cases h
      rfl
  obtain ⟨hgroups, hspecializations, hteams⟩ := hierarchy_of_readContext hread
  have hgroups' : (select (fun row => row.ownerPlayerId = owner.value) GroupRow.groupId
      (written owner context {}).groups).mapM readGroup
        = .ok (byIdentifier Group.id context.snapshot.hierarchy.groups) :=
    read_select_order Group.id (filter_all GroupRow.ownerPlayerId fun _ => rfl) (fun _ => rfl)
      (readGroup_groupRow owner)
  have hspecializations' : (select (fun row => row.ownerPlayerId = owner.value)
      SpecializationRow.specializationId
        (written owner context {}).specializations).mapM readSpecialization
          = .ok (byIdentifier Specialization.id context.snapshot.hierarchy.specializations) :=
    read_select_order Specialization.id (filter_all SpecializationRow.ownerPlayerId fun _ => rfl)
      (fun _ => rfl) (readSpecialization_specializationRow owner)
  have hteams' : (select (fun row => row.ownerPlayerId = owner.value) TeamRow.teamId
      (written owner context {}).teams).mapM readTeam
        = .ok (byIdentifier Team.id context.snapshot.hierarchy.teams) :=
    read_select_order Team.id (filter_all TeamRow.ownerPlayerId fun _ => rfl) (fun _ => rfl)
      (readTeam_teamRow owner)
  exact ⟨Except.ok.inj (hgroups.symm.trans hgroups'),
    Except.ok.inj (hspecializations.symm.trans hspecializations'),
    Except.ok.inj (hteams.symm.trans hteams')⟩

/-! ## What is stored -/

/-- A context of its owner whose limits are SQLite's integers and whose identifiers have no NUL.
Nothing is asked that the constructors do not check but the sizes of numbers. -/
structure Eligible (owner : PlayerId) (context : AuthoritativeMembershipContext) : Prop where
  owned : (context.snapshot.find owner).isSome = true
  limits : ∀ scope ∈ context.snapshot.hierarchy.scopes, ∀ limit ∈ scope.maxConcurrentSpeakers,
    limit < 2 ^ 63
  identifiers : ∀ id ∈ identifiers owner context, 0 ∉ id
  version : context.snapshot.version < UInt64.size
  priorities : ∀ scope ∈ context.snapshot.hierarchy.scopes,
    -(2 ^ 31) ≤ scope.priority ∧ scope.priority < 2 ^ 31

section Stored

variable {c c' : Connection}

theorem of_run_bindTexts {values : List Bytes}
    (h : (bindTexts values).run.run c = (.ok (), c')) :
    c' = c ∧ ∀ v ∈ values, v.length ≤ maximumTextLength := by
  have hstate : c' = c := (Prod.mk.inj h).2.symm
  refine ⟨hstate, fun v hv => ?_⟩
  have hall : ∀ {l : List Bytes}, l.forM bindText = .ok () → ∀ v ∈ l, bindText v = .ok () := by
    intro l
    induction l with
    | nil => exact fun _ v hv => absurd hv List.not_mem_nil
    | cons a l ih =>
      intro hl v hv
      obtain ⟨⟨⟩, ha, hl⟩ := ok_bind (show (bindText a >>= fun _ => l.forM bindText) = _ from hl)
      rcases List.mem_cons.1 hv with rfl | hv
      · exact ha
      · exact ih hl v hv
  have hbind := hall (Prod.mk.inj h).1 v hv
  unfold bindText at hbind
  split_ifs at hbind with hlong
  exact Nat.not_lt.1 hlong

variable {ρ κ : Type} [DecidableEq κ] {T : Table MembershipTables ρ κ} {operation : String}

theorem of_run_insert {row : ρ} (h : (Sql.insert T operation row).run.run c = (.ok (), c')) :
    T.insert row c.tables = .ok c'.tables := by
  rcases hinsert : T.insert row c.tables with violation | tables
  · rw [run_insert_error hinsert] at h
    cases h
  · rw [run_insert_ok hinsert] at h
    obtain rfl := (Prod.mk.inj h).2
    rfl

/-- A loop of inserts goes through only if the rows are checked and have keys of their own. -/
theorem of_run_insertEach (hT : T.Lawful) {β : Type} {texts : β → List Bytes} {row : β → ρ} :
    ∀ {l : List β} {c c' : Connection},
      (l.forM fun a => do bindTexts (texts a); Sql.insert T operation (row a)).run.run c
          = (.ok (), c') →
        (∀ a ∈ l, (∀ v ∈ texts a, v.length ≤ maximumTextLength) ∧ T.check (row a) = true
          ∧ T.key (row a) ∉ (T.rows c.tables).map T.key)
        ∧ (l.map fun a => T.key (row a)).Nodup
  | [], _, _, _ => ⟨fun _ ha => absurd ha List.not_mem_nil, List.nodup_nil⟩
  | a :: l, c, c', h => by
    obtain ⟨⟨⟩, c₁, hfirst, hrest⟩ := of_run_bind
      (f := fun _ => l.forM fun a => do bindTexts (texts a); Sql.insert T operation (row a)) h
    obtain ⟨⟨⟩, c₂, htexts, hinsert⟩ := of_run_bind hfirst
    obtain ⟨rfl, hlengths⟩ := of_run_bindTexts htexts
    obtain ⟨hcheck, hkey, -, htables⟩ := Table.of_insert (of_run_insert hinsert)
    obtain ⟨hall, hnodup⟩ := of_run_insertEach hT hrest
    simp only [htables, hT.rows_withRows, List.map_append, List.mem_append, not_or] at hall
    refine ⟨fun b hb => ?_, ?_⟩
    · rcases List.mem_cons.1 hb with rfl | hb
      · exact ⟨hlengths, hcheck, hkey⟩
      · exact ⟨(hall b hb).1, (hall b hb).2.1, (hall b hb).2.2.1⟩
    · rw [List.map_cons, List.nodup_cons]
      refine ⟨fun hmem => ?_, hnodup⟩
      obtain ⟨b, hb, heq⟩ := List.mem_map.1 hmem
      exact (hall b hb).2.2.2 (heq ▸ List.mem_singleton_self _)

/-- What the loops over the roles and over the memberships ask of the lists of each. -/
theorem of_run_persistRoles {roles : List RolePermissions}
    (h : (persistRoles owner roles).run.run c = (.ok (), c')) :
    ∀ role ∈ roles, role.roleId.value.length ≤ maximumTextLength ∧ role.transmitScopes.Nodup
      ∧ role.receiveScopes.Nodup := by
  intro role hrole
  obtain ⟨s₁, s₂, hpass⟩ := of_run_forM h role hrole
  obtain ⟨⟨⟩, c₁, htexts, hpass⟩ := of_run_bind hpass
  obtain ⟨⟨⟩, c₂, -, hpass⟩ := of_run_bind hpass
  obtain ⟨⟨⟩, c₃, htransmit, hreceive⟩ := of_run_bind hpass
  refine ⟨(of_run_bindTexts htexts).2 _ (by simp), ?_, ?_⟩
  · exact .of_map _ (of_run_insertEach roleTransmitScopeTable_lawful htransmit).2
  · exact .of_map _ (of_run_insertEach roleReceiveScopeTable_lawful hreceive).2

theorem of_run_persistMemberships {memberships : List VoiceMembership}
    (h : (persistMemberships owner memberships).run.run c = (.ok (), c')) :
    ∀ m ∈ memberships, m.playerId.value.length ≤ maximumTextLength ∧ m.roleIds.Nodup
      ∧ ∀ roleId ∈ m.roleIds, roleId.value.length ≤ maximumTextLength := by
  intro m hm
  obtain ⟨s₁, s₂, hpass⟩ := of_run_forM h m hm
  obtain ⟨⟨⟩, c₁, htexts, hpass⟩ := of_run_bind hpass
  obtain ⟨⟨⟩, c₂, -, hpass⟩ := of_run_bind hpass
  obtain ⟨hall, hnodup⟩ := of_run_insertEach roleAssignmentTable_lawful hpass
  refine ⟨(of_run_bindTexts htexts).2 _ (by simp), .of_map _ hnodup, fun roleId hrole => ?_⟩
  exact (hall roleId hrole).1 _ (by simp)

theorem of_run_persistScopes {scopes : List ScopeDefinition}
    (h : (persistScopes owner scopes).run.run c = (.ok (), c')) :
    ∀ scope ∈ scopes, scope.displayName.length ≤ maximumTextLength
      ∧ scope.displayName.head? ≠ some 0 := by
  intro scope hscope
  obtain ⟨s₁, s₂, hpass⟩ := of_run_forM h scope hscope
  obtain ⟨⟨⟩, c₁, htexts, hpass⟩ := of_run_bind hpass
  obtain ⟨⟨⟩, c₂, -, hinsert⟩ := of_run_bind hpass
  refine ⟨(of_run_bindTexts htexts).2 _ (by simp), fun hhead => ?_⟩
  have hcheck := (Table.of_insert (of_run_insert hinsert)).1
  rcases hname : scope.displayName with _ | ⟨b, rest⟩
  · simp [hname] at hhead
  · obtain rfl : b = 0 := by simpa [hname] using hhead
    simp [scopeTable, scopeRow, hname, lengthPositive] at hcheck

theorem Eligible.storable (h : Eligible owner context)
    (hrun : (persistMembershipContext owner context).run.run c = (.ok (), c')) :
    Storable owner context := by
  obtain ⟨⟨⟩, c₁, htexts, hrun⟩ := of_run_bind hrun
  obtain ⟨⟨⟩, c₂, -, hrun⟩ := of_run_bind hrun
  obtain ⟨⟨⟩, c₃, hscopes, hrun⟩ := of_run_bind hrun
  obtain ⟨⟨⟩, c₄, hgroups, hrun⟩ := of_run_bind hrun
  obtain ⟨⟨⟩, c₅, hspecializations, hrun⟩ := of_run_bind hrun
  obtain ⟨⟨⟩, c₆, hteams, hrun⟩ := of_run_bind hrun
  obtain ⟨⟨⟩, c₇, hroles, hmemberships⟩ := of_run_bind hrun
  have htexts := (of_run_bindTexts htexts).2
  have hscopes := of_run_persistScopes hscopes
  have hgroups := (of_run_insertEach groupTable_lawful hgroups).1
  have hspecializations := (of_run_insertEach specializationTable_lawful hspecializations).1
  have hteams := (of_run_insertEach teamTable_lawful hteams).1
  have hroles := of_run_persistRoles hroles
  have hmemberships := of_run_persistMemberships hmemberships
  refine
    { owned := h.owned
      roleIds_unique := fun m hm => (hmemberships m hm).2.1
      transmit_unique := fun role hrole => (hroles role hrole).2.1
      receive_unique := fun role hrole => (hroles role hrole).2.2
      limits := h.limits
      identifiers := h.identifiers
      version := h.version
      priorities := h.priorities
      scope_names := fun scope hscope => (hscopes scope hscope).2
      lengths := fun text htext => ?_ }
  rcases List.mem_append.1 htext with htext | htext
  · rcases mem_identifiers.1 htext with rfl | rfl | ⟨group, hgroup, rfl⟩ |
      ⟨specialization, hmem, rfl⟩ | ⟨team, hteam, rfl⟩ | ⟨role, hrole, rfl⟩ |
      ⟨m, hm, rfl | ⟨roleId, hrole, rfl⟩⟩
    · exact htexts _ (by simp)
    · exact htexts _ (by simp)
    · exact (hgroups group hgroup).1 _ (by simp)
    · exact (hspecializations specialization hmem).1 _ (by simp)
    · exact (hteams team hteam).1 _ (by simp)
    · exact (hroles role hrole).1
    · exact (hmemberships m hm).1
    · exact (hmemberships m hm).2.2 roleId hrole
  · rcases mem_displayNames.1 htext with ⟨scope, hscope, rfl⟩ | ⟨group, hgroup, rfl⟩ |
      ⟨specialization, hmem, rfl⟩ | ⟨team, hteam, rfl⟩
    · exact (hscopes scope hscope).1
    · exact (hgroups group hgroup).1 _ (by simp)
    · exact (hspecializations specialization hmem).1 _ (by simp)
    · exact (hteams team hteam).1 _ (by simp)

end Stored

variable {d : MembershipDatabase}

/-- An update succeeds only if its rows can be inserted. -/
theorem Eligible.of_succeeds (h : Eligible owner context)
    (hok : ((upsertIfNewer owner context).run.run d.connection).1 = .ok none) :
    Storable owner context := by
  rw [run_upsertIfNewer h.owned] at hok
  rcases hrun : (replaceIfNewer owner context).run.run ⟨d.tables, some d.tables⟩ with ⟨e | r, c⟩
  · rw [run_tryCatch_error hrun] at hok
    cases hok
  rw [run_tryCatch_ok hrun] at hok
  obtain rfl := Except.ok.inj hok
  obtain ⟨newer, c₁, -, hrun⟩ := of_run_bind hrun
  rcases newer with _ | _
  · obtain ⟨⟨⟩, c₂, -, hrun⟩ := of_run_bind hrun
    obtain ⟨⟨⟩, c₃, -, hrun⟩ := of_run_bind hrun
    obtain ⟨⟨⟩, c₄, hpersist, -⟩ := of_run_bind hrun
    exact h.storable hpersist
  · cases hrun

/-- The hierarchy that is read back, and the directories made of it, against the original. -/
structure ReadInOrder (h h' : Hierarchy) : Prop where
  siblings : h.ByIdentifier h'
  groups_kept : h'.groups = h.groups ↔ Ascending Group.id h.groups
  specializations_kept : h'.specializations = h.specializations
    ↔ Ascending Specialization.id h.specializations
  teams_kept : h'.teams = h.teams ↔ Ascending Team.id h.teams
  nodes_kept : ∀ group, DirectoryApplicationService.directoryNodes h' group
      = DirectoryApplicationService.directoryNodes h group
    ↔ Ascending Specialization.id (h.specializationsOf group) ∧ Ascending Team.id (h.teamsOf group)

theorem Storable.load_inOrder (h : Storable owner context) :
    ∃ context', ((currentFor owner).run.run ⟨replaced owner context d.tables, none⟩).1
        = .ok (some context')
      ∧ ReadInOrder context.snapshot.hierarchy context'.snapshot.hierarchy := by
  obtain ⟨context', hload, -⟩ := h.load_own (fresh_restrict owner.value d.tables)
  have horder := load_byIdentifier (fresh_restrict owner.value d.tables) hload
  refine ⟨context', hload, horder, ?_, ?_, ?_, fun group =>
    DirectoryApplicationService.directoryNodes_byIdentifier horder group⟩
  · rw [horder.groups]
    exact byIdentifier_eq_iff
  · rw [horder.specializations]
    exact byIdentifier_eq_iff
  · rw [horder.teams]
    exact byIdentifier_eq_iff

/-- An update with a newer context succeeds exactly if the tables can hold the context; then its
siblings are read back in the order of their identifiers. -/
theorem upsertIfNewer_orders (d : MembershipDatabase) {owner : PlayerId}
    {context : AuthoritativeMembershipContext} (h : Eligible owner context)
    (hnewer : Superseded d.tables owner context.snapshot.version) :
    (((upsertIfNewer owner context).run.run d.connection).1 = .ok none ↔ Storable owner context)
      ∧ (((upsertIfNewer owner context).run.run d.connection).1 = .ok none →
        ∃ context', ((currentFor owner).run.run
            ((upsertIfNewer owner context).run.run d.connection).2).1 = .ok (some context')
          ∧ ReadInOrder context.snapshot.hierarchy context'.snapshot.hierarchy) := by
  refine ⟨⟨h.of_succeeds, fun hs => hs.succeeds_iff.2 hnewer⟩, fun hok => ?_⟩
  have hs := h.of_succeeds hok
  rw [hs.run_succeeds hnewer]
  exact hs.load_inOrder

theorem Storable.eligible (h : Storable owner context) : Eligible owner context :=
  ⟨h.owned, h.limits, h.identifiers, h.version, h.priorities⟩

end Contexts

/-! ## Samples -/

section Samples

open Sample

/-- The sender has his role twice. -/
def repeatedMembers : List VoiceMembership :=
  [{ member alice with roleIds := [speaker, speaker] }, member bob]

theorem repeatedMembers_unique : (repeatedMembers.map VoiceMembership.playerId).Nodup := by decide

theorem repeatedMembers_valid :
    ∀ m ∈ repeatedMembers, MembershipSnapshot.validPath hierarchy m = true := by decide

theorem repeatedMembers_sorted :
    repeatedMembers.Pairwise fun a b => MembershipSnapshot.byPlayer a b = true := by decide

def repeatedContext : AuthoritativeMembershipContext :=
  ⟨⟨1, hierarchy, repeatedMembers, Nat.one_pos, repeatedMembers_unique, repeatedMembers_valid,
    repeatedMembers_sorted⟩, rolePolicy⟩

theorem staffed_valid : ∀ m ∈ (snapshot 1 Nat.one_pos).memberships,
    MembershipSnapshot.validPath staffedHierarchy m = true := by decide

/-- The team stands before the staff. -/
def unsortedContext : AuthoritativeMembershipContext :=
  { context 1 Nat.one_pos with
    snapshot := { snapshot 1 Nat.one_pos with
      hierarchy := staffedHierarchy
      paths_valid := staffed_valid } }

theorem eligible_repeatedContext : Eligible alice repeatedContext :=
  ⟨by decide, by decide, by decide, by decide, by decide⟩

theorem storable_unsortedContext : Storable alice unsortedContext where
  owned := by decide
  roleIds_unique := by decide
  transmit_unique := by decide
  receive_unique := by decide
  limits := by decide
  identifiers := by decide
  version := by decide
  priorities := by decide
  scope_names := by decide
  lengths := by decide

theorem superseded_empty {owner : PlayerId} : Superseded emptyDatabase.tables owner 1 :=
  fun _ hrow => absurd hrow List.not_mem_nil

theorem upsertIfNewer_orders_sample :
    ∃ context', ((currentFor alice).run.run
        ((upsertIfNewer alice unsortedContext).run.run emptyDatabase.connection).2).1
          = .ok (some context')
      ∧ ReadInOrder unsortedContext.snapshot.hierarchy context'.snapshot.hierarchy := by
  have horders := upsertIfNewer_orders emptyDatabase storable_unsortedContext.eligible
    superseded_empty
  exact horders.2 (horders.1.2 storable_unsortedContext)

/-- A role that is assigned twice is not accepted; a team that stands before the staff is read back
behind it, and so it is in the directory. -/
theorem upsertIfNewer_refuses_or_reorders :
    (Eligible alice repeatedContext ∧ Superseded emptyDatabase.tables alice 1
      ∧ ((upsertIfNewer alice repeatedContext).run.run emptyDatabase.connection).1 ≠ .ok none)
    ∧ Eligible alice unsortedContext
      ∧ ∃ context', ((currentFor alice).run.run
          ((upsertIfNewer alice unsortedContext).run.run emptyDatabase.connection).2).1
            = .ok (some context')
        ∧ context'.snapshot.hierarchy.teams ≠ staffedHierarchy.teams
        ∧ DirectoryApplicationService.directoryNodes context'.snapshot.hierarchy
            ⟨group, bytes "Group", true⟩
          ≠ DirectoryApplicationService.directoryNodes staffedHierarchy
            ⟨group, bytes "Group", true⟩ := by
  have hunsorted : ¬ Ascending Team.id staffedHierarchy.teams := by
    unfold Ascending
    decide
  refine ⟨⟨eligible_repeatedContext, superseded_empty, by decide +kernel⟩,
    storable_unsortedContext.eligible, ?_⟩
  obtain ⟨context', hload, horder⟩ := storable_unsortedContext.load_inOrder (d := emptyDatabase)
  refine ⟨context', ?_, fun hteams => hunsorted (horder.teams_kept.1 hteams), fun hnodes => ?_⟩
  · rw [storable_unsortedContext.run_succeeds superseded_empty]
    exact hload
  · exact hunsorted ((horder.nodes_kept _).1 hnodes).2

end Samples

end SqliteControlPlaneRepository

end VoxTree

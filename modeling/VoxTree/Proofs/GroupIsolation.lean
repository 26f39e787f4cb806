import VoxTree.Lib.Noninterference
import VoxTree.Proofs.DirectoryNodes
import VoxTree.Proofs.Routing

/-!
# A group sees itself only

Two runs whose calls by the members of a group find the group alike answer these calls alike,
whatever happens outside it (`group_isolation`). Only the size of the version numbers comes from
outside: a directory read throws where they are exhausted.
-/

namespace VoxTree

open DirectoryApplicationService

/-! ## What is visible in a group -/

/-- The group of the player's membership. -/
def groupOf (memberships : Memberships) (actor : PlayerId) : Option GroupId :=
  (memberships actor).bind fun context =>
    (context.snapshot.find actor).map VoiceMembership.groupId

/-- The group of the member who makes the call. -/
def DirectoryOp.callerGroup : DirectoryOp → Option GroupId
  | .directoryFor memberships actor => groupOf memberships actor
  | .presenceFor memberships _ actor _ _ => groupOf memberships actor
  | _ => none

variable {ρ : Type}

/-- What is released of a role; `shown` is whatever else of it is looked at, such as its version. -/
def PublicDirectoryRole.released (shown : PublicDirectoryRole → ρ) (role : PublicDirectoryRole) :
    RoleId × Bytes × ρ :=
  (role.roleId, role.displayName, shown role)

namespace DirectoryApplicationService

/-- A member of the group as the others see him. -/
def visibleMember (d : DirectoryApplicationService) (g : GroupId)
    (context : AuthoritativeMembershipContext) (p : PlayerId) : Option DirectoryParticipant :=
  ((context.snapshot.find p).filter fun m => m.groupId = g).map d.participant

/-- The group, what is below it, its members and their public roles are the same. -/
structure SameVisible (shown : PublicDirectoryRole → ρ) (g : GroupId)
    (d d' : DirectoryApplicationService) (context context' : AuthoritativeMembershipContext) :
    Prop where
  group : context.snapshot.hierarchy.findGroup g = context'.snapshot.hierarchy.findGroup g
  specializations : ∀ group, context.snapshot.hierarchy.findGroup g = some group →
    context.snapshot.hierarchy.specializationsOf group
      = context'.snapshot.hierarchy.specializationsOf group
  teams : ∀ group, context.snapshot.hierarchy.findGroup g = some group →
    context.snapshot.hierarchy.teamsOf group = context'.snapshot.hierarchy.teamsOf group
  members : ∀ p, d.visibleMember g context p = d'.visibleMember g context' p
  roles : ∀ p participant, d.visibleMember g context p = some participant →
    ∀ r ∈ participant.publicRoleIds, (d.publicRoles[r]?).map (PublicDirectoryRole.released shown)
      = (d'.publicRoles[r]?).map (PublicDirectoryRole.released shown)

end DirectoryApplicationService

/-- The same call, finding the group alike. -/
inductive Agrees (shown : PublicDirectoryRole → ρ) (g : GroupId) :
    DirectoryApplicationService × DirectoryOp → DirectoryApplicationService × DirectoryOp → Prop
  | directoryFor {d d' : DirectoryApplicationService} {memberships memberships' : Memberships}
      {actor : PlayerId} {context context' : AuthoritativeMembershipContext}
      (hcontext : memberships actor = some context)
      (hcontext' : memberships' actor = some context')
      (hvisible : SameVisible shown g d d' context context') :
      Agrees shown g (d, .directoryFor memberships actor) (d', .directoryFor memberships' actor)
  | presenceFor {d d' : DirectoryApplicationService} {memberships memberships' : Memberships}
      {connectedScopeCount connectedScopeCount' : PlayerId → ℕ} {actor : PlayerId}
      {context context' : AuthoritativeMembershipContext}
      (hcontext : memberships actor = some context)
      (hcontext' : memberships' actor = some context')
      (hvisible : SameVisible shown g d d' context context')
      (hpresence : ∀ p, (d.visibleMember g context p).isSome = true →
        (connectedScopeCount p = 0 ↔ connectedScopeCount' p = 0))
      (afterVersion : Option ℕ) (observedAt : TimePoint) :
      Agrees shown g
        (d, .presenceFor memberships connectedScopeCount actor afterVersion observedAt)
        (d', .presenceFor memberships' connectedScopeCount' actor afterVersion observedAt)

/-- What a read of the directory or of presence ends in. -/
inductive DirectoryResult
  | directory (r : Except ServiceException (Except DirectoryReadError DirectorySnapshot))
  | presence (r : Except ServiceException
      (Except DirectoryPresenceReadError DirectoryPresenceSnapshot))

def DirectoryOp.result (d : DirectoryApplicationService) : DirectoryOp → Option DirectoryResult
  | .directoryFor memberships actor => some (.directory (d.directoryFor memberships actor).1)
  | .presenceFor memberships connectedScopeCount actor afterVersion observedAt =>
    some (.presence
      (d.presenceFor memberships connectedScopeCount actor afterVersion observedAt).1)
  | _ => none

/-- The same answer, up to the versions of directories. -/
inductive SameResult (shown : PublicDirectoryRole → ρ) :
    Option DirectoryResult → Option DirectoryResult → Prop
  | refused (e : DirectoryReadError) :
      SameResult shown (some (.directory (.ok (.error e)))) (some (.directory (.ok (.error e))))
  | directory {a b : DirectorySnapshot} (hgroup : a.groupId = b.groupId)
      (hnodes : a.nodes = b.nodes)
      (hroles : a.publicRoles.map (PublicDirectoryRole.released shown)
        = b.publicRoles.map (PublicDirectoryRole.released shown))
      (hparticipants : a.participants = b.participants) :
      SameResult shown (some (.directory (.ok (.ok a)))) (some (.directory (.ok (.ok b))))
  | presence (r : Except ServiceException
      (Except DirectoryPresenceReadError DirectoryPresenceSnapshot)) :
      SameResult shown (some (.presence r)) (some (.presence r))

/-- The calls by members of the group in a run of the service, each with the service before it. -/
def groupCalls (g : GroupId) (ops : List DirectoryOp) :
    List (DirectoryApplicationService × DirectoryOp) :=
  Noninterference.observed DirectoryOp.call (fun op => op.callerGroup = some g) {} ops

/-- The directory that the call was answered with. -/
def answered (calls : List (DirectoryApplicationService × DirectoryOp)) (i : ℕ) :
    Option DirectorySnapshot :=
  calls[i]?.bind fun call => call.2.directoryAnswer call.1

/-- The second answer is the next one after the first. -/
structure NextAnswer (calls : List (DirectoryApplicationService × DirectoryOp)) (i j : ℕ)
    (a b : DirectorySnapshot) : Prop where
  lt : i < j
  first : answered calls i = some a
  second : answered calls j = some b
  between : ∀ k, i < k → k < j → answered calls k = none

/-- The read throws, the version space of its group being exhausted. -/
def Exhausted (call : DirectoryApplicationService × DirectoryOp) : Prop :=
  call.2.result call.1 = some (.directory (.error .other))

namespace DirectoryApplicationService

/-! ## What a read shows is visible in the group -/

theorem visibleMemberships_eq (snapshot : MembershipSnapshot) (g : GroupId) :
    visibleMemberships snapshot g = snapshot.memberships.filter fun m => m.groupId = g :=
  (snapshot.sorted.sublist List.filter_sublist).insertionSort_eq

theorem sorted_players (snapshot : MembershipSnapshot) (g : GroupId) :
    ((visibleMemberships snapshot g).map VoiceMembership.playerId).Pairwise
      fun a b => (compare a b).isLE = true := by
  rw [visibleMemberships_eq, List.pairwise_map]
  exact snapshot.sorted.sublist List.filter_sublist

theorem visibleMember_eq_some {d : DirectoryApplicationService} {g : GroupId}
    {context : AuthoritativeMembershipContext} {p : PlayerId} {participant : DirectoryParticipant} :
    d.visibleMember g context p = some participant
      ↔ ∃ m ∈ visibleMemberships context.snapshot g, m.playerId = p
        ∧ d.participant m = participant := by
  unfold visibleMember
  simp only [Option.map_eq_some_iff, Option.filter_eq_some_iff, MembershipSnapshot.find_iff,
    mem_visibleMemberships, decide_eq_true_eq]
  constructor
  · rintro ⟨m, ⟨⟨hm, hp⟩, hg⟩, hparticipant⟩
    exact ⟨m, ⟨hm, hg⟩, hp, hparticipant⟩
  · rintro ⟨m, ⟨hm, hg⟩, hp, hparticipant⟩
    exact ⟨m, ⟨⟨hm, hp⟩, hg⟩, hparticipant⟩

theorem isSome_visibleMember {d : DirectoryApplicationService} {g : GroupId}
    {context : AuthoritativeMembershipContext} {p : PlayerId} :
    (d.visibleMember g context p).isSome = true
      ↔ p ∈ (visibleMemberships context.snapshot g).map VoiceMembership.playerId := by
  rw [Option.isSome_iff_exists, List.mem_map]
  constructor
  · rintro ⟨participant, h⟩
    obtain ⟨m, hm, hp, -⟩ := visibleMember_eq_some.1 h
    exact ⟨m, hm, hp⟩
  · rintro ⟨m, hm, hp⟩
    exact ⟨_, visibleMember_eq_some.2 ⟨m, hm, hp, rfl⟩⟩

namespace SameVisible

variable {shown : PublicDirectoryRole → ρ} {g : GroupId} {d d' : DirectoryApplicationService}
  {context context' : AuthoritativeMembershipContext}

theorem players (h : SameVisible shown g d d' context context') :
    (visibleMemberships context.snapshot g).map VoiceMembership.playerId
      = (visibleMemberships context'.snapshot g).map VoiceMembership.playerId := by
  refine Unique.eq_of_sorted (sorted_players _ g) (sorted_players _ g)
    (nodup_visibleMemberships _ g) (nodup_visibleMemberships _ g) fun p => ?_
  rw [← isSome_visibleMember (d := d), h.members p, isSome_visibleMember]

theorem participants (h : SameVisible shown g d d' context context') :
    (visibleMemberships context.snapshot g).map d.participant
      = (visibleMemberships context'.snapshot g).map d'.participant := by
  have hlisted : ∀ (d : DirectoryApplicationService) (context : AuthoritativeMembershipContext),
      ((visibleMemberships context.snapshot g).map d.participant).map some
        = ((visibleMemberships context.snapshot g).map VoiceMembership.playerId).map
          (d.visibleMember g context) := by
    intro d context
    rw [List.map_map, List.map_map]
    refine List.map_congr_left fun m hm => ?_
    exact (visibleMember_eq_some.2 ⟨m, hm, rfl, rfl⟩).symm
  refine List.map_injective_iff.2 (Option.some_injective _) ?_
  rw [hlisted, hlisted, h.players, funext h.members]

theorem mem_roleIds (h : SameVisible shown g d d' context context') (r : RoleId) :
    r ∈ (visibleMemberships context.snapshot g).flatMap d.publicRoleIds
      ↔ r ∈ (visibleMemberships context'.snapshot g).flatMap d'.publicRoleIds := by
  have hlisted : ∀ (d : DirectoryApplicationService) (context : AuthoritativeMembershipContext),
      r ∈ (visibleMemberships context.snapshot g).flatMap d.publicRoleIds
        ↔ ∃ participant ∈ (visibleMemberships context.snapshot g).map d.participant,
          r ∈ participant.publicRoleIds := by
    intro d context
    simp only [List.mem_flatMap, List.mem_map, exists_exists_and_eq_and, participant,
      mem_sortedUnique]
  rw [hlisted, hlisted, h.participants]

theorem publicRoles (h : SameVisible shown g d d' context context') :
    ((sortedUnique ((visibleMemberships context.snapshot g).flatMap d.publicRoleIds)).filterMap
        fun r => d.publicRoles[r]?).map (PublicDirectoryRole.released shown)
      = ((sortedUnique
          ((visibleMemberships context'.snapshot g).flatMap d'.publicRoleIds)).filterMap
            fun r => d'.publicRoles[r]?).map (PublicDirectoryRole.released shown) := by
  rw [List.map_filterMap, List.map_filterMap, ← sortedUnique_congr h.mem_roleIds]
  refine List.filterMap_congr fun r hr => ?_
  obtain ⟨m, hm, hassigned⟩ := List.mem_flatMap.1 (mem_sortedUnique.1 hr)
  exact h.roles m.playerId (d.participant m) (visibleMember_eq_some.2 ⟨m, hm, rfl, rfl⟩) r
    (mem_sortedUnique.2 hassigned)

theorem nodes (h : SameVisible shown g d d' context context') {group : Group}
    (hgroup : context.snapshot.hierarchy.findGroup g = some group) :
    directoryNodes context.snapshot.hierarchy group
      = directoryNodes context'.snapshot.hierarchy group := by
  have hspecializations := h.specializations group hgroup
  have hunique : ∀ hierarchy : Hierarchy,
      ((hierarchy.specializationsOf group).map Specialization.id).Nodup := fun hierarchy =>
    hierarchy.specializations_unique.sublist (List.filter_sublist.map _)
  have hlisted : ∀ hierarchy : Hierarchy, directoryNodes hierarchy group
      = ⟨group.id.value, .group, none, group.displayName, 0⟩
        :: (((hierarchy.specializationsOf group).zipIdx.map fun entry =>
            ⟨entry.1.id.value, .specialization, some group.id.value, entry.1.displayName,
              entry.2⟩)
          ++ teamNodes ((hierarchy.specializationsOf group).foldl
            (fun next specialization => next.insert specialization.id 0) ∅)
              (hierarchy.teamsOf group)) := by
    intro hierarchy
    have hteams := teamNodes_filter hierarchy.teams ((hierarchy.specializationsOf group).foldl
      (fun next specialization => next.insert specialization.id 0) ∅)
    simp only [contains_firstIndices (hunique hierarchy)] at hteams
    have hlisted : teamNodes ((hierarchy.specializationsOf group).foldl
        (fun next specialization => next.insert specialization.id 0) ∅) (hierarchy.teamsOf group)
          = teamNodes ((hierarchy.specializationsOf group).foldl
            (fun next specialization => next.insert specialization.id 0) ∅) hierarchy.teams :=
      hteams
    rw [hlisted]
    rfl
  rw [hlisted, hlisted, hspecializations, h.teams group hgroup]

end SameVisible

/-! ## Calls of others -/

theorem currentContextFor_group {memberships : Memberships} {actor : PlayerId}
    {context : AuthoritativeMembershipContext} {membership : VoiceMembership}
    (h : currentContextFor memberships actor = some (context, membership)) :
    groupOf memberships actor = some membership.groupId := by
  obtain ⟨hcontext, hmembership⟩ := currentContextFor_ok h
  unfold groupOf
  rw [hcontext, Option.bind_some, hmembership, Option.map_some]

/-- A call writes the presence of no group but the caller's. -/
theorem call_presenceVersions (d : DirectoryApplicationService) {g : GroupId} {op : DirectoryOp}
    (h : op.callerGroup ≠ some g) : (op.call d).presenceVersions[g]? = d.presenceVersions[g]? := by
  cases op with
  | upsertProfile profile => rw [DirectoryOp.call, upsertProfile_presenceVersions]
  | replacePublicRoles catalogVersion roles =>
    rw [DirectoryOp.call, replacePublicRoles_presenceVersions]
  | directoryFor memberships actor => rw [DirectoryOp.call, directoryFor_presenceVersions]
  | presenceFor memberships connectedScopeCount actor afterVersion observedAt =>
    rw [DirectoryOp.call]
    unfold presenceFor
    split
    · rfl
    rename_i context membership hcurrent
    split
    · rfl
    split
    · rfl
    have hgroup : membership.groupId ≠ g := fun hgroup =>
      h (hgroup ▸ currentContextFor_group hcurrent)
    simp only [Std.ExtTreeMap.getElem?_insert, Std.LawfulEqCmp.compare_eq_iff_eq, hgroup,
      if_false]

/-! ## Calls of members -/

/-- The membership of a caller in his group, and whether the group can be read. -/
theorem currentContextFor_eq {memberships : Memberships} {actor : PlayerId}
    {context : AuthoritativeMembershipContext} {g : GroupId}
    (hcontext : memberships actor = some context) (h : groupOf memberships actor = some g) :
    ∃ membership, membership.groupId = g
      ∧ currentContextFor memberships actor
        = if (context.snapshot.hierarchy.findGroup g).any Group.active then
            some (context, membership) else none := by
  unfold groupOf at h
  rw [hcontext, Option.bind_some, Option.map_eq_some_iff] at h
  obtain ⟨membership, hmembership, hgroup⟩ := h
  refine ⟨membership, hgroup, ?_⟩
  unfold currentContextFor
  simp only [hcontext, hmembership, hgroup]

section Caller

variable {shown : PublicDirectoryRole → ρ} {g : GroupId} {d d' : DirectoryApplicationService}
  {memberships memberships' : Memberships} {actor : PlayerId}
  {context context' : AuthoritativeMembershipContext}

theorem directoryFor_inactive (hcontext : memberships actor = some context)
    (h : groupOf memberships actor = some g)
    (hactive : (context.snapshot.hierarchy.findGroup g).any Group.active = false) :
    d.directoryFor memberships actor = (.ok (.error .directoryUnavailable), d) := by
  obtain ⟨membership, -, hcurrent⟩ := currentContextFor_eq hcontext h
  unfold directoryFor
  simp only [hcurrent, hactive, Bool.false_eq_true, if_false]

theorem directoryFor_active (hcontext : memberships actor = some context)
    (h : groupOf memberships actor = some g) {group : Group}
    (hgroup : context.snapshot.hierarchy.findGroup g = some group)
    (hactive : group.active = true) :
    let visible := visibleMemberships context.snapshot g
    let content := d.directoryContent context.snapshot.hierarchy group visible
    if maximumDirectoryParticipants < visible.length then
      (d.directoryFor memberships actor).1 = .ok (.error .directoryLimitExceeded)
    else (d.directoryFor memberships actor).1 = .error .other
      ∨ ∃ version, (d.directoryFor memberships actor).1
        = .ok (.ok ⟨version, g, content.nodes, content.publicRoles, content.participants⟩) := by
  obtain ⟨membership, rfl, hcurrent⟩ := currentContextFor_eq hcontext h
  unfold directoryFor makeDirectory
  simp only [hcurrent, hgroup, hactive, Option.any_some, if_true, Bool.not_true,
    Bool.false_eq_true, if_false]
  split_ifs
  · rfl
  · split
    · exact .inl rfl
    · exact .inr ⟨_, rfl⟩

/-- Members who find the group alike read the same directory, where neither finds the versions
exhausted. -/
theorem directoryFor_same (hcontext : memberships actor = some context)
    (hcontext' : memberships' actor = some context') (h : groupOf memberships actor = some g)
    (h' : groupOf memberships' actor = some g)
    (hvisible : SameVisible shown g d d' context context') :
    SameResult shown (DirectoryOp.result d (.directoryFor memberships actor))
        (DirectoryOp.result d' (.directoryFor memberships' actor))
      ∨ Exhausted (d, .directoryFor memberships actor)
      ∨ Exhausted (d', .directoryFor memberships' actor) := by
  unfold Exhausted DirectoryOp.result
  simp only
  rcases hactive : (context.snapshot.hierarchy.findGroup g).any Group.active with _ | _
  · have hactive' := hactive
    rw [hvisible.group] at hactive'
    rw [directoryFor_inactive hcontext h hactive, directoryFor_inactive hcontext' h' hactive']
    exact .inl (.refused .directoryUnavailable)
  obtain ⟨group, hgroup, hactive⟩ := (Option.any_eq_true _ _).1 hactive
  have hgroup' := hvisible.group ▸ hgroup
  have hread := directoryFor_active (d := d) hcontext h hgroup hactive
  have hread' := directoryFor_active (d := d') hcontext' h' hgroup' hactive
  have hlength : (visibleMemberships context.snapshot g).length
      = (visibleMemberships context'.snapshot g).length := by
    simpa using congrArg List.length hvisible.players
  simp only [← hlength] at hread hread'
  split_ifs at hread hread' with hlimit
  · rw [hread, hread']
    exact .inl (.refused .directoryLimitExceeded)
  rcases hread with hthrown | ⟨version, hread⟩
  · exact .inr (.inl (by rw [hthrown]))
  rcases hread' with hthrown | ⟨version', hread'⟩
  · exact .inr (.inr (by rw [hthrown]))
  rw [hread, hread']
  exact .inl (.directory rfl (hvisible.nodes hgroup) hvisible.publicRoles hvisible.participants)

theorem currentStates_filter (connectedScopeCount : PlayerId → ℕ) :
    ∀ (memberships : List VoiceMembership) (states : PresenceStates),
    currentStates g connectedScopeCount states (memberships.filter fun m => m.groupId = g)
      = currentStates g connectedScopeCount states memberships
  | [], _ => rfl
  | m :: rest, states => by
    by_cases hgroup : m.groupId = g
    · rw [List.filter_cons_of_pos (by simpa using hgroup)]
      simp only [currentStates, hgroup, ne_eq, not_true, if_false,
        currentStates_filter connectedScopeCount rest]
    · rw [List.filter_cons_of_neg (by simpa using hgroup),
        currentStates_filter connectedScopeCount rest]
      simp only [currentStates, hgroup, ne_eq, not_false_iff, if_true]

/-- What is read from the transport depends on who is in the group and who is connected only. -/
theorem currentStates_congr {connectedScopeCount connectedScopeCount' : PlayerId → ℕ} :
    ∀ {visible visible' : List VoiceMembership}, (∀ m ∈ visible, m.groupId = g) →
    (∀ m ∈ visible', m.groupId = g) →
    visible.map VoiceMembership.playerId = visible'.map VoiceMembership.playerId →
    (∀ p ∈ visible.map VoiceMembership.playerId,
      connectedScopeCount p = 0 ↔ connectedScopeCount' p = 0) →
    ∀ states : PresenceStates, currentStates g connectedScopeCount states visible
      = currentStates g connectedScopeCount' states visible'
  | [], [], _, _, _, _, _ => rfl
  | m :: visible, m' :: visible', hall, hall', hplayers, hpresence, states => by
    obtain ⟨hplayer, hplayers⟩ := List.cons.inj hplayers
    have hpresent := hpresence m.playerId List.mem_cons_self
    have ih := currentStates_congr (fun x hx => hall x (List.mem_cons_of_mem m hx))
      (fun x hx => hall' x (List.mem_cons_of_mem m' hx)) hplayers
      fun p hp => hpresence p (List.mem_cons_of_mem m.playerId hp)
    simp only [currentStates, hall m List.mem_cons_self, hall' m' List.mem_cons_self, ne_eq,
      not_true, if_false, ← hplayer, hpresent, ih]

theorem SameVisible.currentStates (h : SameVisible shown g d d' context context')
    {connectedScopeCount connectedScopeCount' : PlayerId → ℕ}
    (hpresence : ∀ p, (d.visibleMember g context p).isSome = true →
      (connectedScopeCount p = 0 ↔ connectedScopeCount' p = 0)) :
    currentStates g connectedScopeCount ∅ context.snapshot.memberships
      = currentStates g connectedScopeCount' ∅ context'.snapshot.memberships := by
  rw [← currentStates_filter, ← currentStates_filter connectedScopeCount',
    ← visibleMemberships_eq, ← visibleMemberships_eq]
  exact currentStates_congr (fun _ hm => (mem_visibleMemberships.1 hm).2)
    (fun _ hm => (mem_visibleMemberships.1 hm).2) h.players
    (fun p hp => hpresence p (isSome_visibleMember.2 hp)) ∅

/-- Members who find the group alike read the same presence from equal records and leave equal
records behind. -/
theorem presenceFor_same (hcontext : memberships actor = some context)
    (hcontext' : memberships' actor = some context') (h : groupOf memberships actor = some g)
    (h' : groupOf memberships' actor = some g)
    (hvisible : SameVisible shown g d d' context context')
    {connectedScopeCount connectedScopeCount' : PlayerId → ℕ}
    (hpresence : ∀ p, (d.visibleMember g context p).isSome = true →
      (connectedScopeCount p = 0 ↔ connectedScopeCount' p = 0))
    (afterVersion : Option ℕ) (observedAt : TimePoint)
    (hrecord : d.presenceVersions[g]? = d'.presenceVersions[g]?) :
    let r := d.presenceFor memberships connectedScopeCount actor afterVersion observedAt
    let r' := d'.presenceFor memberships' connectedScopeCount' actor afterVersion observedAt
    r.1 = r'.1 ∧ r.2.presenceVersions[g]? = r'.2.presenceVersions[g]? := by
  obtain ⟨membership, hgroup, hcurrent⟩ := currentContextFor_eq hcontext h
  obtain ⟨membership', hgroup', hcurrent'⟩ := currentContextFor_eq hcontext' h'
  rw [← hvisible.group] at hcurrent'
  unfold presenceFor
  simp only [hcurrent, hcurrent']
  rcases (context.snapshot.hierarchy.findGroup g).any Group.active with _ | _
  · exact ⟨rfl, hrecord⟩
  simp only [if_true, hgroup, hgroup', hvisible.currentStates hpresence]
  rcases currentStates g connectedScopeCount' ∅ context'.snapshot.memberships with _ | current
  · exact ⟨rfl, hrecord⟩
  simp only [hrecord]
  rcases ((d'.presenceVersions[g]?).getD {}).observe current with _ | versioned
  · exact ⟨rfl, hrecord⟩
  · simp only [Std.ExtTreeMap.getElem?_insert_self, and_self]

/-- Calls that agree answer alike, and leave the presence of the group alike. -/
theorem agrees_call {x y : DirectoryApplicationService × DirectoryOp}
    (hx : x.2.callerGroup = some g) (hy : y.2.callerGroup = some g) (h : Agrees shown g x y)
    (hrecord : x.1.presenceVersions[g]? = y.1.presenceVersions[g]?) :
    (SameResult shown (x.2.result x.1) (y.2.result y.1) ∨ Exhausted x ∨ Exhausted y)
      ∧ (x.2.call x.1).presenceVersions[g]? = (y.2.call y.1).presenceVersions[g]? := by
  cases h with
  | directoryFor hcontext hcontext' hvisible =>
    refine ⟨directoryFor_same hcontext hcontext' hx hy hvisible, ?_⟩
    rw [DirectoryOp.call, DirectoryOp.call, directoryFor_presenceVersions,
      directoryFor_presenceVersions]
    exact hrecord
  | presenceFor hcontext hcontext' hvisible hpresence afterVersion observedAt =>
    obtain ⟨hresult, hleft⟩ := presenceFor_same hcontext hcontext' hx hy hvisible hpresence
      afterVersion observedAt hrecord
    refine ⟨.inl ?_, hleft⟩
    simp only [DirectoryOp.result, hresult]
    exact .presence _

end Caller

theorem versionFor_none {d d' : DirectoryApplicationService} {g : GroupId} {sourceVersion : ℕ}
    {fingerprint : Bytes} (h : d.versionFor g sourceVersion fingerprint = (none, d')) :
    ∃ versioned, d.directoryVersions[g]? = some versioned
      ∧ UInt64.size ≤ versioned.version + 1 := by
  unfold versionFor at h
  rcases hrecord : d.directoryVersions[g]? with _ | versioned
  · simp [hrecord] at h
  · rw [hrecord] at h
    simp only at h
    split_ifs at h with hsame hexhausted
    · simp at h
    · exact ⟨versioned, rfl, hexhausted⟩
    · simp at h

/-- A read that throws finds the last version in the record of the caller's group. -/
theorem exhausted_record {g : GroupId} {call : DirectoryApplicationService × DirectoryOp}
    (hgroup : call.2.callerGroup = some g) (h : Exhausted call) :
    ∃ versioned, call.1.directoryVersions[g]? = some versioned
      ∧ UInt64.size ≤ versioned.version + 1 := by
  obtain ⟨d, op⟩ := call
  cases op with
  | upsertProfile profile => cases h
  | replacePublicRoles catalogVersion roles => cases h
  | presenceFor memberships connectedScopeCount actor afterVersion observedAt => cases h
  | directoryFor memberships actor =>
    unfold Exhausted DirectoryOp.result directoryFor at h
    rcases hcurrent : currentContextFor memberships actor with _ | ⟨context, membership⟩
    · simp [hcurrent] at h
    obtain rfl : membership.groupId = g :=
      Option.some.inj ((currentContextFor_group hcurrent).symm.trans hgroup)
    simp only [hcurrent, Option.some.injEq, DirectoryResult.directory.injEq] at h
    unfold makeDirectory at h
    rcases hfound : context.snapshot.hierarchy.findGroup membership.groupId with _ | group
    · simp [hfound] at h
    simp only [hfound] at h
    split_ifs at h
    split at h
    · rename_i hversion
      exact versionFor_none hversion
    · cases h

/-! ## Versions -/

/-- A directory is the answer of a read of it. -/
theorem of_directoryAnswer {d : DirectoryApplicationService} {op : DirectoryOp}
    {a : DirectorySnapshot} (h : op.directoryAnswer d = some a) :
    ∃ memberships actor d', op = .directoryFor memberships actor
      ∧ d.directoryFor memberships actor = (.ok (.ok a), d') := by
  cases op with
  | upsertProfile profile => cases h
  | replacePublicRoles catalogVersion roles => cases h
  | presenceFor memberships connectedScopeCount actor afterVersion observedAt => cases h
  | directoryFor memberships actor =>
    rcases hread : d.directoryFor memberships actor with ⟨e | e | b, d'⟩
    · simp [DirectoryOp.directoryAnswer, hread] at h
    · simp [DirectoryOp.directoryAnswer, hread] at h
    obtain rfl : b = a := by simpa [DirectoryOp.directoryAnswer, hread] using h
    exact ⟨memberships, actor, d', rfl, hread⟩

theorem directoryAnswer_group {d : DirectoryApplicationService} {op : DirectoryOp}
    {a : DirectorySnapshot} (h : op.directoryAnswer d = some a) :
    op.callerGroup = some a.groupId := by
  obtain ⟨memberships, actor, d', rfl, hread⟩ := of_directoryAnswer h
  obtain ⟨context, membership, hcurrent, hmade⟩ := directoryFor_ok.1 hread
  obtain ⟨-, -, -, -, hgroup, -⟩ := makeDirectory_ok.1 hmade
  rw [hgroup]
  exact currentContextFor_group hcurrent

/-- The directories that the members of a group are answered with are those of the group. -/
theorem filterMap_observed (g : GroupId) : ∀ (ops : List DirectoryOp)
    (d : DirectoryApplicationService),
    (Noninterference.observed DirectoryOp.call (fun op => op.callerGroup = some g) d ops).filterMap
        (fun call => call.2.directoryAnswer call.1)
      = (directoryLog d ops).filter fun a => a.groupId = g
  | [], _ => rfl
  | op :: ops, d => by
    have ih := filterMap_observed g ops (op.call d)
    unfold Noninterference.observed directoryLog
    rw [List.filter_append, ← ih]
    split_ifs with hown
    · rw [List.filterMap_cons]
      rcases hanswer : op.directoryAnswer d with _ | a
      · rfl
      · have hgroup : a.groupId = g :=
          Option.some.inj ((directoryAnswer_group hanswer).symm.trans hown)
        simp [hgroup]
    · rcases hanswer : op.directoryAnswer d with _ | a
      · rfl
      · have hgroup : a.groupId ≠ g := fun hgroup =>
          hown ((directoryAnswer_group hanswer).trans (congrArg some hgroup))
        simp [hgroup]

end DirectoryApplicationService

/-- An answer and the next one stand side by side. -/
theorem NextAnswer.exists_append {calls : List (DirectoryApplicationService × DirectoryOp)}
    {i j : ℕ} {a b : DirectorySnapshot} (h : NextAnswer calls i j a b) :
    ∃ l₁ l₂, calls.filterMap (fun call => call.2.directoryAnswer call.1) = l₁ ++ a :: b :: l₂ := by
  obtain ⟨x, hx, ha⟩ := Option.bind_eq_some_iff.1 h.first
  obtain ⟨y, hy, hb⟩ := Option.bind_eq_some_iff.1 h.second
  obtain ⟨hi, rfl⟩ := List.getElem?_eq_some_iff.1 hx
  obtain ⟨hj, rfl⟩ := List.getElem?_eq_some_iff.1 hy
  have hbetween : ((calls.drop (i + 1)).take (j - (i + 1))).filterMap
      (fun call => call.2.directoryAnswer call.1) = [] := by
    refine List.filterMap_eq_nil_iff.2 fun call hcall => ?_
    obtain ⟨k, hk⟩ := List.mem_iff_getElem?.1 hcall
    rw [List.getElem?_take] at hk
    split_ifs at hk with hlt
    rw [List.getElem?_drop] at hk
    have hnone := h.between (i + 1 + k) (by omega) (by omega)
    unfold answered at hnone
    rwa [hk, Option.bind_some] at hnone
  have hsplit : calls = calls.take i ++ calls[i] :: ((calls.drop (i + 1)).take (j - (i + 1))
      ++ calls[j] :: calls.drop (j + 1)) := by
    have hrest : calls.drop (i + 1) = (calls.drop (i + 1)).take (j - (i + 1))
        ++ calls[j] :: calls.drop (j + 1) := by
      have hlt := h.lt
      have hdrop : (calls.drop (i + 1)).drop (j - (i + 1)) = calls.drop j := by
        rw [List.drop_drop]
        congr 1
        omega
      rw [← List.drop_eq_getElem_cons hj, ← hdrop, List.take_append_drop]
    rw [← hrest, ← List.drop_eq_getElem_cons hi, List.take_append_drop]
  refine ⟨(calls.take i).filterMap (fun call => call.2.directoryAnswer call.1),
    (calls.drop (j + 1)).filterMap (fun call => call.2.directoryAnswer call.1), ?_⟩
  conv_lhs => rw [hsplit]
  simp only [List.filterMap_append, List.filterMap_cons, ha, hb, hbetween, List.nil_append]

/-- From one answer to the next the version stays exactly if the fields of the content do. -/
theorem NextAnswer.version_eq_iff {g : GroupId} {ops : List DirectoryOp} {i j : ℕ}
    {a b : DirectorySnapshot} (h : NextAnswer (groupCalls g ops) i j a b) :
    a.version = b.version ↔ a.content.fields = b.content.fields := by
  obtain ⟨l₁, l₂, hsplit⟩ := h.exists_append
  unfold groupCalls at hsplit
  rw [filterMap_observed] at hsplit
  exact (directoryLog_versionStep hsplit).1.version_eq_iff

theorem fields_congr {a b : DirectorySnapshot} (h : a.SameContent b) :
    a.content.fields = b.content.fields := by
  have hroles : ∀ roles : List PublicDirectoryRole, roles.flatMap roleFields
      = (roles.map fun role => (role.roleId, role.displayName)).flatMap
        fun shown => [shown.1.value, shown.2] := fun roles => by
    rw [List.flatMap_map]
    rfl
  unfold DirectoryContent.fields DirectorySnapshot.content
  simp only [h.nodes, h.participants, hroles, h.publicRoles]

theorem result_of_answer {d : DirectoryApplicationService} {op : DirectoryOp}
    {a : DirectorySnapshot} (h : op.directoryAnswer d = some a) :
    op.result d = some (.directory (.ok (.ok a))) := by
  obtain ⟨memberships, actor, d', rfl, hread⟩ := of_directoryAnswer h
  simp only [DirectoryOp.result, hread]

/-- Corresponding answers have the same content. -/
theorem sameContent_of_answered {shown : PublicDirectoryRole → ρ}
    {calls calls' : List (DirectoryApplicationService × DirectoryOp)}
    (h : List.Forall₂
      (fun x y => SameResult shown (x.2.result x.1) (y.2.result y.1) ∨ Exhausted x ∨ Exhausted y)
      calls calls') {i : ℕ} {a b : DirectorySnapshot} (ha : answered calls i = some a)
    (hb : answered calls' i = some b) : a.SameContent b := by
  obtain ⟨x, hx, hanswer⟩ := Option.bind_eq_some_iff.1 ha
  obtain ⟨y, hy, hanswer'⟩ := Option.bind_eq_some_iff.1 hb
  obtain ⟨hi, rfl⟩ := List.getElem?_eq_some_iff.1 hx
  obtain ⟨hi', rfl⟩ := List.getElem?_eq_some_iff.1 hy
  have hresult := result_of_answer hanswer
  have hresult' := result_of_answer hanswer'
  rcases h.get hi hi' with hsame | hexhausted | hexhausted
  · simp only [List.get_eq_getElem, hresult, hresult'] at hsame
    cases hsame with
    | directory hgroup hnodes hroles hparticipants =>
      refine ⟨hnodes, ?_, hparticipants⟩
      have hnamed := congrArg (List.map fun released => (released.1, released.2.1)) hroles
      simpa only [List.map_map, Function.comp_def, PublicDirectoryRole.released] using hnamed
  · unfold Exhausted at hexhausted
    rw [List.get_eq_getElem, hresult] at hexhausted
    cases hexhausted
  · unfold Exhausted at hexhausted
    rw [List.get_eq_getElem, hresult'] at hexhausted
    cases hexhausted

/-! ## The group sees itself only -/

/-- Two runs whose calls by the members of a group agree on what is visible in it answer these
calls alike, except for a directory read that finds the versions of its group exhausted. From one
directory to the next the version changes in the one run exactly if it does in the other. -/
theorem group_isolation (shown : PublicDirectoryRole → ρ) (g : GroupId)
    (ops ops' : List DirectoryOp)
    (h : List.Forall₂ (Agrees shown g) (groupCalls g ops) (groupCalls g ops')) :
    List.Forall₂
        (fun x y => SameResult shown (x.2.result x.1) (y.2.result y.1) ∨ Exhausted x ∨ Exhausted y)
        (groupCalls g ops) (groupCalls g ops')
      ∧ (∀ i j a b a' b', NextAnswer (groupCalls g ops) i j a b →
        NextAnswer (groupCalls g ops') i j a' b' →
        (a.version = b.version ↔ a'.version = b'.version))
      ∧ ∀ call ∈ groupCalls g ops ++ groupCalls g ops', Exhausted call →
        ∃ versioned, call.1.directoryVersions[g]? = some versioned
          ∧ UInt64.size ≤ versioned.version + 1 := by
  have hother : ∀ (d : DirectoryApplicationService) (op : DirectoryOp), ¬op.callerGroup = some g →
      (op.call d).presenceVersions[g]? = d.presenceVersions[g]? := fun d _ =>
    call_presenceVersions d
  have hsame := Noninterference.forall₂_observed
    (fun d : DirectoryApplicationService => d.presenceVersions[g]?) hother
    (fun _ _ => agrees_call) rfl h
  refine ⟨hsame, fun i j a b a' b' hnext hnext' => ?_, fun call hcall hexhausted => ?_⟩
  · rw [hnext.version_eq_iff, hnext'.version_eq_iff,
      fields_congr (sameContent_of_answered hsame hnext.first hnext'.first),
      fields_congr (sameContent_of_answered hsame hnext.second hnext'.second)]
  · refine exhausted_record ?_ hexhausted
    rcases List.mem_append.1 hcall with hcall | hcall
    · exact Noninterference.own_of_mem_observed hcall
    · exact Noninterference.own_of_mem_observed hcall

namespace DirectoryApplicationService

theorem directoryFor_profiles (d : DirectoryApplicationService) (memberships : Memberships)
    (actor : PlayerId) : (d.directoryFor memberships actor).2.profiles = d.profiles
      ∧ (d.directoryFor memberships actor).2.publicRoles = d.publicRoles := by
  rcases directoryFor_cases d memberships actor with ⟨-, -, hsame⟩ | ⟨a, v, -, -, -, hread⟩
  · rw [hsame]
    exact ⟨rfl, rfl⟩
  · exact versionFor_profiles (congrArg Prod.snd hread)

/-- Snapshots that differ in their versions only. -/
theorem SameVisible.of_same (shown : PublicDirectoryRole → ρ) (g : GroupId)
    {d d' : DirectoryApplicationService} {context context' : AuthoritativeMembershipContext}
    (hhierarchy : context.snapshot.hierarchy = context'.snapshot.hierarchy)
    (hmemberships : context.snapshot.memberships = context'.snapshot.memberships)
    (hprofiles : d.profiles = d'.profiles) (hroles : d.publicRoles = d'.publicRoles) :
    SameVisible shown g d d' context context' where
  group := by rw [hhierarchy]
  specializations _ _ := by rw [hhierarchy]
  teams _ _ := by rw [hhierarchy]
  members p := by
    have hparticipant : d.participant = d'.participant := by
      funext m
      simp only [participant, publicRoleIds, hprofiles, hroles]
    simp only [visibleMember, MembershipSnapshot.find, hmemberships, hparticipant]
  roles _ _ _ _ _ := by rw [hroles]

end DirectoryApplicationService

namespace Sample

def readOf (version : ℕ) (h : 0 < version) : DirectoryOp :=
  .directoryFor (fun _ => some (context version h)) alice

def nameAlice : DirectoryOp := .upsertProfile ⟨alice, bytes "Alice", 1⟩

/-- `alice` reads the directory before and after she gets a name. -/
def namedReads (version : ℕ) (h : 0 < version) : List DirectoryOp :=
  [readOf version h, nameAlice, readOf version h]

/-- The service before the second read. -/
def named (version : ℕ) (h : 0 < version) : DirectoryApplicationService :=
  nameAlice.call ((readOf version h).call {})

def foreignGroup : GroupId := ⟨bytes "foreign", by decide⟩

def foreignHierarchy : Hierarchy :=
  { hierarchy with
    groups := [⟨foreignGroup, bytes "Foreign", true⟩]
    specializations := [⟨specialization, foreignGroup, bytes "Specialization"⟩]
    groups_unique := by decide
    specializations_unique := by decide
    specializations_owned := by decide
    teams_owned := by decide }

def foreignSnapshot : MembershipSnapshot where
  version := 5
  hierarchy := foreignHierarchy
  memberships := [{ member carol with groupId := foreignGroup }]
  version_pos := by decide
  players_unique := by decide
  paths_valid := by decide
  sorted := by decide

/-- `carol`, who is in another group, reads her directory. -/
def readForeign : DirectoryOp := .directoryFor (fun _ => some ⟨foreignSnapshot, rolePolicy⟩) carol

/-- `carol` reads her directory between the two reads of `alice`. -/
def mixedReads (version : ℕ) (h : 0 < version) : List DirectoryOp :=
  [readOf version h, nameAlice, readForeign, readOf version h]

theorem groupCalls_namedReads (version : ℕ) (h : 0 < version) :
    groupCalls group (namedReads version h)
      = [({}, readOf version h), (named version h, readOf version h)] := by
  have hread : (readOf version h).callerGroup = some group := rfl
  have hnamed : nameAlice.callerGroup ≠ some group := nofun
  simp only [groupCalls, namedReads, Noninterference.observed, hread, hnamed, if_true, if_false]
  rfl

theorem groupCalls_mixedReads (version : ℕ) (h : 0 < version) :
    groupCalls group (mixedReads version h)
      = [({}, readOf version h), (readForeign.call (named version h), readOf version h)] := by
  have hread : (readOf version h).callerGroup = some group := rfl
  have hnamed : nameAlice.callerGroup ≠ some group := nofun
  have hother : readForeign.callerGroup ≠ some group := by decide
  simp only [groupCalls, mixedReads, Noninterference.observed, hread, hnamed, hother, if_true,
    if_false]
  rfl

/-- A name does not depend on the version of what was read before. -/
theorem named_profiles {version version' : ℕ} (h : 0 < version) (h' : 0 < version') :
    (named version h).profiles = (named version' h').profiles
      ∧ (named version h).publicRoles = (named version' h').publicRoles := by
  obtain ⟨hprofiles, hroles⟩ := directoryFor_profiles {}
    (fun _ => some (context version h)) alice
  obtain ⟨hprofiles', hroles'⟩ := directoryFor_profiles {}
    (fun _ => some (context version' h')) alice
  simp only [named, nameAlice, readOf, DirectoryOp.call, upsertProfile, hprofiles, hprofiles']
  split_ifs <;> simp only [hprofiles, hprofiles', hroles, hroles', and_self]

theorem agrees_reads (shown : PublicDirectoryRole → ρ) {version version' : ℕ}
    (h : 0 < version) (h' : 0 < version') {d d' : DirectoryApplicationService}
    (hprofiles : d.profiles = d'.profiles) (hroles : d.publicRoles = d'.publicRoles) :
    List.Forall₂ (Agrees shown group) [({}, readOf version h), (d, readOf version h)]
      [({}, readOf version' h'), (d', readOf version' h')] :=
  .cons (.directoryFor rfl rfl (.of_same shown group rfl rfl rfl rfl))
    (.cons (.directoryFor rfl rfl (.of_same shown group rfl rfl hprofiles hroles)) .nil)

theorem agrees_mixedReads (shown : PublicDirectoryRole → ρ) {version version' : ℕ}
    (h : 0 < version) (h' : 0 < version') :
    List.Forall₂ (Agrees shown group) (groupCalls group (namedReads version h))
      (groupCalls group (mixedReads version' h')) := by
  obtain ⟨hprofiles, hroles⟩ := named_profiles h h'
  obtain ⟨hread, hread'⟩ := directoryFor_profiles (named version' h')
    (fun _ => some ⟨foreignSnapshot, rolePolicy⟩) carol
  rw [groupCalls_namedReads, groupCalls_mixedReads]
  exact agrees_reads shown h h' (hprofiles.trans hread.symm) (hroles.trans hread'.symm)

/-- Whether the read did not throw. -/
def returned (call : DirectoryApplicationService × DirectoryOp) : Bool :=
  match call.2 with
  | .directoryFor memberships actor => (call.1.directoryFor memberships actor).1.isOk
  | _ => true

theorem not_exhausted_of_returned {call : DirectoryApplicationService × DirectoryOp}
    (h : returned call = true) : ¬Exhausted call := by
  obtain ⟨d, op⟩ := call
  intro hexhausted
  cases op with
  | upsertProfile profile => cases hexhausted
  | replacePublicRoles catalogVersion roles => cases hexhausted
  | presenceFor memberships connectedScopeCount actor afterVersion observedAt => cases hexhausted
  | directoryFor memberships actor =>
    unfold Exhausted DirectoryOp.result at hexhausted
    simp only [Option.some.injEq, DirectoryResult.directory.injEq] at hexhausted
    simp [returned, hexhausted, Except.isOk, Except.toBool] at h

theorem returned_of_same {shown : PublicDirectoryRole → ρ}
    {call : DirectoryApplicationService × DirectoryOp} {r : Option DirectoryResult}
    (h : SameResult shown (call.2.result call.1) r) : returned call = true := by
  obtain ⟨d, op⟩ := call
  cases op with
  | upsertProfile profile => rfl
  | replacePublicRoles catalogVersion roles => rfl
  | presenceFor memberships connectedScopeCount actor afterVersion observedAt => rfl
  | directoryFor memberships actor =>
    unfold DirectoryOp.result at h
    unfold returned
    rcases hread : (d.directoryFor memberships actor).1 with e | read
    · simp only [hread] at h
      cases h
    · simp only [hread, Except.isOk, Except.toBool]

end Sample

open Sample

/-- The snapshots of the second run have a higher version, and somebody of another group reads in
between. -/
theorem group_isolation_mixedReads :
    List.Forall₂
      (fun x y => SameResult PublicDirectoryRole.version (x.2.result x.1) (y.2.result y.1))
      (groupCalls group (namedReads 1 (by decide)))
      (groupCalls group (mixedReads 7 (by decide))) := by
  have hsame := (group_isolation PublicDirectoryRole.version group (namedReads 1 (by decide))
    (mixedReads 7 (by decide)) (agrees_mixedReads _ _ _)).1
  rw [groupCalls_namedReads, groupCalls_mixedReads] at hsame ⊢
  obtain ⟨hfirst, hsecond⟩ := List.forall₂_cons.1 hsame
  have hsecond := (List.forall₂_cons.1 hsecond).1
  refine .cons (hfirst.resolve_right ?_) (.cons (hsecond.resolve_right ?_) .nil) <;>
    rintro (hexhausted | hexhausted) <;>
    exact not_exhausted_of_returned (by decide +kernel) hexhausted

/-- The snapshot of the first run has the last version there is, so that the second read throws
where that of the other run lists the new name. -/
theorem group_isolation_exhausted :
    List.Forall₂ (Agrees PublicDirectoryRole.version group)
        (groupCalls group (namedReads (UInt64.size - 1) (by decide)))
        (groupCalls group (namedReads 1 (by decide)))
      ∧ ¬List.Forall₂
        (fun x y => SameResult PublicDirectoryRole.version (x.2.result x.1) (y.2.result y.1))
        (groupCalls group (namedReads (UInt64.size - 1) (by decide)))
        (groupCalls group (namedReads 1 (by decide))) := by
  rw [groupCalls_namedReads, groupCalls_namedReads]
  obtain ⟨hprofiles, hroles⟩ := named_profiles (by decide : 0 < UInt64.size - 1) Nat.one_pos
  refine ⟨agrees_reads _ _ _ hprofiles hroles, fun hsame => ?_⟩
  have hsecond := (List.forall₂_cons.1 (List.forall₂_cons.1 hsame).2).1
  have hthrows : returned (Sample.named (UInt64.size - 1) (by decide),
    readOf (UInt64.size - 1) (by decide)) = false := by decide +kernel
  exact Bool.false_ne_true (hthrows.symm.trans (returned_of_same hsecond))

end VoxTree

import VoxTree.Directory
import VoxTree.Lib.Encoding
import VoxTree.Proofs.Store
import Mathlib.Data.List.Chain

/-!
# Directory versions and directory contents

A read gives the group a new version exactly if the fingerprint of what is visible has changed. The
fingerprint tells the sequence of its fields, but not how the fields are divided among nodes,
roles and participants: equal versions mean equal contents exactly in runs where two reads one
after the other that list the same fields divide them alike (`directory_versions_iff`).
-/

namespace VoxTree

open Encoding DirectoryApplicationService

/-! ## What is asked of a run -/

def DirectoryOp.directoryAnswer (s : DirectoryApplicationService) :
    DirectoryOp → Option DirectorySnapshot
  | .directoryFor memberships actor =>
    match (s.directoryFor memberships actor).1 with
    | .ok (.ok snapshot) => some snapshot
    | _ => none
  | _ => none

/-- The successful directory reads of a run, in order. -/
def directoryLog (s : DirectoryApplicationService) : List DirectoryOp → List DirectorySnapshot
  | [] => []
  | op :: ops => (op.directoryAnswer s).toList ++ directoryLog (op.call s) ops

/-- The group's versions have run out, and the content is not the one of its last version. -/
def DirectoryApplicationService.exhausted (s : DirectoryApplicationService) (groupId : GroupId)
    (content : DirectoryContent) : Bool :=
  s.directoryVersions[groupId]?.any fun versioned =>
    versioned.fingerprint ≠ content.fingerprint && UInt64.size ≤ versioned.version + 1

/-- The content a read is to show, from what the service and the membership provider have before
it; `none` where the read is refused. -/
def DirectoryOp.visibleContent (s : DirectoryApplicationService) :
    DirectoryOp → Option (GroupId × DirectoryContent)
  | .directoryFor memberships actor =>
    match currentContextFor memberships actor with
    | none => none
    | some (context, membership) =>
      match context.snapshot.hierarchy.findGroup membership.groupId with
      | none => none
      | some group =>
        let visible := visibleMemberships context.snapshot membership.groupId
        let content := s.directoryContent context.snapshot.hierarchy group visible
        if !group.active || maximumDirectoryParticipants < visible.length
            || s.exhausted membership.groupId content then none
        else some (membership.groupId, content)
  | _ => none

/-- The contents the reads of a run are to show. -/
def contentLog (s : DirectoryApplicationService) :
    List DirectoryOp → List (GroupId × DirectoryContent)
  | [] => []
  | op :: ops => (op.visibleContent s).toList ++ contentLog (op.call s) ops

namespace DirectorySnapshot

def content (a : DirectorySnapshot) : DirectoryContent := ⟨a.nodes, a.publicRoles, a.participants⟩

/-- The same nodes, public roles and participants; roles also have a version of their own, which
no client is shown. -/
structure SameContent (a b : DirectorySnapshot) : Prop where
  nodes : a.nodes = b.nodes
  publicRoles : (a.publicRoles.map fun role => (role.roleId, role.displayName))
    = b.publicRoles.map fun role => (role.roleId, role.displayName)
  participants : a.participants = b.participants

end DirectorySnapshot

namespace DirectoryContent

/-- How many nodes and roles there are, and how many roles each participant has. -/
def division (c : DirectoryContent) : ℕ × ℕ × List ℕ :=
  (c.nodes.length, c.publicRoles.length,
    c.participants.map fun participant => participant.publicRoleIds.length)

/-- The contents do not list the same fields, or divide them alike. -/
def DividedAlike (c c' : DirectoryContent) : Prop :=
  c.fields = c'.fields → c.division = c'.division

end DirectoryContent

/-- The versions of a group never decrease. -/
def VersionsMonotone (log : List DirectorySnapshot) (g : GroupId) : Prop :=
  (log.filter fun a => a.groupId = g).Pairwise fun a b => a.version ≤ b.version

/-- A version of a group stands for one content. -/
def VersionsTellContent (log : List DirectorySnapshot) (g : GroupId) : Prop :=
  (log.filter fun a => a.groupId = g).Pairwise fun a b => a.version = b.version → a.SameContent b

/-- The contents of a group's reads, one after the other, divide the same fields alike. -/
def DividedAlikeThroughout (contents : List (GroupId × DirectoryContent)) (g : GroupId) : Prop :=
  (contents.filter fun c => c.1 = g).IsChain fun c c' => c.2.DividedAlike c'.2

/-! ## Fingerprints -/

theorem foldl_appendFingerprint : ∀ (values : List Bytes) (fingerprint : Bytes),
    values.foldl appendFingerprint fingerprint = fingerprint ++ values.flatMap Encoding.field
  | [], fingerprint => by simp
  | value :: values, fingerprint => by
    rw [List.foldl_cons, foldl_appendFingerprint, List.flatMap_cons]
    simp [appendFingerprint, Encoding.field, VoxTree.decimal, Encoding.decimal, bytes]

/-- Fingerprints are equal exactly for the same sequence of fields. -/
theorem fingerprint_eq_iff {c c' : DirectoryContent} :
    c.fingerprint = c'.fingerprint ↔ c.fields = c'.fields := by
  unfold DirectoryContent.fingerprint
  rw [foldl_appendFingerprint, foldl_appendFingerprint, List.nil_append, List.nil_append]
  exact ⟨fun h => flatMap_field_injective h, fun h => by rw [h]⟩

theorem nodeTypeFingerprint_injective : Function.Injective nodeTypeFingerprint := by
  intro a b h
  cases a <;> cases b <;> first | rfl | exact absurd h (by decide)

/-- A parent that is there has a name. -/
def NamedParent (node : DirectoryNode) : Prop := node.parentNodeId ≠ some []

theorem nodeFields_injective {a b : DirectoryNode} (ha : NamedParent a) (hb : NamedParent b)
    (h : nodeFields a = nodeFields b) : a = b := by
  obtain ⟨nodeId, nodeType, parent, displayName, sortIndex⟩ := a
  obtain ⟨nodeId', nodeType', parent', displayName', sortIndex'⟩ := b
  simp only [nodeFields, List.cons.injEq, and_true] at h
  obtain ⟨hid, htype, hparent, hname, hindex⟩ := h
  obtain rfl := nodeTypeFingerprint_injective htype
  obtain rfl : sortIndex = sortIndex' := decimal_injective hindex
  have heq : parent = parent' := by
    rcases parent with _ | p <;> rcases parent' with _ | p'
    · rfl
    · exact absurd (congrArg some hparent.symm) hb
    · exact absurd (congrArg some hparent) ha
    · exact congrArg some hparent
  rw [hid, hname, heq]

theorem participantFields_injective : Function.Injective participantFields := by
  intro a b h
  simp only [participantFields, List.cons.injEq] at h
  obtain ⟨hplayer, hname, hteam, hroles⟩ := h
  obtain ⟨playerId, displayName, primaryTeamId, publicRoleIds⟩ := a
  obtain ⟨playerId', displayName', primaryTeamId', publicRoleIds'⟩ := b
  obtain rfl : playerId = playerId' := StrongId.ext hplayer
  obtain rfl : primaryTeamId = primaryTeamId' := StrongId.ext hteam
  obtain rfl := List.map_injective_iff.2 StrongId.value_injective hroles
  rw [show displayName = displayName' from hname]

/-- The same fields, divided alike, are the same content. -/
theorem sameContent_of_fields {a b : DirectorySnapshot} (ha : ∀ node ∈ a.nodes, NamedParent node)
    (hb : ∀ node ∈ b.nodes, NamedParent node) (hfields : a.content.fields = b.content.fields)
    (hdivision : a.content.division = b.content.division) : a.SameContent b := by
  simp only [DirectoryContent.division, DirectorySnapshot.content, Prod.mk.injEq] at hdivision
  obtain ⟨hnodes, hroles, hparticipants⟩ := hdivision
  simp only [DirectoryContent.fields, DirectorySnapshot.content, List.append_assoc] at hfields
  have hlength : ∀ {α : Type} {f : α → List Bytes} {k : ℕ} {l l' : List α},
      (∀ x, (f x).length = k) → l.length = l'.length →
      l.map (fun x => (f x).length) = l'.map fun x => (f x).length := by
    intro α f k l l' hf hl
    simp only [hf, List.map_const', hl]
  have hnodeLength := hlength (f := nodeFields) (k := 5) (fun _ => rfl) hnodes
  have hroleLength := hlength (f := roleFields) (k := 2) (fun _ => rfl) hroles
  have hflat : ∀ {α : Type} {f : α → List Bytes} {l l' : List α},
      l.map (fun x => (f x).length) = l'.map (fun x => (f x).length) →
      (l.flatMap f).length = (l'.flatMap f).length := by
    intro α f l l' hl
    rw [List.length_flatMap, List.length_flatMap, hl]
  obtain ⟨hn, hrest⟩ := List.append_inj hfields (hflat hnodeLength)
  obtain ⟨hr, hp⟩ := List.append_inj hrest (hflat hroleLength)
  have hparticipantLength : (a.participants.map fun p => (participantFields p).length)
      = b.participants.map fun p => (participantFields p).length := by
    have := congrArg (List.map (· + 3)) hparticipants
    simpa [participantFields, List.map_map, Function.comp_def] using this
  refine ⟨?_, ?_, ?_⟩
  · refine eq_of_map_eq (fun x hx y hy => ?_) (map_eq_of_flatMap_eq hnodeLength hn)
    exact nodeFields_injective (ha x hx) (hb y hy)
  · have hmap := map_eq_of_flatMap_eq hroleLength hr
    have hinjective : Function.Injective fun p : RoleId × Bytes => [p.1.value, p.2] := by
      intro p q hpq
      simp only [List.cons.injEq, and_true] at hpq
      exact Prod.ext (StrongId.ext hpq.1) hpq.2
    refine List.map_injective_iff.2 hinjective ?_
    rw [List.map_map, List.map_map]
    exact hmap
  · exact List.map_injective_iff.2 participantFields_injective
      (map_eq_of_flatMap_eq hparticipantLength hp)

/-! ## One read -/

/-- `versionFor` steps from the group's record. -/
theorem versionFor_cases (s : DirectoryApplicationService) (g : GroupId) (sourceVersion : ℕ)
    (content : DirectoryContent) :
    s.exhausted g content = true ∧ s.versionFor g sourceVersion content.fingerprint = (none, s)
      ∨ s.exhausted g content = false ∧ ∃ version s',
        s.versionFor g sourceVersion content.fingerprint = (some version, s')
        ∧ (∀ g', s'.directoryVersions[g']?
          = if g = g' then some ⟨version, content.fingerprint⟩ else s.directoryVersions[g']?)
        ∧ ∀ old, s.directoryVersions[g]? = some old →
          old.version = version ∧ old.fingerprint = content.fingerprint
            ∨ old.version < version ∧ old.fingerprint ≠ content.fingerprint := by
  unfold versionFor exhausted
  rcases hrecord : s.directoryVersions[g]? with _ | versioned
  · refine .inr ⟨rfl, _, _, rfl, fun g' => ?_, fun old hold => by cases hold⟩
    simp only [Std.ExtTreeMap.getElem?_insert, Std.LawfulEqCmp.compare_eq_iff_eq]
  · dsimp only [Option.any_some]
    split_ifs with hsame hexhausted
    · refine .inr ⟨by simp [hsame], _, _, rfl, fun g' => ?_, fun old hold => ?_⟩
      · split_ifs with hg
        · rw [← hg, hrecord, ← hsame]
        · rfl
      · obtain rfl := Option.some.inj hold
        exact .inl ⟨rfl, hsame⟩
    · exact .inl ⟨by simp [hsame, hexhausted], rfl⟩
    · refine .inr ⟨by simp [hexhausted], _, _, rfl, fun g' => ?_, fun old hold => ?_⟩
      · simp only [Std.ExtTreeMap.getElem?_insert, Std.LawfulEqCmp.compare_eq_iff_eq]
      · obtain rfl := Option.some.inj hold
        refine .inr ⟨?_, hsame⟩
        omega

theorem namedParent_of_id {tag : IdTag} {id : StrongId tag} {node : DirectoryNode}
    (h : node.parentNodeId = some id.value) : NamedParent node := by
  unfold NamedParent
  rw [h]
  exact fun hnil => id.nonempty (Option.some.inj hnil)

theorem namedParent_of_mem_teamNodes {node : DirectoryNode} : ∀ (teams : List Team)
    {next : Std.ExtTreeMap SpecializationId ℕ}, node ∈ teamNodes next teams → NamedParent node
  | [], _, h => by simp [teamNodes] at h
  | team :: rest, next, h => by
    unfold teamNodes at h
    split at h
    · exact namedParent_of_mem_teamNodes rest h
    · rcases List.mem_cons.1 h with rfl | h
      · exact namedParent_of_id (show _ = some team.specializationId.value from rfl)
      · exact namedParent_of_mem_teamNodes rest h

theorem namedParent_of_mem_directoryNodes {hierarchy : Hierarchy} {group : Group}
    {node : DirectoryNode} (h : node ∈ directoryNodes hierarchy group) : NamedParent node := by
  simp only [directoryNodes, List.cons_append, List.mem_cons, List.mem_append] at h
  rcases h with rfl | h | h
  · simp [NamedParent]
  · simp only [specializationNodes, List.mem_map] at h
    obtain ⟨⟨specialization, index⟩, -, rfl⟩ := h
    exact namedParent_of_id (show _ = some group.id.value from rfl)
  · exact namedParent_of_mem_teamNodes _ h

/-- A read shows its visible content under a version of `versionFor`; a refused one leaves the
service as it is. -/
theorem directoryFor_cases (s : DirectoryApplicationService) (memberships : Memberships)
    (actor : PlayerId) :
    let op := DirectoryOp.directoryFor memberships actor
    op.visibleContent s = none ∧ op.directoryAnswer s = none
        ∧ (s.directoryFor memberships actor).2 = s
      ∨ ∃ a sourceVersion, op.visibleContent s = some (a.groupId, a.content)
        ∧ op.directoryAnswer s = some a ∧ (∀ node ∈ a.nodes, NamedParent node)
        ∧ s.versionFor a.groupId sourceVersion a.content.fingerprint
          = (some a.version, (s.directoryFor memberships actor).2) := by
  unfold DirectoryOp.visibleContent DirectoryOp.directoryAnswer directoryFor
  dsimp only
  rcases currentContextFor memberships actor with _ | ⟨context, membership⟩
  · exact .inl ⟨rfl, rfl, rfl⟩
  unfold makeDirectory
  dsimp only
  rcases context.snapshot.hierarchy.findGroup membership.groupId with _ | group
  · exact .inl ⟨rfl, rfl, rfl⟩
  dsimp only
  set visible := visibleMemberships context.snapshot membership.groupId
  set content := s.directoryContent context.snapshot.hierarchy group visible with hcontent
  set source := visible.foldl s.raiseSourceVersion context.snapshot.version
  by_cases hactive : group.active
  · by_cases hlimit : maximumDirectoryParticipants < visible.length
    · exact .inl (by simp [hactive, hlimit])
    · rcases versionFor_cases s membership.groupId source content with
        ⟨hexhausted, hsame⟩ | ⟨hroom, version, s', hversion, -⟩
      · exact .inl (by simp [hactive, hlimit, hexhausted, hsame])
      · refine .inr ⟨⟨version, membership.groupId, content.nodes, content.publicRoles,
          content.participants⟩, source, ?_, ?_, fun node hnode => ?_, ?_⟩
        · simp [hactive, hlimit, hroom, DirectorySnapshot.content]
        · simp [hactive, hlimit, hversion]
        · exact namedParent_of_mem_directoryNodes hnode
        · simp [hactive, hlimit, hversion, DirectorySnapshot.content]
  · exact .inl (by simp [hactive])

/-! ## Runs -/

/-- What two reads of a group one after the other have to do with each other. -/
def VersionStep (a b : DirectorySnapshot) : Prop :=
  a.version = b.version ∧ a.content.fingerprint = b.content.fingerprint
    ∨ a.version < b.version ∧ a.content.fingerprint ≠ b.content.fingerprint

/-- The reads of a group so far, the last of which its record keeps. -/
structure ReadsInv (g : GroupId) (s : DirectoryApplicationService)
    (log : List DirectorySnapshot) : Prop where
  chain : (log.filter fun a => a.groupId = g).IsChain VersionStep
  last : s.directoryVersions[g]? = ((log.filter fun a => a.groupId = g).getLast?).map fun a =>
    ⟨a.version, a.content.fingerprint⟩
  named : ∀ a ∈ log, ∀ node ∈ a.nodes, NamedParent node

theorem readsInv_initial (g : GroupId) : ReadsInv g {} [] where
  chain := .nil
  last := by simp
  named a ha := by cases ha

theorem ReadsInv.same {g : GroupId} {s s' : DirectoryApplicationService}
    {log : List DirectorySnapshot} (h : ReadsInv g s log)
    (hsame : s'.directoryVersions = s.directoryVersions) : ReadsInv g s' (log ++ []) := by
  rw [List.append_nil]
  exact ⟨h.chain, by rw [hsame]; exact h.last, h.named⟩

/-- A successful read is put behind the others. -/
theorem ReadsInv.read {g : GroupId} {s s' : DirectoryApplicationService}
    {log : List DirectorySnapshot} (h : ReadsInv g s log) {a : DirectorySnapshot}
    {sourceVersion : ℕ} (hnamed : ∀ node ∈ a.nodes, NamedParent node)
    (hread : s.versionFor a.groupId sourceVersion a.content.fingerprint = (some a.version, s')) :
    ReadsInv g s' (log ++ [a]) := by
  rcases versionFor_cases s a.groupId sourceVersion a.content with
    ⟨-, hnone⟩ | ⟨-, version, s'', hversion, hrecord, hold⟩
  · cases hread.symm.trans hnone
  obtain ⟨hv, rfl⟩ := Prod.mk.inj (hread.symm.trans hversion)
  obtain rfl := Option.some.inj hv
  have hnamed' : ∀ b ∈ log ++ [a], ∀ node ∈ b.nodes, NamedParent node := by
    intro b hb
    rcases List.mem_append.1 hb with hb | hb
    · exact h.named b hb
    · rwa [List.mem_singleton.1 hb]
  have hlast : s'.directoryVersions[g]? = _ := hrecord g
  by_cases hg : a.groupId = g
  · have hfilter : (log ++ [a]).filter (fun b => b.groupId = g)
        = (log.filter fun b => b.groupId = g) ++ [a] := by simp [hg]
    refine ⟨?_, ?_, hnamed'⟩
    · rw [hfilter, List.isChain_append]
      refine ⟨h.chain, .singleton a, fun x hx y hy => ?_⟩
      obtain rfl : a = y := by simpa using hy
      have hx' : s.directoryVersions[g]? = some ⟨x.version, x.content.fingerprint⟩ := by
        rw [h.last, hx]
        rfl
      rw [← hg] at hx'
      exact hold _ hx'
    · rw [hlast, hfilter, if_pos hg, List.getLast?_concat]
      rfl
  · have hfilter : (log ++ [a]).filter (fun b => b.groupId = g)
        = log.filter fun b => b.groupId = g := by simp [hg]
    refine ⟨hfilter ▸ h.chain, ?_, hnamed'⟩
    rw [hlast, hfilter, if_neg hg]
    exact h.last

theorem upsertProfile_directoryVersions (s : DirectoryApplicationService)
    (profile : DirectoryProfile) :
    (s.upsertProfile profile).2.directoryVersions = s.directoryVersions := by
  unfold upsertProfile
  split_ifs <;> rfl

theorem replacePublicRoles_directoryVersions (s : DirectoryApplicationService)
    (catalogVersion : ℕ) (roles : List PublicDirectoryRole) :
    (s.replacePublicRoles catalogVersion roles).2.directoryVersions = s.directoryVersions := by
  unfold replacePublicRoles
  rcases collectRoles catalogVersion ∅ roles with e | replacement
  · split_ifs <;> rfl
  · split_ifs <;> rfl

theorem presenceFor_directoryVersions (s : DirectoryApplicationService)
    (memberships : Memberships) (connectedScopeCount : PlayerId → ℕ) (actor : PlayerId)
    (afterVersion : Option ℕ) (observedAt : TimePoint) :
    (s.presenceFor memberships connectedScopeCount actor afterVersion
      observedAt).2.directoryVersions = s.directoryVersions := by
  unfold presenceFor
  split
  · rfl
  · split
    · rfl
    · split <;> rfl

theorem ReadsInv.step {g : GroupId} {s : DirectoryApplicationService}
    {log : List DirectorySnapshot} (h : ReadsInv g s log) (op : DirectoryOp) :
    ReadsInv g (op.call s) (log ++ (op.directoryAnswer s).toList) := by
  cases op with
  | upsertProfile profile => exact h.same (upsertProfile_directoryVersions s profile)
  | replacePublicRoles catalogVersion roles =>
    exact h.same (replacePublicRoles_directoryVersions s catalogVersion roles)
  | directoryFor memberships actor =>
    rcases directoryFor_cases s memberships actor with
      ⟨-, hnone, hsame⟩ | ⟨a, v, -, hsome, hnamed, hread⟩
    · rw [hnone]
      refine h.same ?_
      rw [DirectoryOp.call, hsame]
    · rw [hsome]
      exact h.read hnamed hread
  | presenceFor memberships connectedScopeCount actor afterVersion observedAt =>
    exact h.same (presenceFor_directoryVersions s memberships connectedScopeCount actor
      afterVersion observedAt)

theorem ReadsInv.run {g : GroupId} : ∀ (ops : List DirectoryOp) {s : DirectoryApplicationService}
    {log : List DirectorySnapshot}, ReadsInv g s log →
    ReadsInv g (ops.foldl DirectoryOp.call s) (log ++ directoryLog s ops)
  | [], s, log, h => by simpa [directoryLog] using h
  | op :: ops, s, log, h => by
    rw [directoryLog, ← List.append_assoc]
    exact (h.step op).run ops

theorem readsInv_directoryLog (g : GroupId) (ops : List DirectoryOp) :
    ReadsInv g (ops.foldl DirectoryOp.call {}) (directoryLog {} ops) := by
  have h := (readsInv_initial g).run ops
  rwa [List.nil_append] at h

/-- The reads of a run show what was visible. -/
theorem contentLog_eq : ∀ (ops : List DirectoryOp) (s : DirectoryApplicationService),
    contentLog s ops = (directoryLog s ops).map fun a => (a.groupId, a.content)
  | [], _ => rfl
  | op :: ops, s => by
    have hhead : (op.visibleContent s).toList
        = (op.directoryAnswer s).toList.map fun a => (a.groupId, a.content) := by
      cases op with
      | upsertProfile profile => rfl
      | replacePublicRoles catalogVersion roles => rfl
      | directoryFor memberships actor =>
        rcases directoryFor_cases s memberships actor with
          ⟨hnone, hnone', -⟩ | ⟨a, -, hsome, hsome', -⟩
        · rw [hnone, hnone']
          rfl
        · rw [hsome, hsome']
          rfl
      | presenceFor memberships connectedScopeCount actor afterVersion observedAt => rfl
    rw [contentLog, directoryLog, List.map_append, contentLog_eq ops, hhead]

/-! ## Versions along a run -/

theorem VersionStep.version_le {a b : DirectorySnapshot} (h : VersionStep a b) :
    a.version ≤ b.version := by
  rcases h with ⟨h, -⟩ | ⟨h, -⟩ <;> omega

theorem VersionStep.version_eq_iff {a b : DirectorySnapshot} (h : VersionStep a b) :
    a.version = b.version ↔ a.content.fields = b.content.fields := by
  rw [← fingerprint_eq_iff]
  rcases h with ⟨hv, hf⟩ | ⟨hv, hf⟩
  · exact ⟨fun _ => hf, fun _ => hv⟩
  · exact ⟨fun heq => absurd heq hv.ne, fun heq => absurd heq hf⟩

/-- Equal versions with equal contents, or versions that have increased. -/
def TellsApart (a b : DirectorySnapshot) : Prop :=
  a.version = b.version ∧ a.SameContent b ∨ a.version < b.version

theorem DirectorySnapshot.SameContent.trans {a b c : DirectorySnapshot} (h : a.SameContent b)
    (h' : b.SameContent c) : a.SameContent c :=
  ⟨h.nodes.trans h'.nodes, h.publicRoles.trans h'.publicRoles,
    h.participants.trans h'.participants⟩

theorem TellsApart.trans {a b c : DirectorySnapshot} (h : TellsApart a b)
    (h' : TellsApart b c) : TellsApart a c := by
  rcases h with ⟨hv, hsame⟩ | hv <;> rcases h' with ⟨hv', hsame'⟩ | hv'
  · exact .inl ⟨hv.trans hv', hsame.trans hsame'⟩
  · exact .inr (hv ▸ hv')
  · exact .inr (hv' ▸ hv)
  · exact .inr (Nat.lt_trans hv hv')

instance : Trans TellsApart TellsApart TellsApart := ⟨TellsApart.trans⟩

theorem dividedAlike_of_sameContent {a b : DirectorySnapshot} (h : a.SameContent b) :
    a.content.division = b.content.division := by
  have hroles := congrArg List.length h.publicRoles
  simp only [List.length_map] at hroles
  simp only [DirectoryContent.division, DirectorySnapshot.content, h.nodes, h.participants, hroles]

/-- Two reads one after the other tell their contents apart if and only if they do not divide the
same fields differently. -/
theorem VersionStep.tellsApart_iff {a b : DirectorySnapshot} (h : VersionStep a b)
    (ha : ∀ node ∈ a.nodes, NamedParent node) (hb : ∀ node ∈ b.nodes, NamedParent node) :
    (a.version = b.version → a.SameContent b) ↔ a.content.DividedAlike b.content := by
  constructor
  · intro hsame hfields
    exact dividedAlike_of_sameContent (hsame (h.version_eq_iff.2 hfields))
  · intro hdivided hversion
    have hfields := h.version_eq_iff.1 hversion
    exact sameContent_of_fields ha hb hfields (hdivided hfields)

theorem directoryLog_versionStep {ops : List DirectoryOp} {g : GroupId}
    {a b : DirectorySnapshot} {l₁ l₂ : List DirectorySnapshot}
    (h : (directoryLog {} ops).filter (fun a => a.groupId = g) = l₁ ++ a :: b :: l₂) :
    VersionStep a b ∧
      ((a.version = b.version → a.SameContent b) ↔ a.content.DividedAlike b.content) := by
  have hinv := readsInv_directoryLog g ops
  have hstep := List.isChain_iff_forall_rel_of_append_cons_cons.1 hinv.chain h
  have hmem : ∀ x ∈ l₁ ++ a :: b :: l₂, ∀ node ∈ x.nodes, NamedParent node := fun x hx =>
    hinv.named x (List.mem_of_mem_filter (h ▸ hx))
  exact ⟨hstep, hstep.tellsApart_iff (hmem a (by simp)) (hmem b (by simp))⟩

theorem versionsMonotone (ops : List DirectoryOp) (g : GroupId) :
    VersionsMonotone (directoryLog {} ops) g := by
  have hle : Trans (fun a b : DirectorySnapshot => a.version ≤ b.version)
      (fun a b : DirectorySnapshot => a.version ≤ b.version)
      (fun a b : DirectorySnapshot => a.version ≤ b.version) := ⟨Nat.le_trans⟩
  have hchain := (readsInv_directoryLog g ops).chain.imp fun a b h => VersionStep.version_le h
  exact List.isChain_iff_pairwise.1 hchain

theorem versionsTellContent_iff (ops : List DirectoryOp) (g : GroupId) :
    VersionsTellContent (directoryLog {} ops) g ↔
      DividedAlikeThroughout (contentLog {} ops) g := by
  rw [DividedAlikeThroughout, contentLog_eq, List.filter_map, List.isChain_map]
  refine ⟨fun htell => ?_, fun hdivided => ?_⟩
  · refine List.isChain_iff_forall_rel_of_append_cons_cons.2 fun a b l₁ l₂ hsplit => ?_
    have hsame := List.isChain_iff_forall_rel_of_append_cons_cons.1 htell.isChain hsplit
    exact (directoryLog_versionStep hsplit).2.1 hsame
  · -- versions tell contents apart from one read to the next, and this is transitive
    have hchain : ((directoryLog {} ops).filter fun a => a.groupId = g).IsChain TellsApart := by
      refine List.isChain_iff_forall_rel_of_append_cons_cons.2 fun a b l₁ l₂ hsplit => ?_
      obtain ⟨hstep, htell⟩ := directoryLog_versionStep hsplit
      have hsame := htell.2 (List.isChain_iff_forall_rel_of_append_cons_cons.1 hdivided hsplit)
      rcases Nat.eq_or_lt_of_le hstep.version_le with hversion | hversion
      · exact .inl ⟨hversion, hsame hversion⟩
      · exact .inr hversion
    refine hchain.pairwise.imp fun {a b} h hversion => ?_
    rcases h with ⟨-, hsame⟩ | hlt
    · exact hsame
    · exact absurd hversion hlt.ne

/-- For any run of the service: the versions of a group never decrease, and equal versions are
equal contents exactly if the contents to show, from one read of the group to the next, divide the
same fields alike. -/
theorem directory_versions_iff (ops : List DirectoryOp) (g : GroupId) :
    VersionsMonotone (directoryLog {} ops) g ∧
      (VersionsTellContent (directoryLog {} ops) g ↔
        DividedAlikeThroughout (contentLog {} ops) g) :=
  ⟨versionsMonotone ops g, versionsTellContent_iff ops g⟩

/-! ## Distinct identifiers -/

/-- No node of the one has the identifier of a role or a player of the other, and no player of the
one that of a role of the other. -/
structure DirectoryContent.DistinctIds (c c' : DirectoryContent) : Prop where
  node_role : ∀ node ∈ c.nodes, ∀ role ∈ c'.publicRoles, node.nodeId ≠ role.roleId.value
  node_player : ∀ node ∈ c.nodes, ∀ p ∈ c'.participants, node.nodeId ≠ p.playerId.value
  player_role : ∀ p ∈ c.participants, ∀ role ∈ c'.publicRoles, p.playerId.value ≠ role.roleId.value
  player_assigned : ∀ p ∈ c.participants, ∀ p' ∈ c'.participants, ∀ roleId ∈ p'.publicRoleIds,
    p.playerId.value ≠ roleId.value

/-- Behind the nodes comes a role's or a player's identifier, or nothing. -/
theorem DirectoryContent.DistinctIds.head_ne {c c' : DirectoryContent} (h : c.DistinctIds c') :
    ∀ node ∈ c.nodes, (c'.publicRoles.flatMap roleFields
      ++ c'.participants.flatMap participantFields).head? ≠ (nodeFields node).head? := by
  intro node hnode heq
  rcases hroles : c'.publicRoles with _ | ⟨role, roles⟩
  · rcases hparticipants : c'.participants with _ | ⟨p, participants⟩
    · simp [hroles, hparticipants, nodeFields] at heq
    · simp only [hroles, hparticipants, List.flatMap_nil, List.nil_append, List.flatMap_cons,
        participantFields, nodeFields, List.cons_append, List.head?_cons, Option.some.injEq] at heq
      exact h.node_player node hnode p (by simp [hparticipants]) heq.symm
  · simp only [hroles, List.flatMap_cons, roleFields, nodeFields, List.cons_append,
      List.head?_cons, Option.some.injEq] at heq
    exact h.node_role node hnode role (by simp [hroles]) heq.symm

/-- Behind the roles comes a player's identifier, or nothing. -/
theorem DirectoryContent.DistinctIds.participants_head_ne {c c' : DirectoryContent}
    (h : c.DistinctIds c') : ∀ role ∈ c'.publicRoles,
      (c.participants.flatMap participantFields).head? ≠ (roleFields role).head? := by
  intro role hrole heq
  rcases hparticipants : c.participants with _ | ⟨p, participants⟩
  · simp [hparticipants, roleFields] at heq
  · simp only [hparticipants, List.flatMap_cons, participantFields, roleFields, List.cons_append,
      List.head?_cons, Option.some.injEq] at heq
    exact h.player_role p (by simp [hparticipants]) role hrole heq

theorem DirectoryContent.DistinctIds.dividedAlike {c c' : DirectoryContent}
    (h : c.DistinctIds c') (h' : c'.DistinctIds c) : c.DividedAlike c' := by
  intro hfields
  simp only [DirectoryContent.fields, List.append_assoc] at hfields
  have hnodes := length_eq_of_flatMap_append (k := 5) (by omega) (fun _ => rfl) hfields
    (fun node hnode => h'.head_ne node hnode) fun node hnode => h.head_ne node hnode
  have hnodeLength : (c.nodes.flatMap nodeFields).length = (c'.nodes.flatMap nodeFields).length := by
    simp [List.length_flatMap, nodeFields, List.map_const', hnodes]
  have hrest := (List.append_inj hfields hnodeLength).2
  have hroles := length_eq_of_flatMap_append (k := 2) (by omega) (fun _ => rfl) hrest
    (fun role hrole => h.participants_head_ne role hrole) fun role hrole =>
      h'.participants_head_ne role hrole
  have hroleLength : (c.publicRoles.flatMap roleFields).length
      = (c'.publicRoles.flatMap roleFields).length := by
    simp [List.length_flatMap, roleFields, List.map_const', hroles]
  have hflat := (List.append_inj hrest hroleLength).2
  have hassigned : ∀ {d d' : DirectoryContent}, d.DistinctIds d' → ∀ p ∈ d.participants,
      ∀ p' ∈ d'.participants, ∀ b ∈ (participantFields p).head?,
        b ∉ (participantFields p').drop 3 := by
    intro d d' hd p hp p' hp' b hb hmem
    obtain rfl : p.playerId.value = b := by simpa [participantFields] using hb
    simp only [participantFields, List.drop_succ_cons, List.drop_zero, List.mem_map] at hmem
    obtain ⟨roleId, hrole, heq⟩ := hmem
    exact hd.player_assigned p hp p' hp' roleId hrole heq.symm
  have hparticipants := map_length_eq_of_flatMap_eq (k := 3) (by omega)
    (fun p => by simp [participantFields]) hflat (hassigned h) (hassigned h')
  have hcount : (c.participants.map fun p => p.publicRoleIds.length)
      = c'.participants.map fun p => p.publicRoleIds.length := by
    have hsub := congrArg (List.map (· - 3)) hparticipants
    simpa [participantFields, List.map_map, Function.comp_def] using hsub
  simp only [DirectoryContent.division, hnodes, hroles, hcount]

/-- Where nodes, roles and players never share an identifier, a version stands for one content. -/
theorem versionsTellContent_of_distinctIds (ops : List DirectoryOp) (g : GroupId)
    (h : ∀ c ∈ contentLog {} ops, ∀ c' ∈ contentLog {} ops, c.2.DistinctIds c'.2) :
    VersionsTellContent (directoryLog {} ops) g := by
  refine (versionsTellContent_iff ops g).2 ?_
  refine List.isChain_iff_forall_rel_of_append_cons_cons.2 fun c c' l₁ l₂ hsplit => ?_
  have hmem : ∀ x ∈ l₁ ++ c :: c' :: l₂, x ∈ contentLog {} ops := fun x hx =>
    List.mem_of_mem_filter (hsplit ▸ hx)
  have hc := hmem c (by simp)
  have hc' := hmem c' (by simp)
  exact (h c hc c' hc').dividedAlike (h c' hc' c hc)

namespace Sample

def staff : TeamId := ⟨bytes "staff", by decide⟩

def carol : PlayerId := ⟨bytes "carol", by decide⟩

/-- The hierarchy with a second team. -/
def staffedHierarchy : Hierarchy :=
  { hierarchy with
    teams := [⟨team, specialization, bytes "Team"⟩, ⟨staff, specialization, bytes "Staff"⟩]
    teams_unique := by decide
    teams_owned := by decide }

def guest : RoleId := ⟨bytes "guest", by decide⟩

/-- Roles whose identifiers are those of `bob`, of his display name and of his team. -/
def confusableRoles : List RoleId :=
  [⟨bob.value, bob.nonempty⟩, guest, ⟨staff.value, staff.nonempty⟩]

def contextOf (memberships : List VoiceMembership)
    (players_unique : (memberships.map VoiceMembership.playerId).Nodup)
    (paths_valid : ∀ m ∈ memberships, MembershipSnapshot.validPath staffedHierarchy m = true)
    (sorted : memberships.Pairwise fun a b => MembershipSnapshot.byPlayer a b = true) :
    AuthoritativeMembershipContext where
  snapshot :=
    ⟨1, staffedHierarchy, memberships, Nat.one_pos, players_unique, paths_valid, sorted⟩
  rolePolicy := rolePolicy

def withoutBob : AuthoritativeMembershipContext :=
  contextOf [{ member alice with roleIds := confusableRoles },
    { member carol with roleIds := confusableRoles }] (by decide) (by decide) (by decide)

def withBob : AuthoritativeMembershipContext :=
  contextOf [{ member alice with roleIds := [] },
    { member bob with teamId := staff, roleIds := [] },
    { member carol with roleIds := confusableRoles }] (by decide) (by decide) (by decide)

/-- `bob` joins and `alice` loses her roles between two reads of `carol`'s. -/
def confusableReads : List DirectoryOp :=
  [.upsertProfile ⟨bob, bytes "guest", 1⟩,
    .replacePublicRoles 1 (confusableRoles.map fun roleId => ⟨roleId, bytes "Role", 1⟩),
    .directoryFor (fun _ => some withoutBob) carol,
    .directoryFor (fun _ => some withBob) carol]

end Sample

open Sample in
/-- The second read lists one more participant under the version of the first. -/
theorem directory_version_confuses :
    ¬VersionsTellContent (directoryLog {} confusableReads) group := by
  have hreads : ((directoryLog {} confusableReads).filter fun a => a.groupId = group).map
      (fun a => (a.version, a.participants.length)) = [(1, 2), (1, 3)] := by decide +kernel
  intro htell
  unfold VersionsTellContent at htell
  generalize (directoryLog {} confusableReads).filter (fun a => a.groupId = group) = reads
    at hreads htell
  rcases reads with _ | ⟨a, _ | ⟨b, rest⟩⟩
  · simp at hreads
  · simp at hreads
  simp only [List.map_cons, List.cons.injEq, Prod.mk.injEq] at hreads
  obtain ⟨⟨hversion, hlength⟩, ⟨hversion', hlength'⟩, -⟩ := hreads
  have hsame := List.rel_of_pairwise_cons htell (List.mem_cons_self ..)
    (hversion.trans hversion'.symm)
  rw [hsame.participants, hlength'] at hlength
  omega

end VoxTree

import VoxTree.Services
import VoxTree.ClientTypes
import Mathlib.Data.List.Sort

/-!
# The directory service

`DirectoryApplicationService`. The membership provider and the connection counts are arguments of
each read: between two reads they may change in any way.
-/

namespace VoxTree

structure DirectoryProfile where
  playerId : PlayerId
  displayName : Bytes
  version : ℕ

structure VersionedDirectory where
  version : ℕ
  fingerprint : Bytes

structure PresenceRevision where
  version : ℕ
  entries : List DirectoryPresenceEntry

abbrev PresenceStates := Std.ExtTreeMap PlayerId DirectoryPresenceState

structure VersionedPresence where
  version : ℕ := 0
  initialized : Bool := false
  states : PresenceStates := ∅
  revisions : List PresenceRevision := []

structure DirectoryApplicationService where
  profiles : Std.ExtTreeMap PlayerId DirectoryProfile := ∅
  publicRoles : Std.ExtTreeMap RoleId PublicDirectoryRole := ∅
  publicRoleCatalogVersion : ℕ := 0
  directoryVersions : Std.ExtTreeMap GroupId VersionedDirectory := ∅
  presenceVersions : Std.ExtTreeMap GroupId VersionedPresence := ∅

abbrev Memberships := PlayerId → Option AuthoritativeMembershipContext

def maximumDirectoryParticipants : ℕ := 200

def maximumPresenceRevisions : ℕ := 128

/-! ## Fingerprints -/

def appendFingerprint (fingerprint value : Bytes) : Bytes :=
  fingerprint ++ decimal value.length ++ [0x3a] ++ value ++ [0x3b]

def nodeTypeFingerprint : DirectoryNodeType → Bytes
  | .group => bytes "group"
  | .specialization => bytes "specialization"
  | .team => bytes "team"

def nodeFields (node : DirectoryNode) : List Bytes :=
  [node.nodeId, nodeTypeFingerprint node.nodeType, node.parentNodeId.getD [], node.displayName,
    decimal node.sortIndex]

def roleFields (role : PublicDirectoryRole) : List Bytes := [role.roleId.value, role.displayName]

def participantFields (participant : DirectoryParticipant) : List Bytes :=
  participant.playerId.value :: participant.displayName :: participant.primaryTeamId.value
    :: participant.publicRoleIds.map StrongId.value

/-- The visible lists of a directory snapshot. -/
structure DirectoryContent where
  nodes : List DirectoryNode
  publicRoles : List PublicDirectoryRole
  participants : List DirectoryParticipant

/-- What is appended to the fingerprint, in order. -/
def DirectoryContent.fields (content : DirectoryContent) : List Bytes :=
  content.nodes.flatMap nodeFields ++ content.publicRoles.flatMap roleFields
    ++ content.participants.flatMap participantFields

def DirectoryContent.fingerprint (content : DirectoryContent) : Bytes :=
  content.fields.foldl appendFingerprint []

namespace DirectoryApplicationService

variable (s : DirectoryApplicationService)

/-! ## Profiles and roles -/

def upsertProfile (profile : DirectoryProfile) :
    Except InvalidArgument Bool × DirectoryApplicationService :=
  if profile.displayName = [] ∨ profile.version = 0 then
    (.error ⟨"A directory profile requires a name and positive version."⟩, s)
  else if s.profiles[profile.playerId]?.any fun existing =>
      profile.version ≤ existing.version then
    (.ok false, s)
  else (.ok true, { s with profiles := s.profiles.insert profile.playerId profile })

/-- The loop of `replacePublicRoles` over the roles. -/
def collectRoles (catalogVersion : ℕ) (replacement : Std.ExtTreeMap RoleId PublicDirectoryRole) :
    List PublicDirectoryRole → Except InvalidArgument (Std.ExtTreeMap RoleId PublicDirectoryRole)
  | [] => .ok replacement
  | role :: rest =>
    if role.displayName = [] ∨ role.version = 0 ∨ catalogVersion < role.version then
      .error ⟨"A public role has an invalid name or version."⟩
    else if replacement.contains role.roleId then
      .error ⟨"The public role catalog contains a duplicate role."⟩
    else collectRoles catalogVersion (replacement.insert role.roleId role) rest

def replacePublicRoles (catalogVersion : ℕ) (roles : List PublicDirectoryRole) :
    Except InvalidArgument Bool × DirectoryApplicationService :=
  if catalogVersion = 0 then
    (.error ⟨"A public role catalog requires a positive version."⟩, s)
  else
    match collectRoles catalogVersion ∅ roles with
    | .error e => (.error e, s)
    | .ok replacement =>
      if catalogVersion ≤ s.publicRoleCatalogVersion then (.ok false, s)
      else
        (.ok true, { s with
          publicRoles := replacement
          publicRoleCatalogVersion := catalogVersion })

/-! ## Reading the directory -/

/-- `currentContextFor`, together with the actor's membership in the context. -/
def currentContextFor (memberships : Memberships) (actor : PlayerId) :
    Option (AuthoritativeMembershipContext × VoiceMembership) :=
  match memberships actor with
  | none => none
  | some context =>
    match context.snapshot.find actor with
    | none => none
    | some membership =>
      if (context.snapshot.hierarchy.findGroup membership.groupId).any Group.active then
        some (context, membership)
      else none

/-- The memberships of a group, by player. -/
def visibleMemberships (snapshot : MembershipSnapshot) (groupId : GroupId) :
    List VoiceMembership :=
  (snapshot.memberships.filter fun m => m.groupId = groupId).insertionSort
    fun a b => MembershipSnapshot.byPlayer a b = true

def specializationNodes (hierarchy : Hierarchy) (group : Group) : List DirectoryNode :=
  (hierarchy.specializations.filter fun specialization =>
      specialization.groupId = group.id).zipIdx.map fun (specialization, index) =>
    ⟨specialization.id.value, .specialization, some group.id.value, specialization.displayName,
      index⟩

/-- The loop over the teams, with the next index below each visible specialization. -/
def teamNodes (nextTeamSortIndex : Std.ExtTreeMap SpecializationId ℕ) :
    List Team → List DirectoryNode
  | [] => []
  | team :: rest =>
    match nextTeamSortIndex[team.specializationId]? with
    | none => teamNodes nextTeamSortIndex rest
    | some index =>
      ⟨team.id.value, .team, some team.specializationId.value, team.displayName, index⟩
        :: teamNodes (nextTeamSortIndex.insert team.specializationId (index + 1)) rest

def directoryNodes (hierarchy : Hierarchy) (group : Group) : List DirectoryNode :=
  let visible := hierarchy.specializations.filter fun specialization =>
    specialization.groupId = group.id
  ⟨group.id.value, .group, none, group.displayName, 0⟩ :: specializationNodes hierarchy group
    ++ teamNodes (visible.foldl (fun next specialization => next.insert specialization.id 0) ∅)
      hierarchy.teams

/-- In ascending order and each once. -/
def sortedUnique (roleIds : List RoleId) : List RoleId :=
  (roleIds.insertionSort fun a b => (compare a b).isLE = true).eraseReps

/-- The assigned roles that the catalog lists. -/
def publicRoleIds (m : VoiceMembership) : List RoleId :=
  m.roleIds.filter fun roleId => s.publicRoles.contains roleId

def participant (m : VoiceMembership) : DirectoryParticipant where
  playerId := m.playerId
  displayName := (s.profiles[m.playerId]?).elim m.playerId.value DirectoryProfile.displayName
  primaryTeamId := m.teamId
  publicRoleIds := sortedUnique (s.publicRoleIds m)

/-- What the sources of a participant's row raise the source version to. -/
def raiseSourceVersion (sourceVersion : ℕ) (m : VoiceMembership) : ℕ :=
  (s.publicRoleIds m).foldl (fun v roleId =>
      max v ((s.publicRoles[roleId]?).elim 0 PublicDirectoryRole.version))
    (max sourceVersion ((s.profiles[m.playerId]?).elim 0 DirectoryProfile.version))

def directoryContent (hierarchy : Hierarchy) (group : Group) (visible : List VoiceMembership) :
    DirectoryContent where
  nodes := directoryNodes hierarchy group
  publicRoles := (sortedUnique (visible.flatMap s.publicRoleIds)).filterMap fun roleId =>
    s.publicRoles[roleId]?
  participants := visible.map s.participant

/-- The end of `makeDirectory`: the version the content gets, which may be exhausted. -/
def versionFor (groupId : GroupId) (sourceVersion : ℕ) (fingerprint : Bytes) :
    Option ℕ × DirectoryApplicationService :=
  match s.directoryVersions[groupId]? with
  | none =>
    let version := max 1 sourceVersion
    (some version, { s with
      directoryVersions := s.directoryVersions.insert groupId ⟨version, fingerprint⟩ })
  | some versioned =>
    if versioned.fingerprint = fingerprint then (some versioned.version, s)
    else if UInt64.size ≤ versioned.version + 1 then (none, s)
    else
      let version := max (versioned.version + 1) sourceVersion
      (some version, { s with
        directoryVersions := s.directoryVersions.insert groupId ⟨version, fingerprint⟩ })

def makeDirectory (context : AuthoritativeMembershipContext) (actorMembership : VoiceMembership) :
    Except ServiceException (Except DirectoryReadError DirectorySnapshot)
      × DirectoryApplicationService :=
  let snapshot := context.snapshot
  match snapshot.hierarchy.findGroup actorMembership.groupId with
  | none => (.ok (.error .directoryUnavailable), s)
  | some group =>
    if !group.active then (.ok (.error .directoryUnavailable), s)
    else
      let visible := visibleMemberships snapshot actorMembership.groupId
      if maximumDirectoryParticipants < visible.length then
        (.ok (.error .directoryLimitExceeded), s)
      else
        let content := s.directoryContent snapshot.hierarchy group visible
        match s.versionFor actorMembership.groupId
            (visible.foldl s.raiseSourceVersion snapshot.version) content.fingerprint with
        | (none, s') => (.error .other, s')
        | (some version, s') =>
          (.ok (.ok ⟨version, actorMembership.groupId, content.nodes, content.publicRoles,
            content.participants⟩), s')

def directoryFor (memberships : Memberships) (actor : PlayerId) :
    Except ServiceException (Except DirectoryReadError DirectorySnapshot)
      × DirectoryApplicationService :=
  match currentContextFor memberships actor with
  | none => (.ok (.error .directoryUnavailable), s)
  | some (context, membership) => s.makeDirectory context membership

/-! ## Reading presence -/

/-- The loop over the memberships that reads the transport, `none` where there are too many. -/
def currentStates (groupId : GroupId) (connectedScopeCount : PlayerId → ℕ)
    (states : PresenceStates) : List VoiceMembership → Option PresenceStates
  | [] => some states
  | m :: rest =>
    if m.groupId ≠ groupId then currentStates groupId connectedScopeCount states rest
    else if states.size = maximumDirectoryParticipants then none
    else
      let state : DirectoryPresenceState :=
        if connectedScopeCount m.playerId = 0 then .offline else .online
      currentStates groupId connectedScopeCount (states.insertIfNew m.playerId state) rest

def entriesOf (states : PresenceStates) : List DirectoryPresenceEntry :=
  states.toList.map fun entry => ⟨entry.1, entry.2⟩

/-- The entries of `current` that `previous` does not have. -/
def changedEntries (previous current : PresenceStates) : List DirectoryPresenceEntry :=
  (entriesOf current).filter fun entry => previous[entry.playerId]? ≠ some entry.state

end DirectoryApplicationService

namespace VersionedPresence

variable (versioned : VersionedPresence)

/-- The record after the states were observed; `none` where the versions are exhausted. -/
def observe (current : PresenceStates) : Option VersionedPresence :=
  if !versioned.initialized then
    some { versioned with version := 1, initialized := true, states := current }
  else if versioned.states ≠ current then
    if UInt64.size ≤ versioned.version + 1 then none
    else
      let revisions := versioned.revisions ++
        [⟨versioned.version + 1,
          DirectoryApplicationService.changedEntries versioned.states current⟩]
      some { versioned with
        version := versioned.version + 1
        states := current
        revisions :=
          if maximumPresenceRevisions < revisions.length then revisions.tail else revisions }
  else some versioned

/-- Whether a delta base is not retained. -/
def snapshotRequired (after : ℕ) : Bool :=
  after = 0 || versioned.version < after
    || versioned.revisions.head?.any fun first => after < first.version - 1

/-- The loop over the revisions behind the delta base. -/
def latestChanges (after : ℕ) : PresenceStates :=
  (versioned.revisions.filter fun revision => after < revision.version).foldl
    (fun latest revision =>
      (revision.entries.filter fun entry => versioned.states.contains entry.playerId).foldl
        (fun latest entry => latest.insert entry.playerId entry.state) latest) ∅

def answer (afterVersion : Option ℕ) (observedAt : TimePoint) :
    Except DirectoryPresenceReadError DirectoryPresenceSnapshot :=
  match afterVersion with
  | none =>
    .ok ⟨versioned.version, .snapshot, observedAt,
      DirectoryApplicationService.entriesOf versioned.states⟩
  | some after =>
    if versioned.snapshotRequired after then .error .snapshotRequired
    else
      .ok ⟨versioned.version, .delta, observedAt,
        DirectoryApplicationService.entriesOf (versioned.latestChanges after)⟩

end VersionedPresence

namespace DirectoryApplicationService

def presenceFor (s : DirectoryApplicationService) (memberships : Memberships)
    (connectedScopeCount : PlayerId → ℕ) (actor : PlayerId) (afterVersion : Option ℕ)
    (observedAt : TimePoint) :
    Except ServiceException (Except DirectoryPresenceReadError DirectoryPresenceSnapshot)
      × DirectoryApplicationService :=
  match currentContextFor memberships actor with
  | none => (.ok (.error .directoryUnavailable), s)
  | some (context, membership) =>
    match currentStates membership.groupId connectedScopeCount ∅ context.snapshot.memberships with
    | none => (.ok (.error .directoryUnavailable), s)
    | some current =>
      match ((s.presenceVersions[membership.groupId]?).getD {}).observe current with
      | none => (.error .other, s)
      | some versioned =>
        (.ok (versioned.answer afterVersion observedAt), { s with
          presenceVersions := s.presenceVersions.insert membership.groupId versioned })

end DirectoryApplicationService

/-! ## Runs -/

/-- A call of the service with what its providers answer during the call. -/
inductive DirectoryOp
  | upsertProfile (profile : DirectoryProfile)
  | replacePublicRoles (catalogVersion : ℕ) (roles : List PublicDirectoryRole)
  | directoryFor (memberships : Memberships) (actor : PlayerId)
  | presenceFor (memberships : Memberships) (connectedScopeCount : PlayerId → ℕ)
      (actor : PlayerId) (afterVersion : Option ℕ) (observedAt : TimePoint)

def DirectoryOp.call (s : DirectoryApplicationService) : DirectoryOp → DirectoryApplicationService
  | .upsertProfile profile => (s.upsertProfile profile).2
  | .replacePublicRoles catalogVersion roles => (s.replacePublicRoles catalogVersion roles).2
  | .directoryFor memberships actor => (s.directoryFor memberships actor).2
  | .presenceFor memberships connectedScopeCount actor afterVersion observedAt =>
    (s.presenceFor memberships connectedScopeCount actor afterVersion observedAt).2

end VoxTree

import Mathlib.Tactic.Common

/-!
# Identifiers, hierarchy, memberships and routing

Texts are byte strings, as `std::string` is. An identifier is a non-empty text of one category. A
hierarchy, a membership snapshot and a role policy can only be built by their constructors, so
their fields carry what the constructors check.
-/

namespace VoxTree

/-- `std::string`. -/
abbrev Bytes := List UInt8

/-- The bytes of a source literal. -/
def bytes (s : String) : Bytes := s.toUTF8.data.toList

theorem bytes_injective : Function.Injective bytes := by
  intro s t h
  exact String.toByteArray_inj.1 (ByteArray.ext (Array.toList_inj.1 h))

/-- `std::invalid_argument`. -/
structure InvalidArgument where
  message : String
  deriving DecidableEq, Repr

inductive IdTag
  | player | group | specialization | team | hierarchy | transmission | clientTransmission | role
  | session | device | correlation
  deriving DecidableEq

/-- `StrongId<Tag>`. -/
@[ext]
structure StrongId (tag : IdTag) where
  value : Bytes
  nonempty : value ≠ []
  deriving DecidableEq

abbrev PlayerId := StrongId .player
abbrev GroupId := StrongId .group
abbrev SpecializationId := StrongId .specialization
abbrev TeamId := StrongId .team
abbrev HierarchyId := StrongId .hierarchy
abbrev TransmissionId := StrongId .transmission
abbrev ClientTransmissionId := StrongId .clientTransmission
abbrev RoleId := StrongId .role
abbrev SessionId := StrongId .session
abbrev DeviceId := StrongId .device
abbrev CorrelationId := StrongId .correlation

namespace StrongId

variable {tag : IdTag}

def make (value : Bytes) : Except InvalidArgument (StrongId tag) :=
  if h : value ≠ [] then .ok ⟨value, h⟩ else .error ⟨"An identifier must not be empty."⟩

theorem value_injective : Function.Injective (value : StrongId tag → Bytes) := fun _ _ =>
  StrongId.ext

/-- Identifiers compare by their text, byte by byte. -/
instance : Ord (StrongId tag) := ⟨fun a b => compare a.value b.value⟩

instance : Std.TransOrd (StrongId tag) where
  eq_swap {a b} := Std.OrientedOrd.eq_swap (a := a.value) (b := b.value)
  isLE_trans {a b c} := Std.TransOrd.isLE_trans (a := a.value) (b := b.value) (c := c.value)

instance : Std.LawfulEqOrd (StrongId tag) where
  compare_self {a} := Std.ReflOrd.compare_self (a := a.value)
  eq_of_compare {a b} h := by
    obtain ⟨a, _⟩ := a
    obtain ⟨b, _⟩ := b
    obtain rfl := Std.LawfulEqOrd.eq_of_compare (a := a) (b := b) h
    rfl

end StrongId

/-! ## Hierarchy -/

inductive VoiceScope
  | team | specialization | group
  deriving DecidableEq, Repr

structure ScopeDefinition where
  scope : VoiceScope
  displayName : Bytes
  priority : Int
  maxConcurrentSpeakers : Option Nat
  deriving DecidableEq

structure Group where
  id : GroupId
  displayName : Bytes
  active : Bool := true
  deriving DecidableEq

structure Specialization where
  id : SpecializationId
  groupId : GroupId
  displayName : Bytes
  deriving DecidableEq

structure Team where
  id : TeamId
  specializationId : SpecializationId
  displayName : Bytes
  deriving DecidableEq

namespace Hierarchy

/-- The loop of the constructor over the scope definitions. -/
def checkScopes : List ScopeDefinition → Option InvalidArgument
  | [] => none
  | current :: rest =>
    if current.displayName = [] then some ⟨"A scope display name must not be empty."⟩
    else if rest.any fun candidate => current.scope = candidate.scope then
      some ⟨"Duplicate voice scope."⟩
    else checkScopes rest

end Hierarchy

/-- `Hierarchy`, with what its constructor checks. -/
structure Hierarchy where
  id : HierarchyId
  scopes : List ScopeDefinition
  groups : List Group
  specializations : List Specialization
  teams : List Team
  groups_unique : (groups.map Group.id).Nodup
  specializations_unique : (specializations.map Specialization.id).Nodup
  teams_unique : (teams.map Team.id).Nodup
  scopes_valid : Hierarchy.checkScopes scopes = none
  specializations_owned : ∀ s ∈ specializations, s.groupId ∈ groups.map Group.id
  teams_owned : ∀ t ∈ teams, t.specializationId ∈ specializations.map Specialization.id
  deriving DecidableEq

namespace Hierarchy

def make (id : HierarchyId) (scopes : List ScopeDefinition) (groups : List Group)
    (specializations : List Specialization) (teams : List Team) :
    Except InvalidArgument Hierarchy :=
  if hg : (groups.map Group.id).Nodup then
    if hs : (specializations.map Specialization.id).Nodup then
      if ht : (teams.map Team.id).Nodup then
        match hc : checkScopes scopes with
        | some e => .error e
        | none =>
          if hso : ∀ s ∈ specializations, s.groupId ∈ groups.map Group.id then
            if hto : ∀ t ∈ teams, t.specializationId ∈ specializations.map Specialization.id then
              .ok ⟨id, scopes, groups, specializations, teams, hg, hs, ht, hc, hso, hto⟩
            else .error ⟨"A team references an unknown specialization."⟩
          else .error ⟨"A specialization references an unknown group."⟩
      else .error ⟨"Duplicate team ID."⟩
    else .error ⟨"Duplicate specialization ID."⟩
  else .error ⟨"Duplicate group ID."⟩

variable (h : Hierarchy)

def findScope (scope : VoiceScope) : Option ScopeDefinition :=
  h.scopes.find? fun definition => definition.scope = scope

def findGroup (groupId : GroupId) : Option Group := h.groups.find? fun group => group.id = groupId

def findSpecialization (specializationId : SpecializationId) : Option Specialization :=
  h.specializations.find? fun item => item.id = specializationId

def findTeam (teamId : TeamId) : Option Team := h.teams.find? fun team => team.id = teamId

end Hierarchy

/-! ## Memberships -/

inductive VoiceBanStatus
  | none | temporary | permanent
  deriving DecidableEq

structure VoiceMembership where
  playerId : PlayerId
  groupId : GroupId
  specializationId : SpecializationId
  teamId : TeamId
  roleIds : List RoleId
  connected : Bool := true
  canReceiveVoice : Bool := true
  transmitMuted : Bool := false
  voiceBanStatus : VoiceBanStatus := .none
  deriving DecidableEq

namespace MembershipSnapshot

/-- The hierarchy path the constructor asks of a membership. -/
def validPath (hierarchy : Hierarchy) (membership : VoiceMembership) : Bool :=
  match hierarchy.findGroup membership.groupId,
    hierarchy.findSpecialization membership.specializationId,
    hierarchy.findTeam membership.teamId with
  | some group, some specialization, some team =>
    specialization.groupId = group.id && team.specializationId = specialization.id
  | _, _, _ => false

/-- The order `std::ranges::sort` puts the memberships in. -/
def byPlayer (a b : VoiceMembership) : Bool := (compare a.playerId b.playerId).isLE

end MembershipSnapshot

/-- `MembershipSnapshot`, with what its constructor checks and the order it leaves behind. -/
structure MembershipSnapshot where
  version : Nat
  hierarchy : Hierarchy
  memberships : List VoiceMembership
  version_pos : 0 < version
  players_unique : (memberships.map VoiceMembership.playerId).Nodup
  paths_valid : ∀ m ∈ memberships, MembershipSnapshot.validPath hierarchy m = true
  sorted : memberships.Pairwise fun a b => MembershipSnapshot.byPlayer a b = true
  deriving DecidableEq

namespace MembershipSnapshot

theorem byPlayer_trans (a b c : VoiceMembership) (h₁ : byPlayer a b = true)
    (h₂ : byPlayer b c = true) : byPlayer a c = true :=
  Std.TransOrd.isLE_trans h₁ h₂

theorem byPlayer_total (a b : VoiceMembership) : (byPlayer a b || byPlayer b a) = true := by
  unfold byPlayer
  rw [Std.OrientedOrd.eq_swap (a := b.playerId) (b := a.playerId)]
  cases compare a.playerId b.playerId <;> rfl

def make (version : Nat) (hierarchy : Hierarchy) (memberships : List VoiceMembership) :
    Except InvalidArgument MembershipSnapshot :=
  if hv : 0 < version then
    if hu : (memberships.map VoiceMembership.playerId).Nodup then
      if hp : ∀ m ∈ memberships, validPath hierarchy m = true then
        .ok
          { version, hierarchy
            memberships := memberships.mergeSort byPlayer
            version_pos := hv
            players_unique := ((List.mergeSort_perm memberships byPlayer).map _).nodup_iff.2 hu
            paths_valid := fun m hm => hp m ((List.mergeSort_perm memberships byPlayer).mem_iff.1 hm)
            sorted := List.pairwise_mergeSort byPlayer_trans byPlayer_total memberships }
      else .error ⟨"A membership does not form a valid hierarchy path."⟩
    else .error ⟨"Duplicate player ID."⟩
  else .error ⟨"A membership snapshot version must be greater than zero."⟩

/-- `std::ranges::lower_bound` on the sorted memberships, then the comparison with the player. -/
def find (snapshot : MembershipSnapshot) (playerId : PlayerId) : Option VoiceMembership :=
  match snapshot.memberships.find? fun m => compare m.playerId playerId ≠ .lt with
  | some found => if found.playerId ≠ playerId then none else some found
  | none => none

theorem find_some {snapshot : MembershipSnapshot} {p : PlayerId} {m : VoiceMembership}
    (h : snapshot.find p = some m) : m ∈ snapshot.memberships ∧ m.playerId = p := by
  unfold find at h
  split at h
  · rename_i found hf
    split_ifs at h with hp
    obtain rfl := Option.some.inj h
    exact ⟨List.mem_of_find?_eq_some hf, not_not.1 hp⟩
  · cases h

end MembershipSnapshot

structure RolePermissions where
  roleId : RoleId
  transmitScopes : List VoiceScope
  receiveScopes : List VoiceScope
  deriving DecidableEq

/-- `RolePolicy`, with what its constructor checks. -/
structure RolePolicy where
  roles : List RolePermissions
  roles_unique : (roles.map RolePermissions.roleId).Nodup
  deriving DecidableEq

namespace RolePolicy

def make (roles : List RolePermissions) : Except InvalidArgument RolePolicy :=
  if h : (roles.map RolePermissions.roleId).Nodup then .ok ⟨roles, h⟩
  else .error ⟨"Duplicate role ID."⟩

variable (policy : RolePolicy) (roles : List RoleId) (scope : VoiceScope)

/-- Whether any assigned role lists the scope among those `scopes` reads off its permissions. -/
def grants (scopes : RolePermissions → List VoiceScope) : Bool :=
  roles.any fun roleId =>
    match policy.roles.find? fun role => role.roleId = roleId with
    | some role => (scopes role).contains scope
    | none => false

def canTransmit : Bool := policy.grants roles scope RolePermissions.transmitScopes

def canReceive : Bool := policy.grants roles scope RolePermissions.receiveScopes

end RolePolicy

/-- `AuthoritativeMembershipContext`. -/
structure AuthoritativeMembershipContext where
  snapshot : MembershipSnapshot
  rolePolicy : RolePolicy
  deriving DecidableEq

/-! ## Routing -/

inductive RoutingError
  | voiceNotConnected | voiceNoActiveMembership | voiceScopeNotFound | voiceScopeNotAuthorized
  | voiceTransmitMuted | voiceMembershipStale
  deriving DecidableEq

structure TransmissionRequest where
  senderPlayerId : PlayerId
  requestedScope : VoiceScope
  membershipVersion : Nat
  deriving DecidableEq

structure RecipientRestriction where
  recipientPlayerId : PlayerId
  blockedSenderPlayerId : PlayerId
  deriving DecidableEq

namespace RecipientResolver

def belongsToScope (sender candidate : VoiceMembership) : VoiceScope → Bool
  | .team =>
    candidate.groupId = sender.groupId && candidate.specializationId = sender.specializationId
      && candidate.teamId = sender.teamId
  | .specialization =>
    candidate.groupId = sender.groupId && candidate.specializationId = sender.specializationId
  | .group => candidate.groupId = sender.groupId

def isRestricted (restrictions : List RecipientRestriction) (recipient sender : PlayerId) : Bool :=
  restrictions.any fun restriction =>
    restriction.recipientPlayerId = recipient && restriction.blockedSenderPlayerId = sender

def resolve (snapshot : MembershipSnapshot) (rolePolicy : RolePolicy)
    (request : TransmissionRequest) (restrictions : List RecipientRestriction := []) :
    Except RoutingError (List PlayerId) :=
  if request.membershipVersion ≠ snapshot.version then .error .voiceMembershipStale
  else
    match snapshot.find request.senderPlayerId with
    | none => .error .voiceNoActiveMembership
    | some sender =>
      if !sender.connected then .error .voiceNotConnected
      else if !(snapshot.hierarchy.findGroup sender.groupId).any Group.active then
        .error .voiceNoActiveMembership
      else if (snapshot.hierarchy.findScope request.requestedScope).isNone then
        .error .voiceScopeNotFound
      else if sender.transmitMuted || sender.voiceBanStatus ≠ .none then
        .error .voiceTransmitMuted
      else if !rolePolicy.canTransmit sender.roleIds request.requestedScope then
        .error .voiceScopeNotAuthorized
      else
        .ok <| (snapshot.memberships.filter fun candidate =>
          candidate.connected && candidate.canReceiveVoice
            && rolePolicy.canReceive candidate.roleIds request.requestedScope
            && belongsToScope sender candidate request.requestedScope
            && !isRestricted restrictions candidate.playerId sender.playerId).map
          VoiceMembership.playerId

end RecipientResolver

end VoxTree

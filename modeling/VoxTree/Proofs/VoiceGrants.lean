import VoxTree.VoiceGrants
import VoxTree.Proofs.Store
import Mathlib.Data.List.Nodup

/-!
# Voice grants and transmission starts

What `derive` grants is compared with what `authorizeStart` accepts and whom a start reaches. The
two evaluations agree but for one condition: a start asks that the sender's group is active and a
grant does not (`grants_agree_iff`).
-/

namespace VoxTree

/-! ## Scopes and nodes -/

theorem Hierarchy.findScope_isSome (h : Hierarchy) (scope : VoiceScope) :
    (h.findScope scope).isSome = true ↔ scope ∈ h.scopes.map ScopeDefinition.scope := by
  simp [findScope, List.find?_isSome]

namespace MembershipSnapshot

theorem find_eq_of_mem {snapshot : MembershipSnapshot} {m m' : VoiceMembership}
    (h : snapshot.find m.playerId = some m) (hm : m' ∈ snapshot.memberships)
    (hp : m'.playerId = m.playerId) : m' = m :=
  List.inj_on_of_nodup_map snapshot.players_unique hm (find_some h).1 hp

/-- The path of a membership: its group, its specialization in the group and its team in the
specialization. -/
theorem path_of_mem {snapshot : MembershipSnapshot} {m : VoiceMembership}
    (h : m ∈ snapshot.memberships) :
    ∃ specialization team,
      snapshot.hierarchy.findSpecialization m.specializationId = some specialization
      ∧ snapshot.hierarchy.findTeam m.teamId = some team
      ∧ specialization.groupId = m.groupId ∧ team.specializationId = m.specializationId := by
  have hpath := snapshot.paths_valid m h
  unfold validPath at hpath
  split at hpath
  · rename_i group specialization team hgroup hspecialization hteam
    have hgroupId : group.id = m.groupId := by
      simpa using List.find?_some hgroup
    have hspecializationId : specialization.id = m.specializationId := by
      simpa using List.find?_some hspecialization
    simp only [Bool.and_eq_true, decide_eq_true_eq] at hpath
    exact ⟨specialization, team, hspecialization, hteam, hpath.1.trans hgroupId,
      hpath.2.trans hspecializationId⟩
  · cases hpath

/-- Members of one node of a scope belong to the scope together. -/
theorem belongsToScope_of_sameNode {snapshot : MembershipSnapshot} {m m' : VoiceMembership}
    (hm : m ∈ snapshot.memberships) (hm' : m' ∈ snapshot.memberships) {scope : VoiceScope}
    (h : scopeNodeId m' scope = scopeNodeId m scope) :
    RecipientResolver.belongsToScope m' m scope = true := by
  obtain ⟨specialization, team, hs, ht, hgroup, hspecialization⟩ := path_of_mem hm
  obtain ⟨specialization', team', hs', ht', hgroup', hspecialization'⟩ := path_of_mem hm'
  have specialization_group : m'.specializationId = m.specializationId → m'.groupId = m.groupId := by
    intro heq
    rw [heq, hs] at hs'
    rw [← hgroup, ← hgroup', Option.some.inj hs']
  cases scope with
  | team =>
    have hteam : m'.teamId = m.teamId := StrongId.ext h
    have heq : m'.specializationId = m.specializationId := by
      rw [hteam, ht] at ht'
      rw [← hspecialization, ← hspecialization', Option.some.inj ht']
    simp [RecipientResolver.belongsToScope, hteam, heq, specialization_group heq]
  | specialization =>
    have heq : m'.specializationId = m.specializationId := StrongId.ext h
    simp [RecipientResolver.belongsToScope, heq, specialization_group heq]
  | group =>
    have heq : m'.groupId = m.groupId := StrongId.ext h
    simp [RecipientResolver.belongsToScope, heq]

end MembershipSnapshot

/-! ## Accepted requests -/

namespace RecipientResolver

/-- Whether the member's group is active. -/
def groupActive (snapshot : MembershipSnapshot) (m : VoiceMembership) : Bool :=
  (snapshot.hierarchy.findGroup m.groupId).any Group.active

def isRecipient (rolePolicy : RolePolicy) (request : TransmissionRequest)
    (restrictions : List RecipientRestriction) (sender candidate : VoiceMembership) : Bool :=
  candidate.connected && candidate.canReceiveVoice
    && rolePolicy.canReceive candidate.roleIds request.requestedScope
    && belongsToScope sender candidate request.requestedScope
    && !isRestricted restrictions candidate.playerId sender.playerId

/-- A request of a member of the snapshot is accepted exactly under these conditions, with these
recipients. -/
theorem resolve_ok_iff {snapshot : MembershipSnapshot} {rolePolicy : RolePolicy}
    {request : TransmissionRequest} {restrictions : List RecipientRestriction}
    {recipients : List PlayerId} :
    resolve snapshot rolePolicy request restrictions = .ok recipients ↔
      request.membershipVersion = snapshot.version
      ∧ ∃ sender, snapshot.find request.senderPlayerId = some sender
        ∧ sender.connected = true ∧ groupActive snapshot sender = true
        ∧ request.requestedScope ∈ snapshot.hierarchy.scopes.map ScopeDefinition.scope
        ∧ sender.transmitMuted = false ∧ sender.voiceBanStatus = .none
        ∧ rolePolicy.canTransmit sender.roleIds request.requestedScope = true
        ∧ recipients = (snapshot.memberships.filter
          (isRecipient rolePolicy request restrictions sender)).map VoiceMembership.playerId := by
  unfold resolve
  by_cases hversion : request.membershipVersion = snapshot.version
  swap
  · simp [hversion]
  rw [if_neg (not_not.2 hversion)]
  rcases hsender : snapshot.find request.senderPlayerId with _ | sender
  · simp
  have hscopes := snapshot.hierarchy.findScope_isSome request.requestedScope
  rw [← Option.not_isNone, Bool.not_eq_true'] at hscopes
  simp only [hversion, true_and, Option.some.injEq, exists_eq_left', ← hscopes,
    groupActive]
  rcases hconnected : sender.connected
  · simp
  rcases hactive : (snapshot.hierarchy.findGroup sender.groupId).any Group.active
  · simp
  rcases hscope : (snapshot.hierarchy.findScope request.requestedScope).isNone
  · rcases hmuted : sender.transmitMuted
    · rcases hrole : rolePolicy.canTransmit sender.roleIds request.requestedScope
      · by_cases hban : sender.voiceBanStatus = .none <;> simp [hban]
      · by_cases hban : sender.voiceBanStatus = .none
        · simp only [hban, ne_eq, not_true_eq_false, decide_false, Bool.or_false, Bool.not_true,
            Bool.false_eq_true, if_false, Except.ok.injEq, true_and]
          exact eq_comm
        · simp [hban]
    · simp
  · simp

/-- A request of a member of the snapshot at its version is accepted exactly where the member may
transmit on the scope. -/
theorem resolve_isOk_iff {snapshot : MembershipSnapshot} {rolePolicy : RolePolicy}
    {p : PlayerId} {scope : VoiceScope} {sender : VoiceMembership}
    (hsender : snapshot.find p = some sender) :
    (resolve snapshot rolePolicy ⟨p, scope, snapshot.version⟩).isOk = true ↔
      sender.connected = true ∧ groupActive snapshot sender = true
        ∧ scope ∈ snapshot.hierarchy.scopes.map ScopeDefinition.scope
        ∧ sender.transmitMuted = false ∧ sender.voiceBanStatus = .none
        ∧ rolePolicy.canTransmit sender.roleIds scope = true := by
  constructor
  · intro h
    rcases hr : resolve snapshot rolePolicy ⟨p, scope, snapshot.version⟩ with e | recipients
    · simp [hr, Except.isOk, Except.toBool] at h
    · obtain ⟨-, sender', hsender', hconnected, hactive, hscope, hmuted, hban, hrole, -⟩ :=
        resolve_ok_iff.1 hr
      obtain rfl : sender' = sender := Option.some.inj (hsender'.symm.trans hsender)
      exact ⟨hconnected, hactive, hscope, hmuted, hban, hrole⟩
  · rintro ⟨hconnected, hactive, hscope, hmuted, hban, hrole⟩
    rw [resolve_ok_iff.2 ⟨rfl, sender, hsender, hconnected, hactive, hscope, hmuted, hban, hrole,
      rfl⟩]
    rfl

end RecipientResolver

/-! ## Grants against starts -/

namespace VoiceGrantAuthorizationService

open RecipientResolver

variable {s : Store} {policy : VoiceGrantPolicy} {sessionId : SessionId} {deviceId : DeviceId}
  {now : TimePoint} {claims : VoiceGrantClaims}

/-- What a successful derivation has read. -/
structure Derived (s : Store) (policy : VoiceGrantPolicy) (sessionId : SessionId)
    (deviceId : DeviceId) (now : TimePoint) (claims : VoiceGrantClaims)
    (session : AuthenticatedSession) (context : AuthoritativeMembershipContext)
    (membership : VoiceMembership) : Prop where
  session_ok : ∀ {ε : Type} (notFound deviceMismatch expired : ε),
    requireSession notFound deviceMismatch expired s sessionId deviceId now = .ok session
  player : claims.playerId = session.playerId
  stored : s.memberships[session.playerId]? = some context
  found : context.snapshot.find session.playerId = some membership
  connected : membership.connected = true
  version : claims.membershipVersion = context.snapshot.version
  groupId : claims.groupId = membership.groupId
  specializationId : claims.specializationId = membership.specializationId
  teamId : claims.teamId = membership.teamId
  transmit : ∀ scope, scope ∈ claims.transmitScopes
    ↔ scope ∈ context.snapshot.hierarchy.scopes.map ScopeDefinition.scope
      ∧ mayTransmit context membership scope = true
  receive : ∀ scope, scope ∈ claims.receiveScopes
    ↔ scope ∈ context.snapshot.hierarchy.scopes.map ScopeDefinition.scope
      ∧ receiveRight context membership scope = true
  expiresAt : claims.expiresAt = min session.expiresAt (now + policy.lifetime.toNanoseconds)

theorem requireSession_ok_congr {ε ε' : Type*} {notFound deviceMismatch expired : ε}
    {notFound' deviceMismatch' expired' : ε'} {session : AuthenticatedSession}
    (h : requireSession notFound deviceMismatch expired s sessionId deviceId now = .ok session) :
    requireSession notFound' deviceMismatch' expired' s sessionId deviceId now = .ok session := by
  unfold requireSession at h ⊢
  split at h
  · cases h
  · split_ifs at h ⊢
    obtain rfl := Except.ok.inj h
    rfl

theorem derive_ok (h : derive s policy sessionId deviceId now = .ok claims) :
    ∃ session context membership,
      Derived s policy sessionId deviceId now claims session context membership := by
  unfold derive at h
  split at h
  · cases h
  rename_i session hsession
  split at h
  · cases h
  rename_i context hcontext
  split at h
  · cases h
  rename_i membership hmembership
  split_ifs at h with hconnected
  obtain rfl := Except.ok.inj h
  exact ⟨session, context, membership, fun _ _ _ => requireSession_ok_congr hsession, rfl, hcontext,
    hmembership, by simpa using hconnected, rfl, rfl, rfl, rfl, fun _ => List.mem_filter,
    fun _ => List.mem_filter, rfl⟩

/-- The grants and the starts of the same session, at the same time, agree. -/
structure Agree (s : Store) (sessionId : SessionId) (deviceId : DeviceId) (now : TimePoint)
    (claims : VoiceGrantClaims) : Prop where
  /-- A scope is granted for sending exactly if a start on it is accepted. -/
  transmit : ∀ (scope : VoiceScope) (clientTransmissionId : ClientTransmissionId)
    (correlationId : CorrelationId) (id : TransmissionId),
    scope ∈ claims.transmitScopes ↔ (authorizeStart s ⟨sessionId, deviceId, clientTransmissionId,
      scope, claims.membershipVersion, correlationId⟩ now id).isOk = true
  /-- On a scope granted for receiving, the player is reached by every accepted request of a
  member of his node. -/
  receive : ∀ scope ∈ claims.receiveScopes, ∀ context membership sender,
    s.memberships[claims.playerId]? = some context →
    context.snapshot.find claims.playerId = some membership →
    context.snapshot.find sender.playerId = some sender →
    scopeNodeId sender scope = scopeNodeId membership scope →
    ∀ version recipients, resolve context.snapshot context.rolePolicy
      ⟨sender.playerId, scope, version⟩ = .ok recipients → claims.playerId ∈ recipients
  /-- On another scope he is reached by no accepted request. -/
  unreceived : ∀ scope, scope ∉ claims.receiveScopes → ∀ context,
    s.memberships[claims.playerId]? = some context →
    ∀ sender version restrictions recipients, resolve context.snapshot context.rolePolicy
      ⟨sender, scope, version⟩ restrictions = .ok recipients → claims.playerId ∉ recipients

/-- The player's group is active, or he may not transmit on any scope anyway: he is muted or
banned, or no role of his transmits on a scope of the hierarchy. -/
def GroupActiveOrSilent (context : AuthoritativeMembershipContext) (membership : VoiceMembership) :
    Prop :=
  groupActive context.snapshot membership = true ∨ membership.transmitMuted = true
    ∨ membership.voiceBanStatus ≠ .none
    ∨ ∀ definition ∈ context.snapshot.hierarchy.scopes,
      context.rolePolicy.canTransmit membership.roleIds definition.scope = false

variable {session : AuthenticatedSession} {context : AuthoritativeMembershipContext}
  {membership : VoiceMembership}

/-- A start of the same session is accepted where a scope is granted and the group is active. -/
theorem authorizeStart_isOk_iff
    (h : Derived s policy sessionId deviceId now claims session context membership)
    (scope : VoiceScope) (clientTransmissionId : ClientTransmissionId)
    (correlationId : CorrelationId) (id : TransmissionId) :
    (authorizeStart s ⟨sessionId, deviceId, clientTransmissionId, scope, claims.membershipVersion,
      correlationId⟩ now id).isOk = true
      ↔ scope ∈ claims.transmitScopes ∧ groupActive context.snapshot membership = true := by
  have hstart : (authorizeStart s ⟨sessionId, deviceId, clientTransmissionId, scope,
      claims.membershipVersion, correlationId⟩ now id).isOk
        = (resolve context.snapshot context.rolePolicy
          ⟨session.playerId, scope, context.snapshot.version⟩).isOk := by
    simp only [authorizeStart, h.session_ok, h.stored, h.version]
    split <;> rename_i hr <;> rw [hr] <;> rfl
  rw [hstart, resolve_isOk_iff h.found, h.transmit]
  simp only [mayTransmit, h.connected, Bool.and_eq_true, Bool.not_eq_true', decide_eq_true_eq,
    true_and]
  tauto

/-- On a scope granted for receiving, the player hears his node. -/
theorem received (h : Derived s policy sessionId deviceId now claims session context membership)
    {scope : VoiceScope} (hscope : scope ∈ claims.receiveScopes) {sender : VoiceMembership}
    (hsender : context.snapshot.find sender.playerId = some sender)
    (hnode : scopeNodeId sender scope = scopeNodeId membership scope) {version : ℕ}
    {recipients : List PlayerId} (hresolve : resolve context.snapshot context.rolePolicy
      ⟨sender.playerId, scope, version⟩ = .ok recipients) : claims.playerId ∈ recipients := by
  obtain ⟨-, sender', hsender', -, -, -, -, -, -, rfl⟩ := resolve_ok_iff.1 hresolve
  obtain rfl : sender' = sender := Option.some.inj (hsender'.symm.trans hsender)
  obtain ⟨-, hright⟩ := (h.receive scope).1 hscope
  obtain ⟨hmember, hplayer⟩ := MembershipSnapshot.find_some h.found
  have hbelongs := MembershipSnapshot.belongsToScope_of_sameNode hmember
    (MembershipSnapshot.find_some hsender).1 hnode
  refine List.mem_map.2 ⟨membership, List.mem_filter.2 ⟨hmember, ?_⟩, by rw [hplayer, h.player]⟩
  simp only [receiveRight, Bool.and_eq_true] at hright
  simp [isRecipient, h.connected, hright.1, hright.2, hbelongs, isRestricted]

/-- On a scope not granted for receiving, nobody reaches the player. -/
theorem not_received
    (h : Derived s policy sessionId deviceId now claims session context membership)
    {scope : VoiceScope} (hscope : scope ∉ claims.receiveScopes) {sender : PlayerId} {version : ℕ}
    {restrictions : List RecipientRestriction} {recipients : List PlayerId}
    (hresolve : resolve context.snapshot context.rolePolicy ⟨sender, scope, version⟩ restrictions
      = .ok recipients) : claims.playerId ∉ recipients := by
  intro hmem
  obtain ⟨-, sender', -, -, -, hdefined, -, -, -, rfl⟩ := resolve_ok_iff.1 hresolve
  obtain ⟨candidate, hcandidate, hplayer⟩ := List.mem_map.1 hmem
  obtain ⟨hmember, hrecipient⟩ := List.mem_filter.1 hcandidate
  have hfound := h.found
  obtain ⟨-, hself⟩ := MembershipSnapshot.find_some hfound
  rw [← hself] at hfound
  obtain rfl := MembershipSnapshot.find_eq_of_mem hfound hmember
    (by rw [hplayer, h.player, hself])
  simp only [isRecipient, Bool.and_eq_true] at hrecipient
  refine hscope ((h.receive scope).2 ⟨hdefined, ?_⟩)
  simp [receiveRight, hrecipient.1.1.1.2, hrecipient.1.1.2]

/-- Grants and starts agree exactly where the player's group is active or he may not transmit
anyway. -/
theorem grants_agree_iff {context : AuthoritativeMembershipContext}
    {membership : VoiceMembership} (hderive : derive s policy sessionId deviceId now = .ok claims)
    (hcontext : s.memberships[claims.playerId]? = some context)
    (hmembership : context.snapshot.find claims.playerId = some membership) :
    Agree s sessionId deviceId now claims ↔ GroupActiveOrSilent context membership := by
  obtain ⟨session, context', membership', h⟩ := derive_ok hderive
  rw [h.player] at hcontext hmembership
  obtain rfl : context = context' := Option.some.inj (hcontext.symm.trans h.stored)
  obtain rfl : membership = membership' := Option.some.inj (hmembership.symm.trans h.found)
  constructor
  · intro hagree
    by_contra hnot
    simp only [GroupActiveOrSilent, not_or, Bool.not_eq_true, not_not, not_forall] at hnot
    obtain ⟨hinactive, hmuted, hban, definition, hdefinition, hrole⟩ := hnot
    have hgranted : definition.scope ∈ claims.transmitScopes := by
      rw [h.transmit]
      refine ⟨List.mem_map_of_mem hdefinition, ?_⟩
      simp [mayTransmit, hmuted, hban, hrole]
    have hstarted := (authorizeStart_isOk_iff h definition.scope Sample.clientTransmission
      Sample.correlation Sample.first).1 ((hagree.transmit _ _ _ _).1 hgranted)
    rw [hinactive] at hstarted
    exact Bool.false_ne_true hstarted.2
  · intro hcondition
    refine ⟨fun scope clientTransmissionId correlationId id => ?_, ?_, ?_⟩
    · rw [authorizeStart_isOk_iff h]
      refine ⟨fun hgranted => ⟨hgranted, ?_⟩, And.left⟩
      obtain ⟨hdefined, hmay⟩ := (h.transmit scope).1 hgranted
      simp only [mayTransmit, Bool.and_eq_true, Bool.not_eq_true', decide_eq_true_eq] at hmay
      obtain ⟨definition, hdefinition, rfl⟩ := List.mem_map.1 hdefined
      rcases hcondition with hactive | hmuted | hban | hrole
      · exact hactive
      · simp [hmay.1.1] at hmuted
      · exact absurd hmay.1.2 hban
      · simp [hrole definition hdefinition] at hmay
    · intro scope hscope context' membership' sender hcontext' hmembership' hsender hnode version
        recipients hresolve
      rw [h.player] at hcontext' hmembership'
      obtain rfl : context = context' := Option.some.inj (h.stored.symm.trans hcontext')
      obtain rfl : membership = membership' := Option.some.inj (h.found.symm.trans hmembership')
      exact received h hscope hsender hnode hresolve
    · intro scope hscope context' hcontext' sender version restrictions recipients hresolve
      rw [h.player] at hcontext'
      obtain rfl : context = context' := Option.some.inj (h.stored.symm.trans hcontext')
      exact not_received h hscope hresolve

end VoiceGrantAuthorizationService

namespace Sample

/-- The deployment with its group switched off. -/
def inactiveHierarchy : Hierarchy :=
  { hierarchy with
    groups := [⟨group, bytes "Group", false⟩]
    groups_unique := by decide
    specializations_owned := by decide }

def inactiveContext : AuthoritativeMembershipContext where
  snapshot :=
    { snapshot 1 Nat.one_pos with hierarchy := inactiveHierarchy, paths_valid := by decide }
  rolePolicy := rolePolicy

/-- `alice` is logged in and has the membership. -/
def storeWith (context : AuthoritativeMembershipContext) : Store :=
  (({} : Store).upsertSession authenticated).updateMembershipLocked alice context 0 correlation
    .membershipChanged |>.2

def grantPolicy : VoiceGrantPolicy := ⟨30000, by decide⟩

/-- What a grant in the deployment says. -/
def grantClaims : VoiceGrantClaims where
  playerId := alice
  deviceId := device
  membershipVersion := 1
  groupId := group
  specializationId := specialization
  teamId := team
  transmitScopes := [.team]
  receiveScopes := [.team]
  expiresAt := 1000

end Sample

namespace VoiceGrantAuthorizationService

open Sample

theorem grants_agree_iff_active :
    Agree (storeWith (context 1 Nat.one_pos)) session device 0 grantClaims := by
  have hderive : derive (storeWith (context 1 Nat.one_pos)) grantPolicy session device 0
      = .ok grantClaims := by rfl
  have hcontext : (storeWith (context 1 Nat.one_pos)).memberships[grantClaims.playerId]?
      = some (context 1 Nat.one_pos) := by rfl
  have hmembership : (context 1 Nat.one_pos).snapshot.find grantClaims.playerId
      = some (member alice) := by rfl
  exact (grants_agree_iff hderive hcontext hmembership).2 (.inl (by decide +kernel))

/-- In an inactive group sending is granted and a start is refused. -/
theorem grants_disagree_inactive :
    derive (storeWith inactiveContext) grantPolicy session device 0 = .ok grantClaims
      ∧ .team ∈ grantClaims.transmitScopes
      ∧ authorizeStart (storeWith inactiveContext)
          ⟨session, device, clientTransmission, .team, 1, correlation⟩ 0 first
        = .error .voiceNoActiveMembership
      ∧ ¬Agree (storeWith inactiveContext) session device 0 grantClaims := by
  have hstart : authorizeStart (storeWith inactiveContext)
      ⟨session, device, clientTransmission, .team, 1, correlation⟩ 0 first
        = .error .voiceNoActiveMembership := by rfl
  refine ⟨by rfl, by decide, hstart, fun h => ?_⟩
  have hstarted := (h.transmit .team clientTransmission correlation first).1 (by decide)
  rw [show grantClaims.membershipVersion = 1 from rfl, hstart] at hstarted
  cases hstarted

end VoiceGrantAuthorizationService

end VoxTree

import VoxTree.Lib.Keyed
import VoxTree.Lib.LowerBound
import VoxTree.Proofs.VoiceGrants

/-!
# Who may send and who hears it

`RecipientResolver::resolve` told by the members of the snapshot, the roles of the policy and the
restrictions as sets. The binary search of `MembershipSnapshot::find` finds what a linear search
finds, and the order in which the lists were supplied does not matter.
-/

namespace VoxTree

/-! ## The binary search -/

namespace MembershipSnapshot

variable (snapshot : MembershipSnapshot) (p : PlayerId)

/-- `std::ranges::lower_bound(memberships_, player_id, {}, &VoiceMembership::player_id)`. -/
def lowerBound : ℕ :=
  LowerBound.lowerBound (fun m => compare m.playerId p = .lt) snapshot.memberships

/-- `find` with its binary search. -/
def findBinary : Option VoiceMembership :=
  match snapshot.memberships[snapshot.lowerBound p]? with
  | some found => if found.playerId ≠ p then none else some found
  | none => none

/-- `find` as a search through all memberships. -/
def findLinear : Option VoiceMembership := snapshot.memberships.find? fun m => m.playerId = p

theorem split_memberships :
    LowerBound.Split (fun m => compare m.playerId p = .lt) snapshot.memberships := by
  refine snapshot.sorted.imp fun {a b} hab hb => ?_
  have hb : compare b.playerId p = .lt := of_decide_eq_true hb
  exact decide_eq_true (Std.TransCmp.lt_of_isLE_of_lt hab hb)

theorem find_eq_findBinary : snapshot.find p = snapshot.findBinary p := by
  unfold find findBinary lowerBound
  have hcongr : (fun m : VoiceMembership => !decide (compare m.playerId p = .lt))
      = fun m => decide (compare m.playerId p ≠ .lt) := by
    funext m
    simp
  have hfound := LowerBound.getElem?_lowerBound (snapshot.split_memberships p)
  rw [hcongr] at hfound
  exact hfound ▸ rfl

/-- The first membership not before the player is his, if he has one. -/
theorem find_eq_findLinear : snapshot.find p = snapshot.findLinear p := by
  have hsorted := snapshot.sorted
  unfold find findLinear
  generalize snapshot.memberships = memberships at hsorted
  induction memberships with
  | nil => rfl
  | cons m rest ih =>
    obtain ⟨hm, hrest⟩ := List.pairwise_cons.1 hsorted
    have ih := ih hrest
    rcases hcmp : compare m.playerId p
    · -- before the player
      have hne : m.playerId ≠ p := by
        rintro rfl
        simp [Std.ReflOrd.compare_self] at hcmp
      simpa [hcmp, hne] using ih
    · obtain rfl := Std.LawfulEqOrd.eq_of_compare hcmp
      simp
    · -- behind the player, as all the rest
      have hne : m.playerId ≠ p := by
        rintro rfl
        simp [Std.ReflOrd.compare_self] at hcmp
      have hnone : (rest.find? fun m => decide (m.playerId = p)) = none := by
        rw [List.find?_eq_none]
        intro b hb heq
        have hbp : b.playerId = p := by simpa using heq
        have hle := hm b hb
        unfold byPlayer at hle
        rw [hbp, hcmp] at hle
        cases hle
      simp [hcmp, hne, hnone]

theorem find_iff {m : VoiceMembership} :
    snapshot.find p = some m ↔ m ∈ snapshot.memberships ∧ m.playerId = p := by
  rw [find_eq_findLinear]
  exact Keyed.find?_eq_some_iff snapshot.players_unique

theorem find_eq_none_iff :
    snapshot.find p = none ↔ ∀ m ∈ snapshot.memberships, m.playerId ≠ p := by
  rw [find_eq_findLinear]
  exact Keyed.find?_eq_none_iff

end MembershipSnapshot

/-! ## Accepted requests -/

theorem RolePolicy.grants_iff {policy : RolePolicy} {roles : List RoleId} {scope : VoiceScope}
    {scopes : RolePermissions → List VoiceScope} :
    policy.grants roles scope scopes = true
      ↔ ∃ role ∈ policy.roles, role.roleId ∈ roles ∧ scope ∈ scopes role := by
  unfold RolePolicy.grants
  rw [List.any_eq_true]
  constructor
  · rintro ⟨roleId, hroleId, h⟩
    split at h
    · rename_i role hrole
      obtain ⟨hmem, rfl⟩ := (Keyed.find?_eq_some_iff policy.roles_unique).1 hrole
      exact ⟨role, hmem, hroleId, by simpa using h⟩
    · cases h
  · rintro ⟨role, hrole, hassigned, hscope⟩
    refine ⟨role.roleId, hassigned, ?_⟩
    rw [(Keyed.find?_eq_some_iff policy.roles_unique).2 ⟨hrole, rfl⟩]
    simpa using hscope

namespace RecipientResolver

/-- The member may send on the scope. -/
structure MaySend (snapshot : MembershipSnapshot) (policy : RolePolicy) (scope : VoiceScope)
    (sender : VoiceMembership) : Prop where
  connected : sender.connected = true
  group_active : ∃ group ∈ snapshot.hierarchy.groups,
    group.id = sender.groupId ∧ group.active = true
  scope_defined : ∃ definition ∈ snapshot.hierarchy.scopes, definition.scope = scope
  not_muted : sender.transmitMuted = false
  not_banned : sender.voiceBanStatus = .none
  role : ∃ role ∈ policy.roles, role.roleId ∈ sender.roleIds ∧ scope ∈ role.transmitScopes

/-- The member hears what the sender says on the scope. -/
structure Hears (policy : RolePolicy) (scope : VoiceScope)
    (restrictions : List RecipientRestriction) (sender candidate : VoiceMembership) : Prop where
  connected : candidate.connected = true
  can_receive : candidate.canReceiveVoice = true
  role : ∃ role ∈ policy.roles, role.roleId ∈ candidate.roleIds ∧ scope ∈ role.receiveScopes
  same_node : scopeNodeId candidate scope = scopeNodeId sender scope
  not_restricted : ⟨candidate.playerId, sender.playerId⟩ ∉ restrictions

variable {snapshot : MembershipSnapshot} {policy : RolePolicy} {request : TransmissionRequest}
  {restrictions : List RecipientRestriction}

theorem groupActive_iff {sender : VoiceMembership} :
    groupActive snapshot sender = true
      ↔ ∃ group ∈ snapshot.hierarchy.groups, group.id = sender.groupId ∧ group.active = true := by
  unfold groupActive Hierarchy.findGroup
  rw [Option.any_eq_true]
  simp only [Keyed.find?_eq_some_iff snapshot.hierarchy.groups_unique, and_assoc]

theorem isRestricted_iff {recipient sender : PlayerId} :
    isRestricted restrictions recipient sender = true ↔ ⟨recipient, sender⟩ ∈ restrictions := by
  unfold isRestricted
  rw [List.any_eq_true]
  constructor
  · rintro ⟨⟨r, s⟩, hmem, h⟩
    obtain ⟨rfl, rfl⟩ : r = recipient ∧ s = sender := by simpa using h
    exact hmem
  · exact fun h => ⟨_, h, by simp⟩

/-- On the members of a snapshot the comparison of paths is that of the scope's own node. -/
theorem belongsToScope_iff {sender candidate : VoiceMembership} {scope : VoiceScope}
    (hs : sender ∈ snapshot.memberships) (hc : candidate ∈ snapshot.memberships) :
    belongsToScope sender candidate scope = true
      ↔ scopeNodeId candidate scope = scopeNodeId sender scope := by
  constructor
  · intro h
    cases scope <;> simp_all [belongsToScope, scopeNodeId]
  · exact fun h => MembershipSnapshot.belongsToScope_of_sameNode hc hs h.symm

theorem isRecipient_iff {sender candidate : VoiceMembership}
    (hs : sender ∈ snapshot.memberships) (hc : candidate ∈ snapshot.memberships) :
    isRecipient policy request restrictions sender candidate = true
      ↔ Hears policy request.requestedScope restrictions sender candidate := by
  have hreceive : policy.canReceive candidate.roleIds request.requestedScope = true ↔ _ :=
    RolePolicy.grants_iff
  have hrestricted : isRestricted restrictions candidate.playerId sender.playerId = true ↔ _ :=
    isRestricted_iff
  simp only [isRecipient, Bool.and_eq_true, Bool.not_eq_true', belongsToScope_iff hs hc, hreceive,
    ← Bool.not_eq_true, hrestricted]
  constructor
  · rintro ⟨⟨⟨⟨h₁, h₂⟩, h₃⟩, h₄⟩, h₅⟩
    exact ⟨h₁, h₂, h₃, h₄, h₅⟩
  · rintro ⟨h₁, h₂, h₃, h₄, h₅⟩
    exact ⟨⟨⟨⟨h₁, h₂⟩, h₃⟩, h₄⟩, h₅⟩

/-- Who hears the sender, in the order of the snapshot. -/
def recipientsOf (snapshot : MembershipSnapshot) (policy : RolePolicy)
    (request : TransmissionRequest) (restrictions : List RecipientRestriction)
    (sender : VoiceMembership) : List PlayerId :=
  (snapshot.memberships.filter (isRecipient policy request restrictions sender)).map
    VoiceMembership.playerId

theorem mem_recipientsOf {sender : VoiceMembership} (hs : sender ∈ snapshot.memberships)
    {p : PlayerId} :
    p ∈ recipientsOf snapshot policy request restrictions sender
      ↔ ∃ candidate ∈ snapshot.memberships, candidate.playerId = p
        ∧ Hears policy request.requestedScope restrictions sender candidate := by
  simp only [recipientsOf, List.mem_map, List.mem_filter]
  constructor
  · rintro ⟨candidate, ⟨hc, hrecipient⟩, rfl⟩
    exact ⟨candidate, hc, rfl, (isRecipient_iff hs hc).1 hrecipient⟩
  · rintro ⟨candidate, hc, rfl, hhears⟩
    exact ⟨candidate, ⟨hc, (isRecipient_iff hs hc).2 hhears⟩, rfl⟩

/-- The memberships are sorted and no player has two, so the recipients come in increasing
order. -/
theorem recipientsOf_increasing {sender : VoiceMembership} :
    (recipientsOf snapshot policy request restrictions sender).Pairwise
      fun p q => compare p q = .lt := by
  have hne : snapshot.memberships.Pairwise fun a b => a.playerId ≠ b.playerId :=
    List.pairwise_map.1 snapshot.players_unique
  refine List.pairwise_map.2 (List.Pairwise.filter _ (snapshot.sorted.imp₂ ?_ hne))
  intro a b hle hab
  unfold MembershipSnapshot.byPlayer at hle
  rcases hcmp : compare a.playerId b.playerId
  · rfl
  · exact absurd (Std.LawfulEqOrd.eq_of_compare hcmp) hab
  · rw [hcmp] at hle
    cases hle

theorem resolve_iff {recipients : List PlayerId} :
    resolve snapshot policy request restrictions = .ok recipients
      ↔ request.membershipVersion = snapshot.version
        ∧ ∃ sender ∈ snapshot.memberships, sender.playerId = request.senderPlayerId
          ∧ MaySend snapshot policy request.requestedScope sender
          ∧ recipients = recipientsOf snapshot policy request restrictions sender := by
  rw [resolve_ok_iff]
  refine and_congr_right fun _ => exists_congr fun sender => ?_
  have htransmit : policy.canTransmit sender.roleIds request.requestedScope = true ↔ _ :=
    RolePolicy.grants_iff
  rw [MembershipSnapshot.find_iff, groupActive_iff, htransmit, List.mem_map, and_assoc]
  refine and_congr_right fun _ => and_congr_right fun _ => ?_
  constructor
  · rintro ⟨h₁, h₂, h₃, h₄, h₅, h₆, h⟩
    exact ⟨⟨h₁, h₂, h₃, h₄, h₅, h₆⟩, h⟩
  · rintro ⟨⟨h₁, h₂, h₃, h₄, h₅, h₆⟩, h⟩
    exact ⟨h₁, h₂, h₃, h₄, h₅, h₆, h⟩

theorem resolve_isOk :
    (resolve snapshot policy request restrictions).isOk = true
      ↔ request.membershipVersion = snapshot.version
        ∧ ∃ sender ∈ snapshot.memberships, sender.playerId = request.senderPlayerId
          ∧ MaySend snapshot policy request.requestedScope sender := by
  constructor
  · intro h
    rcases hr : resolve snapshot policy request restrictions with e | recipients
    · simp [hr, Except.isOk, Except.toBool] at h
    · obtain ⟨hversion, sender, hmem, hplayer, hmay, -⟩ := resolve_iff.1 hr
      exact ⟨hversion, sender, hmem, hplayer, hmay⟩
  · rintro ⟨hversion, sender, hmem, hplayer, hmay⟩
    rw [resolve_iff.2 ⟨hversion, sender, hmem, hplayer, hmay, rfl⟩]
    rfl

end RecipientResolver

/-! ## The order of the lists -/

/-- The same membership up to the order of its roles. -/
structure VoiceMembership.Same (m m' : VoiceMembership) : Prop where
  roles : m.roleIds.Perm m'.roleIds
  rest : m' = { m with roleIds := m'.roleIds }

/-- The same permissions up to the order of the scopes. -/
structure RolePermissions.Same (r r' : RolePermissions) : Prop where
  role : r.roleId = r'.roleId
  transmit : r.transmitScopes.Perm r'.transmitScopes
  receive : r.receiveScopes.Perm r'.receiveScopes

/-- The same policy up to the order of its roles and of their scopes. -/
def RolePolicy.Same (policy policy' : RolePolicy) : Prop :=
  Keyed.SameUpTo RolePermissions.Same policy.roles policy'.roles

/-- The same hierarchy up to the order of siblings. -/
structure Hierarchy.Same (h h' : Hierarchy) : Prop where
  id : h.id = h'.id
  scopes : h.scopes.Perm h'.scopes
  groups : h.groups.Perm h'.groups
  specializations : h.specializations.Perm h'.specializations
  teams : h.teams.Perm h'.teams

/-- The same snapshot up to the order of siblings and roles. -/
structure MembershipSnapshot.Same (s s' : MembershipSnapshot) : Prop where
  version : s.version = s'.version
  hierarchy : s.hierarchy.Same s'.hierarchy
  memberships : Keyed.SameUpTo VoiceMembership.Same s.memberships s'.memberships

/-- The same context up to the order of its lists. -/
structure AuthoritativeMembershipContext.Same (c c' : AuthoritativeMembershipContext) : Prop where
  snapshot : c.snapshot.Same c'.snapshot
  policy : c.rolePolicy.Same c'.rolePolicy

theorem VoiceMembership.Same.refl (m : VoiceMembership) : m.Same m := ⟨.refl _, rfl⟩

theorem VoiceMembership.Same.symm {m m' : VoiceMembership} (h : m.Same m') : m'.Same m :=
  ⟨h.roles.symm, by rw [h.rest]⟩

theorem RolePermissions.Same.symm {r r' : RolePermissions} (h : r.Same r') : r'.Same r :=
  ⟨h.role.symm, h.transmit.symm, h.receive.symm⟩

theorem RolePolicy.Same.symm {policy policy' : RolePolicy} (h : policy.Same policy') :
    policy'.Same policy :=
  (Keyed.SameUpTo.symm h).mono fun _ _ => RolePermissions.Same.symm

theorem Hierarchy.Same.refl (h : Hierarchy) : h.Same h := ⟨rfl, .refl _, .refl _, .refl _, .refl _⟩

namespace VoiceMembership.Same

variable {m m' : VoiceMembership} (h : m.Same m')

include h

theorem player : m.playerId = m'.playerId := by rw [h.rest]

theorem connected : m.connected = m'.connected := by rw [h.rest]

theorem group : m.groupId = m'.groupId := by rw [h.rest]

theorem node (scope : VoiceScope) : scopeNodeId m scope = scopeNodeId m' scope := by
  rw [h.rest]
  cases scope <;> rfl

end VoiceMembership.Same

namespace Hierarchy

theorem checkScopes_eq_none_iff : ∀ {scopes : List ScopeDefinition}, checkScopes scopes = none
    ↔ (∀ definition ∈ scopes, definition.displayName ≠ [])
      ∧ (scopes.map ScopeDefinition.scope).Nodup
  | [] => by simp [checkScopes]
  | current :: rest => by
    have hany : (rest.any fun candidate => current.scope = candidate.scope) = true
        ↔ current.scope ∈ rest.map ScopeDefinition.scope := by
      rw [List.any_eq_true, List.mem_map]
      exact exists_congr fun candidate => by rw [decide_eq_true_eq, eq_comm]
    rw [checkScopes, List.forall_mem_cons, List.map_cons, List.nodup_cons, ← hany]
    split_ifs with hname hduplicate
    · simp [hname]
    · simp [hduplicate]
    · rw [checkScopes_eq_none_iff]
      simp [hname, hduplicate]

theorem checkScopes_nodup {scopes : List ScopeDefinition} (h : checkScopes scopes = none) :
    (scopes.map ScopeDefinition.scope).Nodup :=
  (checkScopes_eq_none_iff.1 h).2

namespace Same

variable {h h' : Hierarchy} (hs : h.Same h')

include hs

theorem findScope (scope : VoiceScope) : h.findScope scope = h'.findScope scope :=
  Keyed.find?_perm hs.scopes (checkScopes_nodup h.scopes_valid) scope

theorem findGroup (id : GroupId) : h.findGroup id = h'.findGroup id :=
  Keyed.find?_perm hs.groups h.groups_unique id

theorem findSpecialization (id : SpecializationId) :
    h.findSpecialization id = h'.findSpecialization id :=
  Keyed.find?_perm hs.specializations h.specializations_unique id

theorem findTeam (id : TeamId) : h.findTeam id = h'.findTeam id :=
  Keyed.find?_perm hs.teams h.teams_unique id

end Same

end Hierarchy

/-- The same roles grant the same. -/
theorem RolePolicy.Same.grants {policy policy' : RolePolicy} (h : policy.Same policy')
    {roles roles' : List RoleId} (hroles : roles.Perm roles') (scope : VoiceScope)
    {scopes : RolePermissions → List VoiceScope}
    (hscopes : ∀ r r' : RolePermissions, r.Same r' → (scopes r).Perm (scopes r')) :
    policy.grants roles scope scopes = policy'.grants roles' scope scopes := by
  rw [Bool.eq_iff_iff, grants_iff, grants_iff]
  constructor
  · rintro ⟨role, hrole, hassigned, hscope⟩
    obtain ⟨role', hrole', hsame⟩ := Keyed.SameUpTo.exists_right h hrole
    exact ⟨role', hrole', hsame.role ▸ hroles.mem_iff.1 hassigned,
      (hscopes _ _ hsame).mem_iff.1 hscope⟩
  · rintro ⟨role, hrole, hassigned, hscope⟩
    obtain ⟨role', hrole', hsame⟩ := Keyed.SameUpTo.exists_left h hrole
    exact ⟨role', hrole', hsame.role ▸ hroles.mem_iff.2 hassigned,
      (hscopes _ _ hsame).mem_iff.2 hscope⟩

namespace MembershipSnapshot.Same

variable {s s' : MembershipSnapshot} (h : s.Same s')

include h

/-- A player is found in both or in neither, with the same membership. -/
theorem find_cases (p : PlayerId) :
    (s.find p = none ∧ s'.find p = none)
      ∨ ∃ m m', s.find p = some m ∧ s'.find p = some m' ∧ m.Same m' := by
  rcases hm : s.find p with _ | m
  · refine .inl ⟨rfl, (s'.find_eq_none_iff p).2 fun m' hm' hplayer => ?_⟩
    obtain ⟨m, hmem, hsame⟩ := h.memberships.exists_left hm'
    exact (s.find_eq_none_iff p).1 hm m hmem (hsame.player.trans hplayer)
  · obtain ⟨hmem, hplayer⟩ := (s.find_iff p).1 hm
    obtain ⟨m', hm', hsame⟩ := h.memberships.exists_right hmem
    exact .inr ⟨m, m', rfl, (s'.find_iff p).2 ⟨hm', hsame.player.symm.trans hplayer⟩, hsame⟩

end MembershipSnapshot.Same

/-! ## Construction from the same lists -/

theorem MembershipSnapshot.validPath_same {h h' : Hierarchy} (hh : h.Same h')
    {m m' : VoiceMembership} (hm : m.Same m') : validPath h m = validPath h' m' := by
  unfold validPath
  rw [hh.findGroup, hh.findSpecialization, hh.findTeam, hm.rest]

theorem MembershipSnapshot.make_ok {version : ℕ} {h : Hierarchy}
    {memberships : List VoiceMembership} {s : MembershipSnapshot}
    (hmake : make version h memberships = .ok s) :
    s.version = version ∧ s.hierarchy = h ∧ s.memberships.Perm memberships := by
  unfold make at hmake
  split_ifs at hmake
  obtain rfl := Except.ok.inj hmake
  exact ⟨rfl, rfl, List.mergeSort_perm _ _⟩

/-- The constructors accept the same lists in any order, or refuse them with the same error. -/
theorem MembershipSnapshot.make_same {version : ℕ} {h h' : Hierarchy} (hh : h.Same h')
    {memberships memberships' : List VoiceMembership}
    (hm : Keyed.SameUpTo VoiceMembership.Same memberships memberships') :
    (∃ e, make version h memberships = .error e ∧ make version h' memberships' = .error e)
      ∨ ∃ s s', make version h memberships = .ok s ∧ make version h' memberships' = .ok s'
        ∧ s.Same s' := by
  have hnodup : (memberships.map VoiceMembership.playerId).Nodup
      ↔ (memberships'.map VoiceMembership.playerId).Nodup :=
    (hm.map_perm fun _ _ hs => hs.player).nodup_iff
  have hpaths : (∀ m ∈ memberships, validPath h m = true)
      ↔ ∀ m ∈ memberships', validPath h' m = true := by
    constructor
    · intro hall m' hm'
      obtain ⟨m, hmem, hsame⟩ := hm.exists_left hm'
      exact validPath_same hh hsame ▸ hall m hmem
    · intro hall m hmem
      obtain ⟨m', hm', hsame⟩ := hm.exists_right hmem
      exact validPath_same hh hsame ▸ hall m' hm'
  unfold make
  by_cases hv : 0 < version
  swap
  · exact .inl ⟨_, dif_neg hv, dif_neg hv⟩
  rw [dif_pos hv, dif_pos hv]
  by_cases hu : (memberships.map VoiceMembership.playerId).Nodup
  swap
  · exact .inl ⟨_, dif_neg hu, dif_neg (hnodup.not.1 hu)⟩
  rw [dif_pos hu, dif_pos (hnodup.1 hu)]
  by_cases hp : ∀ m ∈ memberships, validPath h m = true
  swap
  · exact .inl ⟨_, dif_neg hp, dif_neg (hpaths.not.1 hp)⟩
  refine .inr ⟨_, _, dif_pos hp, dif_pos (hpaths.1 hp), rfl, hh, ?_⟩
  exact hm.perm (List.mergeSort_perm _ _) (List.mergeSort_perm _ _).symm

theorem RolePolicy.make_same {roles roles' : List RolePermissions}
    (h : Keyed.SameUpTo RolePermissions.Same roles roles') :
    (∃ e, make roles = .error e ∧ make roles' = .error e)
      ∨ ∃ p p', make roles = .ok p ∧ make roles' = .ok p' ∧ p.Same p' := by
  have hnodup : (roles.map RolePermissions.roleId).Nodup
      ↔ (roles'.map RolePermissions.roleId).Nodup :=
    (h.map_perm fun _ _ hs => hs.role).nodup_iff
  unfold make
  by_cases hu : (roles.map RolePermissions.roleId).Nodup
  · exact .inr ⟨_, _, dif_pos hu, dif_pos (hnodup.1 hu), h⟩
  · exact .inl ⟨_, dif_neg hu, dif_neg (hnodup.not.1 hu)⟩

namespace RecipientResolver

/-- A strictly increasing list is told by its members. -/
theorem eq_of_increasing {ps qs : List PlayerId} (hp : ps.Pairwise fun p q => compare p q = .lt)
    (hq : qs.Pairwise fun p q => compare p q = .lt) (h : ∀ p, p ∈ ps ↔ p ∈ qs) : ps = qs := by
  have hne : ∀ {p q : PlayerId}, compare p q = .lt → p ≠ q := by
    rintro p q hlt rfl
    simp [Std.ReflOrd.compare_self] at hlt
  have hperm : ps.Perm qs :=
    (List.perm_ext_iff_of_nodup (hp.imp hne) (hq.imp hne)).2 h
  refine hperm.eq_of_pairwise (fun a b _ _ hab hba => ?_) hp hq
  have hswap : compare a b = (compare b a).swap := Std.OrientedCmp.eq_swap
  rw [hswap, hba] at hab
  cases hab

variable {snapshot snapshot' : MembershipSnapshot} {policy policy' : RolePolicy}
  {restrictions restrictions' : List RecipientRestriction} {scope : VoiceScope}
  {sender sender' candidate candidate' : VoiceMembership}

theorem Hears.same (hpolicy : policy.Same policy') (hr : restrictions.Perm restrictions')
    (hsender : sender.Same sender') (hcandidate : candidate.Same candidate')
    (h : Hears policy scope restrictions sender candidate) :
    Hears policy' scope restrictions' sender' candidate' where
  connected := hcandidate.connected ▸ h.connected
  can_receive := by
    rw [hcandidate.rest]
    exact h.can_receive
  role := by
    have hgrants := hpolicy.grants hcandidate.roles scope fun _ _ hs => hs.receive
    rw [Bool.eq_iff_iff, RolePolicy.grants_iff, RolePolicy.grants_iff] at hgrants
    exact hgrants.1 h.role
  same_node := by
    rw [← hcandidate.node, ← hsender.node]
    exact h.same_node
  not_restricted := by
    rw [← hcandidate.player, ← hsender.player, ← hr.mem_iff]
    exact h.not_restricted

/-- The recipients do not depend on the order of the lists. -/
theorem recipientsOf_same {request : TransmissionRequest} (h : snapshot.Same snapshot')
    (hpolicy : policy.Same policy') (hr : restrictions.Perm restrictions')
    (hsender : sender.Same sender') (hs : sender ∈ snapshot.memberships)
    (hs' : sender' ∈ snapshot'.memberships) :
    recipientsOf snapshot policy request restrictions sender
      = recipientsOf snapshot' policy' request restrictions' sender' := by
  refine eq_of_increasing recipientsOf_increasing recipientsOf_increasing fun p => ?_
  rw [mem_recipientsOf hs, mem_recipientsOf hs']
  constructor
  · rintro ⟨candidate, hc, rfl, hhears⟩
    obtain ⟨candidate', hc', hsame⟩ := h.memberships.exists_right hc
    exact ⟨candidate', hc', hsame.player.symm, hhears.same hpolicy hr hsender hsame⟩
  · rintro ⟨candidate', hc', rfl, hhears⟩
    obtain ⟨candidate, hc, hsame⟩ := h.memberships.exists_left hc'
    exact ⟨candidate, hc, hsame.player, hhears.same hpolicy.symm hr.symm hsender.symm hsame.symm⟩

/-- Why a member may not send. -/
def senderError (snapshot : MembershipSnapshot) (policy : RolePolicy) (scope : VoiceScope)
    (sender : VoiceMembership) : Option RoutingError :=
  if !sender.connected then some .voiceNotConnected
  else if !groupActive snapshot sender then some .voiceNoActiveMembership
  else if (snapshot.hierarchy.findScope scope).isNone then some .voiceScopeNotFound
  else if sender.transmitMuted || sender.voiceBanStatus ≠ .none then some .voiceTransmitMuted
  else if !policy.canTransmit sender.roleIds scope then some .voiceScopeNotAuthorized
  else none

theorem senderError_same (h : snapshot.Same snapshot') (hpolicy : policy.Same policy')
    (hsender : sender.Same sender') :
    senderError snapshot policy scope sender = senderError snapshot' policy' scope sender' := by
  have htransmit : policy.canTransmit sender.roleIds scope
      = policy'.canTransmit sender'.roleIds scope :=
    hpolicy.grants hsender.roles scope fun _ _ hs => hs.transmit
  unfold senderError groupActive
  rw [htransmit, h.hierarchy.findScope, h.hierarchy.findGroup, hsender.connected, hsender.group]
  rw [hsender.rest]

/-- The resolver finds the sender, checks him and collects who hears him. -/
theorem resolve_found {request : TransmissionRequest}
    (hversion : request.membershipVersion = snapshot.version)
    (hfind : snapshot.find request.senderPlayerId = some sender) :
    resolve snapshot policy request restrictions
      = match senderError snapshot policy request.requestedScope sender with
        | some e => .error e
        | none => .ok (recipientsOf snapshot policy request restrictions sender) := by
  unfold resolve
  rw [if_neg (not_not.2 hversion), hfind]
  show (if !sender.connected then _ else if !groupActive snapshot sender then _ else if _ then _
    else if _ then _ else if _ then _
    else Except.ok (recipientsOf snapshot policy request restrictions sender)) = _
  rw [senderError]
  split_ifs <;> rfl

/-- What a request is answered does not depend on the order of the lists. -/
theorem resolve_same (h : snapshot.Same snapshot') (hpolicy : policy.Same policy')
    (hr : restrictions.Perm restrictions') (request : TransmissionRequest) :
    resolve snapshot policy request restrictions
      = resolve snapshot' policy' request restrictions' := by
  by_cases hversion : request.membershipVersion = snapshot.version
  swap
  · unfold resolve
    rw [if_pos hversion, if_pos (h.version ▸ hversion)]
  have hversion' : request.membershipVersion = snapshot'.version := hversion.trans h.version
  rcases h.find_cases request.senderPlayerId with ⟨hm, hm'⟩ | ⟨sender, sender', hm, hm', hsame⟩
  · unfold resolve
    rw [if_neg (not_not.2 hversion), if_neg (not_not.2 hversion'), hm, hm']
  · rw [resolve_found hversion hm, resolve_found hversion' hm', senderError_same h hpolicy hsame,
      recipientsOf_same h hpolicy hr hsame ((snapshot.find_iff _).1 hm).1
        ((snapshot'.find_iff _).1 hm').1]

/-- The resolver on the lists as they are supplied to the constructors. -/
def resolveSupplied (version : ℕ) (hierarchy : Hierarchy) (memberships : List VoiceMembership)
    (roles : List RolePermissions) (request : TransmissionRequest)
    (restrictions : List RecipientRestriction) :
    Except InvalidArgument (Except RoutingError (List PlayerId)) := do
  let snapshot ← MembershipSnapshot.make version hierarchy memberships
  let policy ← RolePolicy.make roles
  return resolve snapshot policy request restrictions

/-- What the resolver answers on supplied lists does not depend on their order. -/
theorem resolveSupplied_same {version : ℕ} {hierarchy : Hierarchy}
    {memberships memberships' : List VoiceMembership} {roles roles' : List RolePermissions}
    (hm : Keyed.SameUpTo VoiceMembership.Same memberships memberships')
    (hroles : Keyed.SameUpTo RolePermissions.Same roles roles')
    (hr : restrictions.Perm restrictions') (request : TransmissionRequest) :
    resolveSupplied version hierarchy memberships roles request restrictions
      = resolveSupplied version hierarchy memberships' roles' request restrictions' := by
  unfold resolveSupplied
  rcases MembershipSnapshot.make_same (.refl hierarchy) hm with ⟨e, h, h'⟩ | ⟨s, s', h, h', hs⟩
  · rw [h, h']
    rfl
  rw [h, h']
  rcases RolePolicy.make_same hroles with ⟨e, h, h'⟩ | ⟨p, p', h, h', hp⟩ <;> rw [h, h']
  · rfl
  · exact congrArg Except.ok (resolve_same hs hp hr request)

/-- The resolver accepts exactly the requests of those who may send on the scope, and the recipients
are exactly those who hear them, in increasing order. The binary search finds what a linear search
finds, and the order of the lists does not matter. -/
theorem resolve_characterised :
    (∀ snapshot policy request restrictions,
      ((resolve snapshot policy request restrictions).isOk = true
        ↔ request.membershipVersion = snapshot.version
          ∧ ∃ sender ∈ snapshot.memberships, sender.playerId = request.senderPlayerId
            ∧ MaySend snapshot policy request.requestedScope sender)
      ∧ ∀ recipients, resolve snapshot policy request restrictions = .ok recipients →
        ∃ sender ∈ snapshot.memberships, sender.playerId = request.senderPlayerId
          ∧ (∀ p, p ∈ recipients ↔ ∃ candidate ∈ snapshot.memberships, candidate.playerId = p
            ∧ Hears policy request.requestedScope restrictions sender candidate)
          ∧ recipients.Pairwise (fun p q => compare p q = .lt) ∧ recipients.Nodup)
    ∧ (∀ version hierarchy memberships memberships' roles roles' restrictions restrictions'
        request, Keyed.SameUpTo VoiceMembership.Same memberships memberships' →
      Keyed.SameUpTo RolePermissions.Same roles roles' → List.Perm restrictions restrictions' →
      resolveSupplied version hierarchy memberships roles request restrictions
        = resolveSupplied version hierarchy memberships' roles' request restrictions')
    ∧ ∀ (snapshot : MembershipSnapshot) (p : PlayerId),
      snapshot.find p = snapshot.findBinary p ∧ snapshot.findBinary p = snapshot.findLinear p := by
  refine ⟨fun snapshot policy request restrictions => ⟨resolve_isOk, fun recipients h => ?_⟩,
    fun _ _ _ _ _ _ _ _ request hm hroles hr => resolveSupplied_same hm hroles hr request,
    fun snapshot p => ⟨snapshot.find_eq_findBinary p, ?_⟩⟩
  · obtain ⟨-, sender, hmem, hplayer, -, rfl⟩ := resolve_iff.1 h
    refine ⟨sender, hmem, hplayer, fun p => mem_recipientsOf hmem, recipientsOf_increasing,
      recipientsOf_increasing.imp ?_⟩
    rintro p q hlt rfl
    simp [Std.ReflOrd.compare_self] at hlt
  · rw [← snapshot.find_eq_findBinary, snapshot.find_eq_findLinear]

end RecipientResolver

namespace RecipientResolver

open Sample

/-- `alice` reaches her team, in whatever order the team was supplied. -/
theorem resolve_characterised_team :
    (∃ sender ∈ (snapshot 1 Nat.one_pos).memberships, sender.playerId = alice
      ∧ (∀ p, p ∈ [alice, bob] ↔ ∃ candidate ∈ (snapshot 1 Nat.one_pos).memberships,
        candidate.playerId = p ∧ Hears rolePolicy .team [] sender candidate)
      ∧ [alice, bob].Pairwise (fun p q => compare p q = .lt) ∧ [alice, bob].Nodup)
    ∧ resolveSupplied 1 hierarchy [member alice, member bob] rolePolicy.roles ⟨alice, .team, 1⟩ []
      = resolveSupplied 1 hierarchy [member bob, member alice] rolePolicy.roles ⟨alice, .team, 1⟩
        [] :=
  ⟨(resolve_characterised.1 (snapshot 1 Nat.one_pos) rolePolicy ⟨alice, .team, 1⟩ []).2
      [alice, bob] (by rfl),
    resolve_characterised.2.1 1 hierarchy _ _ _ _ _ _ ⟨alice, .team, 1⟩
      ⟨_, .swap _ _ _, .cons (.refl _) (.cons (.refl _) .nil)⟩
      (.of_forall₂ (List.forall₂_same.2 fun _ _ => ⟨rfl, .refl _, .refl _⟩)) (.refl _)⟩

end RecipientResolver

end VoxTree

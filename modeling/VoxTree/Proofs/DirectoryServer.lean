import VoxTree.DirectorySync
import VoxTree.Proofs.Directory
import VoxTree.Proofs.Presence

/-!
# What the directory service keeps from call to call

A call counts the versions of every group on (`Continues`), and a directory that was served is
served again until something else changes. A presence read answers from the states of the group as
they are.
-/

namespace VoxTree

open ChangeLog DirectoryApplicationService

namespace DirectoryApplicationService

variable {d d' : DirectoryApplicationService}

/-! ## Counting on -/

/-- Versions are positive, and records of presence have a history. -/
structure Sound (d : DirectoryApplicationService) : Prop where
  directory : ∀ (g : GroupId) (versioned : VersionedDirectory),
    d.directoryVersions[g]? = some versioned → 1 ≤ versioned.version
  presence : ∀ (g : GroupId) (versioned : VersionedPresence),
    d.presenceVersions[g]? = some versioned → ∃ history, Recorded history versioned

/-- The records of `d'` are those of `d`, or later ones. -/
structure Continues (d d' : DirectoryApplicationService) : Prop where
  sound : d'.Sound
  directory : ∀ (g : GroupId) (old : VersionedDirectory), d.directoryVersions[g]? = some old →
    ∃ new, d'.directoryVersions[g]? = some new
      ∧ (old.version = new.version ∧ old.fingerprint = new.fingerprint
        ∨ old.version < new.version)
  presence : ∀ (g : GroupId) (old : VersionedPresence) (history : ℕ → PresenceStates),
    d.presenceVersions[g]? = some old → Recorded history old →
    ∃ new history', d'.presenceVersions[g]? = some new ∧ Recorded history' new
      ∧ old.version ≤ new.version ∧ ∀ u ≤ old.version, history' u = history u

theorem sound_initial : Sound {} where
  directory g versioned h := by simp at h
  presence g versioned h := by simp at h

theorem Continues.same (h : d.Sound) (hdirectory : d'.directoryVersions = d.directoryVersions)
    (hpresence : d'.presenceVersions = d.presenceVersions) : Continues d d' where
  sound := ⟨by rw [hdirectory]; exact h.directory, by rw [hpresence]; exact h.presence⟩
  directory g old hold := ⟨old, by rw [hdirectory, hold], .inl ⟨rfl, rfl⟩⟩
  presence g old history hold hrecorded :=
    ⟨old, history, by rw [hpresence, hold], hrecorded, Nat.le_refl _, fun _ _ => rfl⟩

theorem versionFor_pos (h : d.Sound) {g : GroupId} {sourceVersion version : ℕ}
    {fingerprint : Bytes}
    (hversion : d.versionFor g sourceVersion fingerprint = (some version, d')) : 1 ≤ version := by
  unfold versionFor at hversion
  rcases hrecord : d.directoryVersions[g]? with _ | versioned
  · simp only [hrecord, Prod.mk.injEq, Option.some.injEq] at hversion
    omega
  · have hpos := h.directory g versioned hrecord
    simp only [hrecord] at hversion
    split_ifs at hversion
    · simp only [Prod.mk.injEq, Option.some.injEq] at hversion
      omega
    · simp at hversion
    · simp only [Prod.mk.injEq, Option.some.injEq] at hversion
      omega

/-- A read counts its own group on. -/
theorem continues_read (h : d.Sound) {a : DirectorySnapshot} {sourceVersion : ℕ}
    (hread : d.versionFor a.groupId sourceVersion a.content.fingerprint = (some a.version, d')) :
    Continues d d' := by
  have hpos := versionFor_pos h hread
  have hpresence : d'.presenceVersions = d.presenceVersions := by
    have hsame := versionFor_presenceVersions d a.groupId sourceVersion a.content.fingerprint
    rwa [hread] at hsame
  rcases versionFor_cases d a.groupId sourceVersion a.content with
    ⟨-, hnone⟩ | ⟨-, version, d'', hversion, hrecord, hold⟩
  · cases hread.symm.trans hnone
  obtain ⟨hv, rfl⟩ := Prod.mk.inj (hread.symm.trans hversion)
  obtain rfl := Option.some.inj hv
  refine ⟨⟨fun g versioned hg => ?_, by rw [hpresence]; exact h.presence⟩, fun g old hg => ?_,
    fun g old history hg hrecorded => ⟨old, history, by rw [hpresence, hg], hrecorded,
      Nat.le_refl _, fun _ _ => rfl⟩⟩
  · rw [hrecord g] at hg
    split_ifs at hg with hsame
    · obtain rfl := Option.some.inj hg
      exact hpos
    · exact h.directory g versioned hg
  · rw [hrecord g]
    split_ifs with hsame
    · subst hsame
      rcases hold old hg with ⟨hv, hf⟩ | ⟨hv, -⟩
      · exact ⟨_, rfl, .inl ⟨hv, hf⟩⟩
      · exact ⟨_, rfl, .inr hv⟩
    · exact ⟨old, hg, .inl ⟨rfl, rfl⟩⟩

/-- An observation counts the presence of a group on. -/
theorem continues_observe (h : d.Sound) {g : GroupId} {current : PresenceStates}
    {versioned : VersionedPresence}
    (hobserve : ((d.presenceVersions[g]?).getD {}).observe current = some versioned) :
    Continues d { d with presenceVersions := d.presenceVersions.insert g versioned } := by
  have hget : ∀ g' : GroupId, (d.presenceVersions.insert g versioned)[g']?
      = if g = g' then some versioned else d.presenceVersions[g']? := fun g' => by
    simp only [Std.ExtTreeMap.getElem?_insert, Std.LawfulEqCmp.compare_eq_iff_eq]
  have hrecorded : ∃ history, Recorded history versioned := by
    rcases hold : d.presenceVersions[g]? with _ | old
    · rw [hold, Option.getD_none] at hobserve
      exact ⟨_, recorded_first hobserve⟩
    · rw [hold, Option.getD_some] at hobserve
      obtain ⟨history, hrecorded⟩ := h.presence g old hold
      obtain ⟨-, history', hrecorded', -⟩ := hrecorded.observe hobserve
      exact ⟨history', hrecorded'⟩
  refine ⟨⟨h.directory, fun g' versioned' hg => ?_⟩, fun g' old hg =>
    ⟨old, hg, .inl ⟨rfl, rfl⟩⟩, fun g' old history hg hold => ?_⟩
  · rw [hget g'] at hg
    split_ifs at hg
    · obtain rfl := Option.some.inj hg
      exact hrecorded
    · exact h.presence g' versioned' hg
  · rw [hget g']
    split_ifs with hsame
    · subst hsame
      rw [hg, Option.getD_some] at hobserve
      obtain ⟨hle, history', hrecorded', hkeep⟩ := hold.observe hobserve
      exact ⟨versioned, history', rfl, hrecorded', hle, hkeep⟩
    · exact ⟨old, history, hg, hold, Nat.le_refl _, fun _ _ => rfl⟩

/-- Every call counts on. -/
theorem Sound.continues (h : d.Sound) (op : DirectoryOp) : Continues d (op.call d) := by
  cases op with
  | upsertProfile profile =>
    exact .same h (upsertProfile_directoryVersions d profile)
      (upsertProfile_presenceVersions d profile)
  | replacePublicRoles catalogVersion roles =>
    exact .same h (replacePublicRoles_directoryVersions d catalogVersion roles)
      (replacePublicRoles_presenceVersions d catalogVersion roles)
  | directoryFor memberships actor =>
    rcases directoryFor_cases d memberships actor with ⟨-, -, hsame⟩ | ⟨a, v, -, -, -, hread⟩
    · rw [DirectoryOp.call, hsame]
      exact .same h rfl rfl
    · exact continues_read h hread
  | presenceFor memberships connectedScopeCount actor afterVersion observedAt =>
    rcases presenceFor_cases d memberships connectedScopeCount actor afterVersion observedAt with
      ⟨hcall, -⟩ | ⟨g, current, versioned, hobserve, hcall, -⟩
    · rw [hcall]
      exact .same h rfl rfl
    · rw [hcall]
      exact continues_observe h hobserve

/-! ## Serving a directory again -/

theorem makeDirectory_ok {context : AuthoritativeMembershipContext} {membership : VoiceMembership}
    {a : DirectorySnapshot} :
    d.makeDirectory context membership = (.ok (.ok a), d') ↔
      ∃ group, context.snapshot.hierarchy.findGroup membership.groupId = some group
        ∧ group.active = true
        ∧ (visibleMemberships context.snapshot membership.groupId).length
          ≤ maximumDirectoryParticipants
        ∧ a.groupId = membership.groupId
        ∧ a.content = d.directoryContent context.snapshot.hierarchy group
          (visibleMemberships context.snapshot membership.groupId)
        ∧ d.versionFor membership.groupId
          ((visibleMemberships context.snapshot membership.groupId).foldl d.raiseSourceVersion
            context.snapshot.version) a.content.fingerprint = (some a.version, d') := by
  unfold makeDirectory
  dsimp only
  rcases context.snapshot.hierarchy.findGroup membership.groupId with _ | group
  · simp
  dsimp only
  set visible := visibleMemberships context.snapshot membership.groupId
  set content := d.directoryContent context.snapshot.hierarchy group visible with hcontent
  set source := visible.foldl d.raiseSourceVersion context.snapshot.version
  simp only [Option.some.injEq, exists_eq_left']
  by_cases hactive : group.active = true
  · by_cases hlimit : maximumDirectoryParticipants < visible.length
    · simp [hactive, hlimit]
    · rw [if_neg (by simpa using hactive), if_neg hlimit]
      have hle : visible.length ≤ maximumDirectoryParticipants := Nat.le_of_not_lt hlimit
      constructor
      · intro h
        rcases hversion : d.versionFor membership.groupId source content.fingerprint with
          ⟨_ | version, d''⟩
        · rw [hversion] at h
          simp at h
        · rw [hversion] at h
          simp only [Prod.mk.injEq, Except.ok.injEq] at h
          obtain ⟨rfl, rfl⟩ := h
          exact ⟨hactive, hle, rfl, rfl, hversion⟩
      · rintro ⟨-, -, hgroup, hsame, hversion⟩
        rw [hsame] at hversion
        rw [hversion]
        obtain ⟨version, groupId, nodes, publicRoles, participants⟩ := a
        have hmade : content = ⟨nodes, publicRoles, participants⟩ := hcontent.trans hsame.symm
        have hid : groupId = membership.groupId := hgroup
        simp only [hmade, hid]
  · simp [hactive]

theorem directoryFor_ok {memberships : Memberships} {actor : PlayerId} {a : DirectorySnapshot} :
    d.directoryFor memberships actor = (.ok (.ok a), d') ↔
      ∃ context membership, currentContextFor memberships actor = some (context, membership)
        ∧ d.makeDirectory context membership = (.ok (.ok a), d') := by
  unfold directoryFor
  rcases currentContextFor memberships actor with _ | ⟨context, membership⟩
  · simp
  · simp

theorem versionFor_profiles {g : GroupId} {sourceVersion : ℕ} {fingerprint : Bytes}
    (h : (d.versionFor g sourceVersion fingerprint).2 = d') :
    d'.profiles = d.profiles ∧ d'.publicRoles = d.publicRoles := by
  subst h
  unfold versionFor
  split
  · exact ⟨rfl, rfl⟩
  · split_ifs <;> exact ⟨rfl, rfl⟩

/-- The content gets its version again. -/
theorem versionFor_again {g : GroupId} {sourceVersion version : ℕ} {content : DirectoryContent}
    (h : d.versionFor g sourceVersion content.fingerprint = (some version, d'))
    (sourceVersion' : ℕ) :
    d'.versionFor g sourceVersion' content.fingerprint = (some version, d') := by
  rcases versionFor_cases d g sourceVersion content with
    ⟨-, hnone⟩ | ⟨-, version', d'', hversion, hrecord, -⟩
  · cases h.symm.trans hnone
  obtain ⟨hv, rfl⟩ := Prod.mk.inj (h.symm.trans hversion)
  obtain rfl := Option.some.inj hv
  unfold versionFor
  rw [hrecord g, if_pos rfl]
  dsimp only
  rw [if_pos rfl]

/-- A content depends on the profiles and roles only. -/
theorem directoryContent_congr (hprofiles : d'.profiles = d.profiles)
    (hroles : d'.publicRoles = d.publicRoles) : d'.directoryContent = d.directoryContent := by
  obtain ⟨profiles, publicRoles, catalogVersion, directoryVersions, presenceVersions⟩ := d
  obtain ⟨profiles', publicRoles', catalogVersion', directoryVersions', presenceVersions'⟩ := d'
  simp only at hprofiles hroles
  subst hprofiles hroles
  rfl

theorem directoryFor_again {memberships : Memberships} {actor : PlayerId} {a : DirectorySnapshot}
    (h : d.directoryFor memberships actor = (.ok (.ok a), d')) :
    d'.directoryFor memberships actor = (.ok (.ok a), d') := by
  obtain ⟨context, membership, hcontext, hmake⟩ := directoryFor_ok.1 h
  obtain ⟨group, hgroup, hactive, hlimit, hid, hcontent, hversion⟩ := makeDirectory_ok.1 hmake
  obtain ⟨hprofiles, hroles⟩ := versionFor_profiles (congrArg Prod.snd hversion)
  refine directoryFor_ok.2 ⟨context, membership, hcontext, makeDirectory_ok.2
    ⟨group, hgroup, hactive, hlimit, hid, ?_, versionFor_again hversion _⟩⟩
  rw [hcontent, directoryContent_congr hprofiles hroles]

theorem directoryFor_presenceVersions_congr {memberships : Memberships} {actor : PlayerId}
    {a : DirectorySnapshot} (h : d.directoryFor memberships actor = (.ok (.ok a), d'))
    (presenceVersions : Std.ExtTreeMap GroupId VersionedPresence) :
    ({ d with presenceVersions } : DirectoryApplicationService).directoryFor memberships actor
      = (.ok (.ok a), { d' with presenceVersions }) := by
  obtain ⟨context, membership, hcontext, hmake⟩ := directoryFor_ok.1 h
  obtain ⟨group, hgroup, hactive, hlimit, hid, hcontent, hversion⟩ := makeDirectory_ok.1 hmake
  refine directoryFor_ok.2 ⟨context, membership, hcontext, makeDirectory_ok.2
    ⟨group, hgroup, hactive, hlimit, hid, hcontent, ?_⟩⟩
  have hsource : ∀ (visible : List VoiceMembership) (version : ℕ),
      visible.foldl ({ d with presenceVersions } : DirectoryApplicationService).raiseSourceVersion
        version = visible.foldl d.raiseSourceVersion version := fun _ _ => rfl
  rw [hsource]
  unfold versionFor at hversion ⊢
  dsimp only
  rcases hrecord : d.directoryVersions[membership.groupId]? with _ | versioned
  · simp only [hrecord, Prod.mk.injEq] at hversion ⊢
    obtain ⟨hv, rfl⟩ := hversion
    exact ⟨hv, rfl⟩
  · simp only [hrecord] at hversion ⊢
    split_ifs at hversion ⊢
    all_goals
      simp only [Prod.mk.injEq] at hversion ⊢
      obtain ⟨hv, rfl⟩ := hversion
      exact ⟨hv, rfl⟩

/-! ## Reading presence -/

theorem observe_states {versioned versioned' : VersionedPresence} {current : PresenceStates}
    (h : versioned.observe current = some versioned') : versioned'.states = current := by
  unfold VersionedPresence.observe at h
  split_ifs at h with hfirst hchanged hexhausted
  · obtain rfl := Option.some.inj h
    rfl
  · obtain rfl := Option.some.inj h
    rfl
  · obtain rfl := Option.some.inj h
    exact not_not.1 hchanged

/-- A presence read changes the records of presence only. -/
theorem presenceFor_snd (d : DirectoryApplicationService) (memberships : Memberships)
    (connectedScopeCount : PlayerId → ℕ) (actor : PlayerId) (afterVersion : Option ℕ)
    (observedAt : TimePoint) :
    ∃ presenceVersions, (d.presenceFor memberships connectedScopeCount actor afterVersion
      observedAt).2 = { d with presenceVersions } := by
  rcases presenceFor_cases d memberships connectedScopeCount actor afterVersion observedAt with
    ⟨hcall, -⟩ | ⟨g, current, versioned, -, hcall, -⟩
  · exact ⟨d.presenceVersions, hcall⟩
  · exact ⟨_, hcall⟩

theorem presenceFor_ok {memberships : Memberships} {connectedScopeCount : PlayerId → ℕ}
    {actor : PlayerId} {afterVersion : Option ℕ} {observedAt : TimePoint}
    {snapshot : DirectoryPresenceSnapshot}
    (h : d.presenceFor memberships connectedScopeCount actor afterVersion observedAt
      = (.ok (.ok snapshot), d')) :
    ∃ context membership current versioned,
      currentContextFor memberships actor = some (context, membership)
        ∧ currentStates membership.groupId connectedScopeCount ∅ context.snapshot.memberships
          = some current
        ∧ ((d.presenceVersions[membership.groupId]?).getD {}).observe current = some versioned
        ∧ versioned.answer afterVersion observedAt = .ok snapshot
        ∧ d' = { d with presenceVersions :=
          d.presenceVersions.insert membership.groupId versioned } := by
  unfold presenceFor at h
  rcases hcontext : currentContextFor memberships actor with _ | ⟨context, membership⟩
  · simp [hcontext] at h
  rcases hstates : currentStates membership.groupId connectedScopeCount ∅
      context.snapshot.memberships with _ | current
  · simp [hcontext, hstates] at h
  rcases hobserve : ((d.presenceVersions[membership.groupId]?).getD {}).observe current with
    _ | versioned
  · simp [hcontext, hstates, hobserve] at h
  simp only [hcontext, hstates, hobserve, Prod.mk.injEq, Except.ok.injEq] at h
  exact ⟨context, membership, current, versioned, rfl, hstates, hobserve, h.1, h.2.symm⟩

/-! ## Whose directory it is -/

theorem currentContextFor_ok {memberships : Memberships} {actor : PlayerId}
    {context : AuthoritativeMembershipContext} {member : VoiceMembership}
    (h : currentContextFor memberships actor = some (context, member)) :
    memberships actor = some context ∧ context.snapshot.find actor = some member := by
  unfold currentContextFor at h
  rcases hcontext : memberships actor with _ | context'
  · simp [hcontext] at h
  rcases hfind : context'.snapshot.find actor with _ | member'
  · simp [hcontext, hfind] at h
  simp only [hcontext, hfind] at h
  split_ifs at h
  obtain ⟨rfl, rfl⟩ := Prod.mk.inj (Option.some.inj h)
  exact ⟨rfl, hfind⟩

theorem mem_visibleMemberships {snapshot : MembershipSnapshot} {g : GroupId} {m : VoiceMembership} :
    m ∈ visibleMemberships snapshot g ↔ m ∈ snapshot.memberships ∧ m.groupId = g := by
  unfold visibleMemberships
  rw [List.mem_insertionSort, List.mem_filter, decide_eq_true_eq]

/-- A directory is of the actor's group, and lists the members of it. -/
theorem directoryFor_members {memberships : Memberships} {actor : PlayerId} {a : DirectorySnapshot}
    (h : d.directoryFor memberships actor = (.ok (.ok a), d')) :
    ∃ context member, currentContextFor memberships actor = some (context, member)
      ∧ a.groupId = member.groupId
      ∧ ∀ participant ∈ a.participants, ∃ m ∈ context.snapshot.memberships,
        m.groupId = member.groupId ∧ m.playerId = participant.playerId := by
  obtain ⟨context, member, hcontext, hmake⟩ := directoryFor_ok.1 h
  obtain ⟨group, -, -, -, hgroup, hcontent, -⟩ := makeDirectory_ok.1 hmake
  refine ⟨context, member, hcontext, hgroup, fun participant hparticipant => ?_⟩
  have hlisted : a.participants
      = (visibleMemberships context.snapshot member.groupId).map d.participant :=
    congrArg DirectoryContent.participants hcontent
  rw [hlisted, List.mem_map] at hparticipant
  obtain ⟨m, hm, rfl⟩ := hparticipant
  obtain ⟨hmember, hown⟩ := mem_visibleMemberships.1 hm
  exact ⟨m, hmember, hown, rfl⟩

end DirectoryApplicationService

end VoxTree

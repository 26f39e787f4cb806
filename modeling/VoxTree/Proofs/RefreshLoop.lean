import VoxTree.Proofs.DirectoryKept

/-!
# A round of the refresh loop

What the loop and the model know of the directory and of presence is something the server has
served and counts on from (`Together`), unless the server was restarted or an answer about another
group was used. The requests of a round keep this, whatever is answered, and a directory request
that succeeds leaves the model with the directory that is served (`Together.shows`).
-/

namespace VoxTree

namespace DirectorySync

open Client DirectoryApplicationService Presentation DesktopModel

/-! ## The client and the server -/

/-- The server counts on from the directory `a` that the model has and from its presence, which is
the one of the loop's version. -/
structure KeptUp (s : State) (a : DirectorySnapshot) : Prop where
  directory : DirectoryKept s.server.directory a
  presence : ∀ v, s.model.presenceVersion = some v →
    PresenceKept s.server.directory a v s.model.serverPresence
  base : s.loop.knownPresenceVersion = 0
    ∨ s.model.presenceVersion = some s.loop.knownPresenceVersion

/-- The client with a membership, its loop and its model. -/
structure Together (s : State) (m : MembershipView) : Prop where
  membership : s.model.membership = some m
  version : s.loop.knownVersion = m.version
  group : s.loop.knownGroupId = m.groupId.value
  unread : s.model.directory = none →
    s.model.presenceVersion = none ∧ (s.cutOff = false → s.loop.knownDirectoryVersion = 0)
  listed : ∀ shown, s.model.directory = some shown →
    shown.groupId = m.groupId.value ∧ s.model.Lists shown
  current : ∀ shown, s.model.directory = some shown → s.cutOff = false →
    s.loop.knownDirectoryVersion = shown.version ∧ ∃ a, shown = a.view ∧ KeptUp s a

variable {s : State} {membership : MembershipView} {a : DirectorySnapshot}
  {d' : DirectoryApplicationService}

/-- Whatever `Together` depends on is the same in both states, or promises less in the later. -/
structure Preserves (s s' : State) : Prop where
  server : s'.cutOff = false → s.cutOff = false
    ∧ (s'.server.directory = s.server.directory
      ∨ Continues s.server.directory s'.server.directory)
  version : s'.loop.knownVersion = s.loop.knownVersion
  group : s'.loop.knownGroupId = s.loop.knownGroupId
  directoryVersion : s'.loop.knownDirectoryVersion = s.loop.knownDirectoryVersion
  presenceVersion : s'.loop.knownPresenceVersion = 0
    ∨ s'.loop.knownPresenceVersion = s.loop.knownPresenceVersion
  model : ∃ diagnostics, s'.model = { s.model with diagnostics }

theorem KeptUp.preserved (h : KeptUp s a) {s' : State} (hs : Preserves s s')
    (hcut : s'.cutOff = false) : KeptUp s' a := by
  obtain ⟨diagnostics, hmodel⟩ := hs.model
  have hbase : s'.loop.knownPresenceVersion = 0
      ∨ s'.model.presenceVersion = some s'.loop.knownPresenceVersion := by
    rw [hmodel]
    rcases hs.presenceVersion with hzero | hsame
    · exact .inl hzero
    · rw [hsame]
      exact h.base
  rcases (hs.server hcut).2 with hsame | hcontinues
  · refine ⟨by rw [hsame]; exact h.directory, ?_, hbase⟩
    rw [hsame, hmodel]
    exact h.presence
  · refine ⟨h.directory.continues hcontinues, ?_, hbase⟩
    rw [hmodel]
    exact fun v hv => (h.presence v hv).continues hcontinues

theorem Together.preserved (h : Together s membership) {s' : State} (hs : Preserves s s') :
    Together s' membership := by
  obtain ⟨diagnostics, hmodel⟩ := hs.model
  have hdirectory : s'.model.directory = s.model.directory := by rw [hmodel]
  refine ⟨by rw [hmodel]; exact h.membership, hs.version.trans h.version, hs.group.trans h.group,
    fun hnone => ?_, by rw [hmodel]; exact h.listed, fun shown hshown hcut => ?_⟩
  · obtain ⟨hunread, hversion⟩ := h.unread (hdirectory.symm.trans hnone)
    exact ⟨by rw [hmodel]; exact hunread,
      fun hcut => hs.directoryVersion.trans (hversion (hs.server hcut).1)⟩
  · obtain ⟨hversion, a, ha, hup⟩ := h.current shown (hdirectory.symm.trans hshown)
      (hs.server hcut).1
    exact ⟨hs.directoryVersion.trans hversion, a, ha, hup.preserved hs hcut⟩

theorem Together.continues (h : Together s membership) {server : DirectoryServer}
    (hd : Continues s.server.directory server.directory) :
    Together { s with server } membership :=
  h.preserved ⟨fun hcut => ⟨hcut, .inr hd⟩, rfl, rfl, rfl, .inr rfl, _, rfl⟩

/-- After a restart nothing is known of what the server has. -/
theorem Together.cutOff (h : Together s membership) (server : DirectoryServer) :
    Together { s with server, cutOff := true } membership :=
  h.preserved ⟨nofun, rfl, rfl, rfl, .inr rfl, _, rfl⟩

/-- An error is noted in the diagnostics only. -/
theorem Together.error (h : Together s membership) (errorCode diagnostic : Bytes) :
    Together (s.report (.error errorCode diagnostic)) membership :=
  h.preserved ⟨fun hcut => ⟨hcut, .inl rfl⟩, rfl, rfl, rfl, .inr rfl, _, rfl⟩

/-- The place in the session does not matter. -/
theorem Together.at (h : Together s membership) (pc : Pc) :
    Together { s with pc } membership :=
  h.preserved ⟨fun hcut => ⟨hcut, .inl rfl⟩, rfl, rfl, rfl, .inr rfl, _, rfl⟩

/-- When presence is next due does not matter. -/
theorem Together.poll (h : Together s membership) (nextPresencePoll : TimePoint) :
    Together { s with loop := { s.loop with nextPresencePoll } } membership :=
  h.preserved ⟨fun hcut => ⟨hcut, .inl rfl⟩, rfl, rfl, rfl, .inr rfl, _, rfl⟩

/-- The loop may forget the version of presence. -/
theorem Together.forget (h : Together s membership) :
    Together { s with loop := { s.loop with knownPresenceVersion := 0 } } membership :=
  h.preserved ⟨fun hcut => ⟨hcut, .inl rfl⟩, rfl, rfl, rfl, .inl rfl, _, rfl⟩

/-- What a call returned to the session does not matter to the loop. -/
theorem Together.holding (h : Together s membership) (held : Option MembershipView) :
    Together { s with membership := held } membership :=
  h.preserved ⟨fun hcut => ⟨hcut, .inl rfl⟩, rfl, rfl, rfl, .inr rfl, _, rfl⟩

/-! ## Directory requests -/

/-- The model takes over a directory of its group that the loop does not know, if it is newer or the
client was not cut off. -/
theorem Together.accepts (h : Together s membership) (hsound : s.server.directory.Sound)
    {memberships : Memberships} {actor : PlayerId}
    (hread : s.server.directory.directoryFor memberships actor = (.ok (.ok a), d'))
    (hgroup : a.groupId.value = membership.groupId.value)
    (hnewer : s.cutOff = true → ∀ shown, s.model.directory = some shown → shown.version < a.version)
    (hunknown : known s.loop.knownDirectoryVersion ≠ some a.version) :
    s.model.Accepts a.view := by
  obtain ⟨-, -, hpos, hlater⟩ := directory_read hsound hread
  have hversion : a.view.version = a.version := rfl
  refine ⟨⟨membership, h.membership, hgroup⟩, by omega, fun shown hshown => ?_⟩
  rcases hcut : s.cutOff with _ | _
  · obtain ⟨hknown, b, rfl, hup⟩ := h.current shown hshown hcut
    have hb : b.groupId = a.groupId := StrongId.ext ((h.listed b.view hshown).1.trans hgroup.symm)
    have hbversion : b.view.version = b.version := rfl
    rcases hlater b hup.directory hb with ⟨hv, -⟩ | hv
    · -- the loop knows the version of the model's directory, and is not sent it again
      exfalso
      refine hunknown ?_
      unfold known
      rw [hknown, hbversion, hv, if_neg (by omega)]
    · omega
  · exact hnewer hcut shown hshown

/-- A directory snapshot that is received is taken over, or was about another group. -/
theorem Together.directoryReceived (h : Together s membership)
    (hsound : s.server.directory.Sound) {memberships : Memberships} {actor : PlayerId}
    (hread : s.server.directory.directoryFor memberships actor = (.ok (.ok a), d'))
    (hunknown : known s.loop.knownDirectoryVersion ≠ some a.version) (clock : TimePoint) :
    Together ({ s with server := { s.server with directory := d' }, pc := .presence
        }.directoryReceived a.view clock) membership := by
  obtain ⟨hcontinues, hkept, hpos, -⟩ := directory_read hsound hread
  set s' := { s with server := { s.server with directory := d' }, pc := .presence
    }.directoryReceived a.view clock with hs'
  have hmodel : s'.model = noted (s.model.applyDirectory a.view) := rfl
  rcases applyDirectory_cases s.model a.view with ⟨haccepts, hok, hshows⟩ | ⟨hrefused, hok, hsame⟩
  · obtain ⟨membership', hmembership, hgroup⟩ := haccepts.group
    obtain rfl := Option.some.inj (h.membership.symm.trans hmembership)
    have hshown : s'.model.directory = some a.view := by
      rw [hmodel, noted_directory, hshows.directory]
    have hunread : s'.model.presenceVersion = none := by
      rw [hmodel, noted_presenceVersion, hshows.presenceVersion]
    refine ⟨?_, h.version, h.group, fun hnone => ?_, fun shown hsome => ?_,
      fun shown hsome _ => ?_⟩
    · rw [hmodel, noted_membership, hshows.membership, h.membership]
    · cases hshown.symm.trans hnone
    · obtain rfl := Option.some.inj (hshown.symm.trans hsome)
      refine ⟨hgroup, fun participant hparticipant => ?_⟩
      rw [hmodel, noted_participants]
      exact hshows.lists participant hparticipant
    · obtain rfl := Option.some.inj (hshown.symm.trans hsome)
      refine ⟨rfl, a, rfl, hkept, fun v hv => ?_, .inl rfl⟩
      cases hunread.symm.trans hv
  · -- refused: it was about another group, or the client had nothing to go by
    have hsame' : s'.model.directory = s.model.directory ∧ s'.model.presenceVersion
        = s.model.presenceVersion ∧ s'.model.membership = s.model.membership := by
      rw [hmodel, noted_directory, noted_presenceVersion, noted_membership, hsame]
      exact ⟨rfl, rfl, rfl⟩
    have hcut' : s'.cutOff ≠ false := by
      intro hfalse
      have hparts : s.cutOff = false ∧ a.view.groupId = s.loop.knownGroupId := by
        simpa [hs', State.directoryReceived, State.report, hok] using hfalse
      have hgroup : a.groupId.value = membership.groupId.value := hparts.2.trans h.group
      refine hrefused (h.accepts hsound hread hgroup (fun hcut => ?_) hunknown)
      cases hparts.1.symm.trans hcut
    refine ⟨?_, h.version, h.group, fun hnone => ⟨?_, fun hfalse => absurd hfalse hcut'⟩,
      fun shown hsome => ?_, fun shown hsome hfalse => absurd hfalse hcut'⟩
    · rw [hsame'.2.2, h.membership]
    · rw [hsame'.2.1]
      exact (h.unread (hsame'.1.symm.trans hnone)).1
    · obtain ⟨hgroup, hlists⟩ := h.listed shown (hsame'.1.symm.trans hsome)
      refine ⟨hgroup, fun participant hparticipant => ?_⟩
      rw [hmodel, noted_participants, hsame]
      exact hlists participant hparticipant

theorem map_entityTag_eq {knownVersion : Option ℕ} {version : ℕ} :
    knownVersion.map Network.entityTag = some (Network.entityTag version)
      ↔ knownVersion = some version := by
  rcases knownVersion with _ | v
  · simp
  · simp [entityTag_injective.eq_iff]

theorem served_eq_some {server : DirectoryServer} {actor : PlayerId} :
    server.served actor = some a
      ↔ (server.directory.directoryFor server.memberships actor).1 = .ok (.ok a) := by
  unfold DirectoryServer.served
  rcases (server.directory.directoryFor server.memberships actor).1 with e | (e | b) <;> simp

variable (actor : PlayerId)

theorem continues_directoryFor (h : s.server.directory.Sound) (memberships : Memberships) :
    Continues s.server.directory (s.server.directory.directoryFor memberships actor).2 :=
  h.continues (.directoryFor memberships actor)

/-- What an answer to a directory request leads to. -/
theorem fetchDirectory_cases (server : DirectoryServer) (knownVersion : Option ℕ)
    (lost : Option ControlPlaneError) :
    (∃ error, (server.fetchDirectory actor knownVersion lost).1 = .error error)
      ∨ ∃ a, lost = none ∧ server.served actor = some a
        ∧ (server.fetchDirectory actor knownVersion lost).1
          = (if knownVersion = some a.version then .ok none else .ok (some a.view))
        ∧ server.directory.directoryFor server.memberships actor
          = (.ok (.ok a), (server.fetchDirectory actor knownVersion lost).2.directory) := by
  rcases lost with _ | lost
  · unfold DirectoryServer.fetchDirectory
    dsimp only
    rcases hread : server.directory.directoryFor server.memberships actor with ⟨e | (e | a), d'⟩
    · exact .inl ⟨_, rfl⟩
    · cases e <;> exact .inl ⟨_, rfl⟩
    · refine .inr ⟨a, rfl, served_eq_some.2 (by rw [hread]), ?_, rfl⟩
      simp only [DirectoryServer.directoryAnswer, map_entityTag_eq]
  · exact .inl ⟨lost, rfl⟩

theorem fetchDirectory_continues (h : s.server.directory.Sound) (knownVersion : Option ℕ)
    (lost : Option ControlPlaneError) :
    Continues s.server.directory
      (s.server.fetchDirectory actor knownVersion lost).2.directory := by
  rcases lost with _ | lost
  · exact continues_directoryFor actor h s.server.memberships
  · exact .same h rfl rfl

theorem fetchDirectory_snd (server : DirectoryServer) (knownVersion : Option ℕ)
    (lost : Option ControlPlaneError) :
    (server.fetchDirectory actor knownVersion lost).2
      = { server with directory :=
        (server.fetchDirectory actor knownVersion lost).2.directory } := by
  rcases lost with _ | lost <;> rfl

theorem Together.refreshDirectory (h : Together s membership) (hsound : s.server.directory.Sound)
    (lost : Option ControlPlaneError) (clock : TimePoint) :
    Together (s.refreshDirectory actor lost clock) membership
      ∧ (s.refreshDirectory actor lost clock).server.directory.Sound
      ∧ (s.refreshDirectory actor lost clock).membership = s.membership
      ∧ (s.refreshDirectory actor lost clock).pc = .presence := by
  unfold State.refreshDirectory
  have hcontinues := fetchDirectory_continues actor hsound (known s.loop.knownDirectoryVersion) lost
  have hserver := (h.continues hcontinues).at .presence
  rcases fetchDirectory_cases actor s.server (known s.loop.knownDirectoryVersion) lost with
    ⟨error, herror⟩ | ⟨a, -, -, hanswer, hread⟩
  · simp only [herror]
    exact ⟨hserver.error _ _, hcontinues.sound, rfl, rfl⟩
  · simp only [hanswer]
    split_ifs with hknown
    · exact ⟨hserver, hcontinues.sound, rfl, rfl⟩
    · rw [fetchDirectory_snd]
      exact ⟨h.directoryReceived hsound hread hknown clock, hcontinues.sound, rfl, rfl⟩

/-- A client that was cut off is answered the directory it has or a newer one. -/
def Outruns (s : State) (a : DirectorySnapshot) : Prop :=
  s.cutOff = true → s.model.directory = some a.view
    ∨ known s.loop.knownDirectoryVersion ≠ some a.version
      ∧ ∀ shown, s.model.directory = some shown → shown.version < a.version

/-- A client that was not cut off is not answered the fields that it has divided differently. -/
def Alike (s : State) (a : DirectorySnapshot) : Prop :=
  s.cutOff = false → ∀ shown, s.model.directory = some shown → shown.version = a.version →
    fields shown = fields a.view → division shown = division a.view

theorem keepsUp_directory {clock : TimePoint}
    (h : keepsUp actor s (.directory none clock) = true) (hpc : s.pc = .directory)
    (hserved : s.server.served actor = some a) (hgroup : a.groupId.value = s.loop.knownGroupId) :
    Outruns s a ∧ Alike s a := by
  unfold keepsUp at h
  simp only [hpc, hserved, hgroup] at h
  refine ⟨fun hcut => ?_, fun hcut shown hshown hversion hfields => ?_⟩
  · rw [hcut] at h
    simpa [Option.all_eq_true] using h
  · rw [hcut] at h
    simpa [hshown, hversion, hfields] using h

theorem served_again {server : DirectoryServer}
    (h : server.directory.directoryFor server.memberships actor = (.ok (.ok a), d')) :
    DirectoryServer.served { server with directory := d' } actor = some a :=
  served_eq_some.2 (congrArg Prod.fst (directoryFor_again h))

theorem known_eq_some {version v : ℕ} (h : known version = some v) : version = v ∧ version ≠ 0 := by
  unfold known at h
  split_ifs at h with hzero
  exact ⟨Option.some.inj h, hzero⟩

/-- A round's directory request about the group of the client leaves the model with the directory
that is served. -/
theorem Together.shows (h : Together s membership) (hsound : s.server.directory.Sound)
    (hserved : s.server.served actor = some a)
    (hgroup : a.groupId.value = membership.groupId.value) (houtruns : Outruns s a)
    (halike : Alike s a) (clock : TimePoint) :
    (s.refreshDirectory actor none clock).model.directory = some a.view
      ∧ (s.refreshDirectory actor none clock).server.served actor = some a
      ∧ (s.refreshDirectory actor none clock).pc = .presence := by
  rcases hread : s.server.directory.directoryFor s.server.memberships actor with ⟨r, d'⟩
  have hr : r = .ok (.ok a) := by
    have hok := served_eq_some.1 hserved
    rwa [hread] at hok
  subst hr
  obtain ⟨-, hkeptRead, hpos, hlater⟩ := directory_read hsound hread
  have hagain := served_again actor hread
  unfold State.refreshDirectory DirectoryServer.fetchDirectory DirectoryServer.directoryAnswer
  simp only [hread, map_entityTag_eq]
  by_cases hknown : known s.loop.knownDirectoryVersion = some a.version
  · -- not modified: the model has the version that is served, and so its content
    rw [if_pos hknown]
    refine ⟨?_, hagain, rfl⟩
    show s.model.directory = some a.view
    rcases hcut : s.cutOff with _ | _
    swap
    · rcases houtruns hcut with hshown | ⟨hunknown, -⟩
      · exact hshown
      · exact absurd hknown hunknown
    obtain ⟨hversion, hzero⟩ := known_eq_some hknown
    rcases hshown : s.model.directory with _ | shown
    · exact absurd ((h.unread hshown).2 hcut) hzero
    obtain ⟨hcurrent, b, rfl, hup⟩ := h.current shown hshown hcut
    have hb : b.groupId = a.groupId := StrongId.ext ((h.listed b.view hshown).1.trans hgroup.symm)
    have hbversion : b.version = a.version := hcurrent.symm.trans hversion
    rcases hlater b hup.directory hb with ⟨-, hfingerprint⟩ | hlt
    · have hfields := fingerprint_eq_iff.1 hfingerprint
      have hdivision := halike hcut b.view hshown hbversion
        (by rw [fields_view, fields_view, hfields])
      rw [division_view, division_view] at hdivision
      have hsame := sameContent_of_fields hup.directory.named hkeptRead.named hfields hdivision
      rw [← view_eq hbversion hb hsame]
    · omega
  · rw [if_neg hknown]
    refine ⟨?_, hagain, rfl⟩
    show (noted (s.model.applyDirectory a.view)).directory = some a.view
    rw [noted_directory]
    rcases applyDirectory_cases s.model a.view with ⟨-, -, hshows⟩ | ⟨hrefused, -, hsame⟩
    · rw [hshows.directory]
    · -- refused: the model has it already
      rw [hsame]
      by_contra hother
      refine hrefused (h.accepts hsound hread hgroup (fun hcut => ?_) hknown)
      rcases houtruns hcut with hshown | ⟨-, hnewer⟩
      · exact absurd hshown hother
      · exact hnewer

/-! ## Presence requests -/

/-- The presence that was received is about the client's group, or it is noted that it is not. -/
theorem foreign_eq (server : DirectoryServer) {context : AuthoritativeMembershipContext}
    {member : VoiceMembership}
    (h : currentContextFor s.server.memberships actor = some (context, member))
    (hserver : server.memberships = s.server.memberships) (groupId : Bytes) :
    State.foreign { s with server } actor groupId = decide (member.groupId.value ≠ groupId) := by
  unfold State.foreign DirectoryServer.groupOf
  rw [show ({ s with server } : State).server.memberships = s.server.memberships from hserver, h]
  rfl

/-- The model that keeps up ends with the presence that was received, which it may already have. -/
theorem KeptUp.presenceReceived (h : KeptUp s a) (hshown : s.model.directory = some a.view)
    (hlists : s.model.Lists a.view) (hcontinues : Continues s.server.directory d')
    {afterVersion : Option ℕ} {observedAt : TimePoint} {p : DirectoryPresenceSnapshot}
    {versioned : VersionedPresence}
    (hafter : afterVersion = none ∨ afterVersion = known s.loop.knownPresenceVersion)
    (hrecord : d'.presenceVersions[a.groupId]? = some versioned)
    (hanswer : versioned.answer afterVersion observedAt = .ok p) :
    (s.model.applyPresence p.view).2.presenceVersion = some p.version
      ∧ PresenceKept d' a p.version (s.model.applyPresence p.view).2.serverPresence := by
  obtain ⟨hversion, hmode⟩ := answer_ok hanswer
  have hviewMode : p.view.mode = p.mode := rfl
  have hbase : afterVersion ≠ none → ∃ v, afterVersion = some v
      ∧ s.model.presenceVersion = some v ∧ PresenceKept d' a v s.model.serverPresence := by
    intro hne
    rcases hafter with hnone | hknown
    · exact absurd hnone hne
    obtain ⟨v, hv⟩ := Option.ne_none_iff_exists'.1 hne
    obtain ⟨rfl, hzero⟩ := known_eq_some (hknown.symm.trans hv)
    rcases h.base with hbase | hbase
    · exact absurd hbase hzero
    · exact ⟨_, hv, hbase, (h.presence _ hbase).continues hcontinues⟩
  rcases applyPresence_cases s.model p.view with ⟨-, -, hrecords⟩ | ⟨hrefused, -, hsame⟩
  · refine ⟨hrecords.presenceVersion, ?_⟩
    rw [hrecords.serverPresence]
    rcases hmode with ⟨rfl, hsnapshot⟩ | ⟨hne, hdelta⟩
    · rw [hviewMode, hsnapshot, if_pos rfl]
      exact presenceKept_snapshot hcontinues.sound hrecord hlists hanswer
    · obtain ⟨base, rfl, -, hpresence⟩ := hbase hne
      rw [hviewMode, hdelta, if_neg (by simp)]
      exact presenceKept_delta hpresence hrecord hlists hanswer
  · -- only the version that the model has is refused
    have hold : ∃ current, s.model.presenceVersion = some current ∧ p.version ≤ current := by
      by_contra hno
      refine hrefused ⟨by rw [hshown]; simp, ?_, fun current hcurrent => ?_, fun hdelta hnone => ?_⟩
      · obtain ⟨history, hrecorded⟩ := hcontinues.sound.presence _ _ hrecord
        have hpos := hrecorded.version_pos
        show p.version ≠ 0
        omega
      · show current < p.version
        by_contra hle
        exact hno ⟨current, hcurrent, by omega⟩
      · rcases hmode with ⟨-, hsnapshot⟩ | ⟨hne, -⟩
        · cases hsnapshot.symm.trans hdelta
        · obtain ⟨base, -, hsome, -⟩ := hbase hne
          cases hnone.symm.trans hsome
    obtain ⟨current, hcurrent, hle⟩ := hold
    have hkept := (h.presence current hcurrent).continues hcontinues
    have hequal : current = p.version := by
      obtain ⟨versioned', -, hrecord', -, hle', -⟩ := hkept
      obtain rfl := Option.some.inj (hrecord.symm.trans hrecord')
      omega
    subst hequal
    rw [hsame]
    exact ⟨hcurrent, hkept⟩

theorem continues_presenceFor (h : s.server.directory.Sound) (afterVersion : Option ℕ)
    (observedAt : TimePoint) :
    Continues s.server.directory (s.server.directory.presenceFor s.server.memberships
      s.server.connectedScopeCount actor afterVersion observedAt).2 :=
  h.continues (.presenceFor s.server.memberships s.server.connectedScopeCount actor afterVersion
    observedAt)

theorem Together.presenceReceived (h : Together s membership) (hsound : s.server.directory.Sound)
    {afterVersion : Option ℕ} {observedAt : TimePoint} {p : DirectoryPresenceSnapshot}
    (hafter : afterVersion = none ∨ afterVersion = known s.loop.knownPresenceVersion)
    (hread : s.server.directory.presenceFor s.server.memberships s.server.connectedScopeCount actor
      afterVersion observedAt = (.ok (.ok p), d')) (answered : TimePoint) :
    Together ({ s with server := { s.server with directory := d' } }.presenceReceived actor p.view
      answered) membership := by
  have hcontinues : Continues s.server.directory d' := by
    have hcall := continues_presenceFor actor hsound afterVersion observedAt
    rwa [hread] at hcall
  obtain ⟨context, member, current, versioned, hcontext, -, hrecord, -, hanswer⟩ :=
    presence_read hread
  set s' := { s with server := { s.server with directory := d' } }.presenceReceived actor p.view
    answered with hs'
  have hmodel : s'.model = noted (s.model.applyPresence p.view) := rfl
  have hcut : s'.cutOff = false →
      s.cutOff = false ∧ member.groupId.value = s.loop.knownGroupId := by
    intro hfalse
    have hforeign : s'.cutOff
        = (s.cutOff || decide (member.groupId.value ≠ s.loop.knownGroupId)) := by
      rw [← foreign_eq actor { s.server with directory := d' } hcontext rfl]
      rfl
    rw [hforeign] at hfalse
    simpa using hfalse
  obtain ⟨hmembership, hdirectory, hparticipants⟩ := applyPresence_rest s.model p.view
  have hshown : s'.model.directory = s.model.directory := by
    rw [hmodel, noted_directory, hdirectory]
  refine ⟨?_, h.version, h.group, fun hnone => ?_, fun shown hsome => ?_,
    fun shown hsome hfalse => ?_⟩
  · rw [hmodel, noted_membership, hmembership, h.membership]
  · obtain ⟨hunread, hversion⟩ := h.unread (hshown.symm.trans hnone)
    refine ⟨?_, fun hfalse => hversion (hcut hfalse).1⟩
    rw [hmodel, noted_presenceVersion, applyPresence_unread (hshown.symm.trans hnone), hunread]
  · obtain ⟨hgroup, hlists⟩ := h.listed shown (hshown.symm.trans hsome)
    refine ⟨hgroup, fun participant hparticipant => ?_⟩
    rw [hmodel, noted_participants, hparticipants]
    exact hlists participant hparticipant
  · obtain ⟨hnear, hown⟩ := hcut hfalse
    have hsome' := hshown.symm.trans hsome
    obtain ⟨hgroup, hlists⟩ := h.listed shown hsome'
    obtain ⟨hknown, b, rfl, hup⟩ := h.current shown hsome' hnear
    -- the record that was read is that of the directory which the model has
    have hb : b.groupId = member.groupId :=
      StrongId.ext (hgroup.trans (h.group.symm.trans hown.symm))
    obtain ⟨hversion, hpresence⟩ := hup.presenceReceived hsome' hlists hcontinues hafter
      (by rw [hb, hrecord]) hanswer
    refine ⟨hknown, b, rfl, hup.directory.continues hcontinues, fun v hv => ?_, .inr ?_⟩
    · rw [hmodel, noted_presenceVersion, hversion] at hv
      obtain rfl := Option.some.inj hv
      rw [hmodel, noted_serverPresence]
      exact hpresence
    · rw [hmodel, noted_presenceVersion, hversion]
      rfl

theorem Together.presenceFailed (h : Together s membership) (error : ControlPlaneError)
    (answered : TimePoint) : Together (s.presenceFailed error answered) membership :=
  ((h.at .sleeping).poll _).error _ _

/-- The place of a round that a client with a membership is at. -/
def Pc.inLoop : Pc → Bool
  | .sleeping | .directory | .presence | .presenceSnapshot => true
  | _ => false

/-- What an answer to a presence request leads to. -/
theorem fetchPresence_cases (server : DirectoryServer) (afterVersion : Option ℕ)
    (observedAt : TimePoint) (lost : Option ControlPlaneError) :
    (∃ error, (server.fetchPresence actor afterVersion observedAt lost).1 = .error error)
      ∨ ∃ p, lost = none
        ∧ (server.fetchPresence actor afterVersion observedAt lost).1 = .ok p.view
        ∧ server.directory.presenceFor server.memberships server.connectedScopeCount actor
          afterVersion observedAt = (.ok (.ok p),
            (server.fetchPresence actor afterVersion observedAt lost).2.directory) := by
  rcases lost with _ | lost
  · unfold DirectoryServer.fetchPresence DirectoryServer.presenceAnswer
    dsimp only
    rcases server.directory.presenceFor server.memberships server.connectedScopeCount actor
      afterVersion observedAt with ⟨e | (e | p), d'⟩
    · exact .inl ⟨_, rfl⟩
    · cases e <;> exact .inl ⟨_, rfl⟩
    · exact .inr ⟨p, rfl, rfl, rfl⟩
  · exact .inl ⟨lost, rfl⟩

theorem fetchPresence_continues (h : s.server.directory.Sound) (afterVersion : Option ℕ)
    (observedAt : TimePoint) (lost : Option ControlPlaneError) :
    Continues s.server.directory
      (s.server.fetchPresence actor afterVersion observedAt lost).2.directory := by
  rcases lost with _ | lost
  · exact continues_presenceFor actor h afterVersion observedAt
  · exact .same h rfl rfl

theorem fetchPresence_snd (server : DirectoryServer) (afterVersion : Option ℕ)
    (observedAt : TimePoint) (lost : Option ControlPlaneError) :
    (server.fetchPresence actor afterVersion observedAt lost).2
      = { server with directory :=
        (server.fetchPresence actor afterVersion observedAt lost).2.directory } := by
  rcases lost with _ | lost <;> rfl

theorem Together.refreshPresence (h : Together s membership) (hsound : s.server.directory.Sound)
    (lost : Option ControlPlaneError) (observedAt asked answered : TimePoint) :
    Together (s.refreshPresence actor lost observedAt asked answered) membership
      ∧ (s.refreshPresence actor lost observedAt asked answered).server.directory.Sound
      ∧ (s.refreshPresence actor lost observedAt asked answered).membership = s.membership
      ∧ (s.refreshPresence actor lost observedAt asked answered).pc.inLoop = true := by
  unfold State.refreshPresence
  split_ifs with hdue
  · exact ⟨h.at .sleeping, hsound, rfl, rfl⟩
  have hcontinues := fetchPresence_continues actor hsound (known s.loop.knownPresenceVersion)
    observedAt lost
  have hserver := h.continues hcontinues
  rcases fetchPresence_cases actor s.server (known s.loop.knownPresenceVersion) observedAt lost with
    ⟨error, herror⟩ | ⟨p, -, hok, hread⟩
  · simp only [herror]
    split_ifs with hrequired
    · exact ⟨(hserver.at .presenceSnapshot).forget, hcontinues.sound, rfl, rfl⟩
    · exact ⟨hserver.presenceFailed error answered, hcontinues.sound, rfl, rfl⟩
  · simp only [hok]
    rw [fetchPresence_snd]
    exact ⟨h.presenceReceived actor hsound (.inr rfl) hread answered, hcontinues.sound, rfl, rfl⟩

theorem Together.refreshPresenceSnapshot (h : Together s membership)
    (hsound : s.server.directory.Sound) (lost : Option ControlPlaneError)
    (observedAt answered : TimePoint) :
    Together (s.refreshPresenceSnapshot actor lost observedAt answered) membership
      ∧ (s.refreshPresenceSnapshot actor lost observedAt answered).server.directory.Sound
      ∧ (s.refreshPresenceSnapshot actor lost observedAt answered).membership = s.membership
      ∧ (s.refreshPresenceSnapshot actor lost observedAt answered).pc = .sleeping := by
  unfold State.refreshPresenceSnapshot
  have hcontinues := fetchPresence_continues actor hsound none observedAt lost
  have hserver := h.continues hcontinues
  rcases fetchPresence_cases actor s.server none observedAt lost with
    ⟨error, herror⟩ | ⟨p, -, hok, hread⟩
  · simp only [herror]
    exact ⟨hserver.presenceFailed error answered, hcontinues.sound, rfl, rfl⟩
  · simp only [hok]
    rw [fetchPresence_snd]
    exact ⟨h.presenceReceived actor hsound (.inl rfl) hread answered, hcontinues.sound, rfl, rfl⟩

/-! ## Membership requests -/

/-- A membership with a higher version of the same group changes nothing about the directory. -/
theorem Together.noteSame (h : Together s membership) {current : MembershipView}
    (hversion : membership.version < current.version)
    (hgroup : current.groupId = membership.groupId) :
    Together ({ s with membership := some current }.noteMembership) current := by
  have hnew : s.loop.knownVersion < current.version := by rw [h.version]; exact hversion
  have hsame : current.groupId.value = s.loop.knownGroupId := by rw [h.group, hgroup]
  unfold State.noteMembership
  dsimp only
  rw [if_pos hnew, if_neg (not_not.2 hsame)]
  have happlied := updateMembership_newer h.membership hversion
  obtain ⟨hdirectory, hpresence, hserver, hparticipants⟩ :=
    applyMembership_same s.model current fun m hm => by
      obtain rfl := Option.some.inj (h.membership.symm.trans hm)
      rw [hgroup]
  set s' := ({ s with membership := some current, loop :=
    { s.loop with knownVersion := current.version } } : State).report (.membershipUpdated current)
    with hs'
  have hmodel : s'.model = noted (s.model.updateMembership current) := rfl
  have hdirectory' : s'.model.directory = s.model.directory := by
    rw [hmodel, noted_directory, happlied, hdirectory]
  have hpresence' : s'.model.presenceVersion = s.model.presenceVersion := by
    rw [hmodel, noted_presenceVersion, happlied, hpresence]
  refine ⟨?_, rfl, hsame.symm, fun hnone => ?_, fun shown hshown => ?_,
    fun shown hshown hcut => ?_⟩
  · rw [hmodel, noted_membership, happlied, applyMembership_membership]
  · rw [hpresence']
    exact h.unread (hdirectory'.symm.trans hnone)
  · obtain ⟨hshownGroup, hlists⟩ := h.listed shown (hdirectory'.symm.trans hshown)
    refine ⟨by rw [hshownGroup, hgroup], fun participant hparticipant => ?_⟩
    rw [hmodel, noted_participants, happlied, hparticipants]
    exact hlists participant hparticipant
  · obtain ⟨hknown, a, ha, hup⟩ := h.current shown (hdirectory'.symm.trans hshown) hcut
    refine ⟨hknown, a, ha, hup.directory, fun v hv => ?_, ?_⟩
    · rw [hmodel, noted_serverPresence, happlied, hserver]
      exact hup.presence v (hpresence'.symm.trans hv)
    · rw [hpresence']
      exact hup.base

/-- A membership of another group empties the model, and the loop knows no version. -/
theorem Together.noteOther (h : Together s membership) {current : MembershipView}
    (hversion : membership.version < current.version)
    (hgroup : current.groupId ≠ membership.groupId) :
    Together ({ s with membership := some current }.noteMembership) current := by
  have hnew : s.loop.knownVersion < current.version := by rw [h.version]; exact hversion
  have hvalue : current.groupId.value ≠ membership.groupId.value :=
    fun heq => hgroup (StrongId.ext heq)
  have hother : current.groupId.value ≠ s.loop.knownGroupId := by rw [h.group]; exact hvalue
  unfold State.noteMembership
  dsimp only
  rw [if_pos hnew, if_pos hother]
  have happlied := updateMembership_newer h.membership hversion
  obtain ⟨hdirectory, hpresence⟩ := applyMembership_other h.membership hvalue.symm
  set s' := ({ s with
      membership := some current
      loop :=
        { s.loop with
          knownVersion := current.version
          knownGroupId := current.groupId.value
          knownDirectoryVersion := 0
          knownPresenceVersion := 0 }
      cutOff := false } : State).report (.membershipUpdated current) with hs'
  have hmodel : s'.model = noted (s.model.updateMembership current) := rfl
  have hempty : s'.model.directory = none := by
    rw [hmodel, noted_directory, happlied, hdirectory]
  refine ⟨?_, rfl, rfl, fun _ => ⟨?_, fun _ => rfl⟩, fun shown hshown => ?_,
    fun shown hshown _ => ?_⟩
  · rw [hmodel, noted_membership, happlied, applyMembership_membership]
  · rw [hmodel, noted_presenceVersion, happlied, hpresence]
  · cases hempty.symm.trans hshown
  · cases hempty.symm.trans hshown

theorem Together.noteNone (h : Together s membership)
    (hmembership : s.membership = some membership) : s.noteMembership = s := by
  unfold State.noteMembership
  rw [hmembership]
  dsimp only
  rw [if_neg (by rw [h.version]; omega)]

theorem noteMembership_rest (s : State) : s.noteMembership.server = s.server
    ∧ s.noteMembership.pc = s.pc ∧ s.noteMembership.membership = s.membership := by
  unfold State.noteMembership
  rcases hmembership : s.membership with _ | current
  · exact ⟨rfl, rfl, hmembership⟩
  · dsimp only
    split_ifs
    · exact ⟨rfl, rfl, rfl⟩
    · exact ⟨rfl, rfl, rfl⟩
    · exact ⟨rfl, rfl, hmembership⟩

/-- What a membership request leads to: nothing, the end of the session, or the directory request
with the membership that was answered. -/
theorem Together.refresh (h : Together s membership) (hmembership : s.membership = some membership)
    (hpc : s.pc = .sleeping) (authorization : Authorization) :
    ((refreshAuthorization (s.server.membership actor) s.membership authorization).1.toOption = none
        ∧ (s.refresh actor authorization).pc = .sleeping
        ∧ (s.refresh actor authorization).server = s.server
        ∧ ((s.refresh actor authorization).membership = none
          ∨ (s.refresh actor authorization).membership = some membership
            ∧ Together (s.refresh actor authorization) membership))
      ∨ ∃ current known, authorization = .answered ∧ s.server.membership actor = .ok current
        ∧ (s.refresh actor authorization).server = s.server
        ∧ (s.refresh actor authorization).pc = .directory
        ∧ (s.refresh actor authorization).membership = some known
        ∧ Together (s.refresh actor authorization) known
        ∧ (current.version = membership.version ∧ known = membership
          ∨ membership.version < current.version ∧ known = current) := by
  have hfailed : ∀ error : VoiceSessionError, Together ({ s with membership := some membership
      }.report (.error error.code (voiceSessionMessage error))) membership := fun error =>
    (h.holding (some membership)).error _ _
  unfold State.refresh refreshAuthorization
  rw [hmembership]
  rcases authorization with _ | error | error
  · rcases hanswer : s.server.membership actor with error | current
    · exact .inl ⟨rfl, hpc, rfl, .inr ⟨rfl, hfailed _⟩⟩
    dsimp only
    by_cases hsame : current.version = membership.version
    · have hnoted := ((h.holding (some membership)).at .directory).noteNone rfl
      rw [if_pos hsame]
      dsimp only
      rw [hnoted]
      exact .inr ⟨current, membership, rfl, rfl, rfl, rfl, rfl,
        (h.holding (some membership)).at .directory, .inl ⟨hsame, rfl⟩⟩
    rw [if_neg hsame]
    by_cases hobsolete : current.version < membership.version
    · rw [if_pos hobsolete]
      exact .inl ⟨rfl, hpc, rfl, .inr ⟨rfl, hfailed _⟩⟩
    rw [if_neg hobsolete]
    have hversion : membership.version < current.version := by omega
    obtain ⟨hserver, hnotedPc, hheld⟩ := noteMembership_rest
      { s with membership := some current, pc := .directory }
    refine .inr ⟨current, current, rfl, rfl, hserver, hnotedPc, hheld, ?_, .inr ⟨hversion, rfl⟩⟩
    by_cases hgroup : current.groupId = membership.groupId
    · exact (h.at .directory).noteSame hversion hgroup
    · exact (h.at .directory).noteOther hversion hgroup
  · exact .inl ⟨rfl, hpc, rfl, .inr ⟨rfl, hfailed _⟩⟩
  · exact .inl ⟨rfl, hpc, rfl, .inl rfl⟩

end DirectorySync

end VoxTree

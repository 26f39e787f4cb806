import VoxTree.Proofs.RefreshLoop

/-!
# The client keeps up where it is not cut off

Every step keeps the client together with the server, or notes that it was cut off (`inv_step`). A
round whose requests all succeed and meet `keepsUp` ends with the model showing what the server has
(`synced_after_round`). Without that it may not (`stale_after_restart`).
-/

namespace VoxTree

namespace DirectorySync

open Client DirectoryApplicationService Machine Presentation DesktopModel

/-! ## The invariant -/

/-- A model that has been cleared. -/
structure Blank (m : DesktopModel) : Prop where
  membership : m.membership = none
  directory : m.directory = none
  presenceVersion : m.presenceVersion = none

/-- What holds of the client at each place of the session. -/
def AtPc (s : State) : Pc → Prop
  | .offline => True
  | .connectDirectory membership => s.membership = some membership ∧ Blank s.model
  | .connectPresence membership directory =>
    s.membership = some membership ∧ Blank s.model
      ∧ (s.cutOff = false → ∃ a, directory = a.view ∧ DirectoryKept s.server.directory a)
  | .sleeping => ∀ membership, s.membership = some membership → Together s membership
  | .directory | .presence | .presenceSnapshot =>
    ∃ membership, s.membership = some membership ∧ Together s membership

structure Inv (s : State) : Prop where
  sound : s.server.directory.Sound
  client : AtPc s s.pc

variable {s : State} {membership : MembershipView}

theorem Together.inv (h : Together s membership) (hsound : s.server.directory.Sound)
    (hmembership : s.membership = some membership) (hpc : s.pc.inLoop = true) : Inv s := by
  refine ⟨hsound, ?_⟩
  rcases hs : s.pc with _ | _ | _ | _ | _ | _ | _ <;> rw [hs] at hpc <;> try cases hpc
  · intro m hm
    obtain rfl := Option.some.inj (hmembership.symm.trans hm)
    exact h
  · exact ⟨membership, hmembership, h⟩
  · exact ⟨membership, hmembership, h⟩
  · exact ⟨membership, hmembership, h⟩

theorem Inv.offline (hsound : s.server.directory.Sound) (hpc : s.pc = .offline) : Inv s := by
  refine ⟨hsound, ?_⟩
  rw [hpc]
  trivial

variable (actor : PlayerId)

/-! ## Connecting -/

theorem blank_beginConnect {m : DesktopModel} (h : m.beginConnect.1.ok = true) :
    Blank m.beginConnect.2 := by
  unfold DesktopModel.beginConnect at h ⊢
  split_ifs at h ⊢
  · exact ⟨rfl, rfl, rfl⟩
  · cases h

theorem Inv.connect (h : Inv s) (authorization : Authorization) :
    Inv (s.connect actor authorization) := by
  have hblank := blank_beginConnect (m := s.model)
  unfold State.connect
  dsimp only
  split_ifs with hbegun
  · exact h
  · rcases authorization with _ | error | error
    · rcases s.server.membership actor with error | membership
      · exact .offline h.sound rfl
      · exact ⟨h.sound, rfl, hblank (by simpa using hbegun)⟩
    · exact .offline h.sound rfl
    · exact .offline h.sound rfl

theorem Inv.connectDirectory (h : Inv s) {m : MembershipView} (hpc : s.pc = .connectDirectory m)
    (lost : Option ControlPlaneError) : Inv (s.connectDirectory actor m lost) := by
  have hclient := h.client
  rw [hpc] at hclient
  obtain ⟨hmembership, hblank⟩ := hclient
  have hcontinues := fetchDirectory_continues actor h.sound none lost
  unfold State.connectDirectory
  rcases fetchDirectory_cases actor s.server none lost with
    ⟨error, herror⟩ | ⟨a, -, -, hanswer, hread⟩
  · simp only [herror]
    exact .offline hcontinues.sound rfl
  · have hsome : (s.server.fetchDirectory actor none lost).1 = .ok (some a.view) := by
      rw [hanswer, if_neg (by simp)]
    simp only [hsome]
    obtain ⟨-, hkept, -, -⟩ := directory_read h.sound hread
    exact ⟨hcontinues.sound, hmembership, hblank, fun _ => ⟨a, rfl, hkept⟩⟩

/-- The loop starts with the membership, the directory and the presence of `connect`. -/
theorem Inv.connectPresence (h : Inv s) {m : MembershipView} {directory : DirectoryView}
    (hpc : s.pc = .connectPresence m directory) (lost : Option ControlPlaneError)
    (observedAt answered : TimePoint) :
    Inv (s.connectPresence actor m directory lost observedAt answered) := by
  have hclient := h.client
  rw [hpc] at hclient
  obtain ⟨hmembership, hblank, hkept⟩ := hclient
  have hcontinues := fetchPresence_continues actor h.sound none observedAt lost
  unfold State.connectPresence
  rcases fetchPresence_cases actor s.server none observedAt lost with
    ⟨error, herror⟩ | ⟨p, -, hok, hread⟩
  · simp only [herror]
    exact .offline hcontinues.sound rfl
  simp only [hok]
  rw [fetchPresence_snd]
  generalize (s.server.fetchPresence actor none observedAt lost).2.directory = d'
    at hread hcontinues
  obtain ⟨context, member, current, versioned, hcontext, -, hrecord, -, hanswer⟩ :=
    presence_read hread
  have hforeign := foreign_eq actor { s.server with directory := d' } hcontext rfl
    directory.groupId
  unfold State.connected
  dsimp only at hforeign ⊢
  rw [hforeign]
  split_ifs with hsucceeded hfailed
  · exact .offline hcontinues.sound rfl
  · exact .offline hcontinues.sound rfl
  · exact .offline hcontinues.sound rfl
  rw [not_or, Bool.not_eq_true', Bool.not_eq_true', Bool.not_eq_false, Bool.not_eq_false] at hfailed
  obtain ⟨hm, hnone, hunread⟩ :=
    connectionSucceeded_ok hblank.membership (by simpa using hsucceeded)
  set succeeded := (s.model.connectionSucceeded m).2
  rcases applyDirectory_cases succeeded directory with ⟨haccepts, -, hshows⟩ | ⟨-, hrefused, -⟩
  swap
  · cases hfailed.1.symm.trans hrefused
  rcases applyPresence_cases (succeeded.applyDirectory directory).2 p.view with
    ⟨-, -, hrecords⟩ | ⟨-, hrefused, -⟩
  swap
  · cases hfailed.2.symm.trans hrefused
  set model := ((succeeded.applyDirectory directory).2.applyPresence p.view).2
  obtain ⟨m', hm', hgroup⟩ := haccepts.group
  obtain rfl := Option.some.inj (hm.symm.trans hm')
  have hshown : model.directory = some directory := by rw [hrecords.directory, hshows.directory]
  refine Together.inv ⟨?_, ?_, hgroup, fun hnone => ?_, fun shown hsome => ?_,
    fun shown hsome hfalse => ?_⟩ hcontinues.sound hmembership rfl
  · rw [hrecords.membership, hshows.membership, hm]
  · rw [hmembership]
    rfl
  · cases hshown.symm.trans hnone
  · obtain rfl := Option.some.inj (hshown.symm.trans hsome)
    refine ⟨hgroup, fun participant hparticipant => ?_⟩
    rw [hrecords.participants]
    exact hshows.lists participant hparticipant
  · obtain rfl := Option.some.inj (hshown.symm.trans hsome)
    have hparts : s.cutOff = false ∧ member.groupId.value = directory.groupId := by
      simpa using hfalse
    obtain ⟨a, rfl, hdirectory⟩ := hkept hparts.1
    refine ⟨rfl, a, rfl, hdirectory.continues hcontinues, fun v hv => ?_,
      .inr hrecords.presenceVersion⟩
    obtain rfl := Option.some.inj (hrecords.presenceVersion.symm.trans hv)
    have hown : member.groupId.value = a.view.groupId := hparts.2
    have hsame : a.groupId = member.groupId := StrongId.ext hown.symm
    obtain ⟨hversion, hmode⟩ := answer_ok hanswer
    have hsnapshot : p.view.mode = .snapshot := by
      rcases hmode with ⟨-, hsnapshot⟩ | ⟨hne, -⟩
      · exact hsnapshot
      · exact absurd rfl hne
    rw [hrecords.serverPresence, hsnapshot, if_pos rfl]
    exact presenceKept_snapshot hcontinues.sound (by rw [hsame, hrecord]) hshows.lists hanswer

/-! ## Every step -/

theorem AtPc.continues {pc : Pc} (h : AtPc s pc) {server : DirectoryServer}
    (hd : Continues s.server.directory server.directory) : AtPc { s with server } pc := by
  rcases pc with _ | m | ⟨m, directory⟩ | _ | _ | _ | _
  · trivial
  · exact h
  · obtain ⟨hmembership, hblank, hkept⟩ := h
    refine ⟨hmembership, hblank, fun hcut => ?_⟩
    obtain ⟨a, ha, hdirectory⟩ := hkept hcut
    exact ⟨a, ha, hdirectory.continues hd⟩
  · exact fun membership hmembership => (h membership hmembership).continues hd
  all_goals
    obtain ⟨membership, hmembership, htogether⟩ := h
    exact ⟨membership, hmembership, htogether.continues hd⟩

theorem AtPc.cutOff {pc : Pc} (h : AtPc s pc) (server : DirectoryServer) :
    AtPc { s with server, cutOff := true } pc := by
  rcases pc with _ | m | ⟨m, directory⟩ | _ | _ | _ | _
  · trivial
  · exact h
  · obtain ⟨hmembership, hblank, -⟩ := h
    exact ⟨hmembership, hblank, nofun⟩
  · exact fun membership hmembership => (h membership hmembership).cutOff server
  all_goals
    obtain ⟨membership, hmembership, htogether⟩ := h
    exact ⟨membership, hmembership, htogether.cutOff server⟩

/-- Only a restart does not count on. -/
theorem change_cases (h : s.server.directory.Sound) (change : ServerChange) :
    (s.change change = { s with server := s.server.apply change }
        ∧ Continues s.server.directory (s.server.apply change).directory)
      ∨ s.change change = { s with server := s.server.apply change, cutOff := true }
        ∧ (s.server.apply change).directory.Sound := by
  have hquiet : s.change change = { s with
      server := s.server.apply change
      cutOff := s.cutOff || change.isRestart } := rfl
  rcases hrestart : change.isRestart with _ | _
  · rw [hrestart, Bool.or_false] at hquiet
    refine .inl ⟨hquiet, ?_⟩
    cases change with
    | restart => cases hrestart
    | updateMembership | removeMembership | connections => exact .same h rfl rfl
    | upsertProfile profile => exact h.continues (.upsertProfile profile)
    | replacePublicRoles catalogVersion roles =>
      exact h.continues (.replacePublicRoles catalogVersion roles)
    | readDirectory reader => exact h.continues (.directoryFor s.server.memberships reader)
    | readPresence reader afterVersion observedAt =>
      exact h.continues (.presenceFor s.server.memberships s.server.connectedScopeCount reader
        afterVersion observedAt)
  · rw [hrestart, Bool.or_true] at hquiet
    refine .inr ⟨hquiet, ?_⟩
    cases change <;> cases hrestart
    exact sound_initial

theorem Inv.change (h : Inv s) (change : ServerChange) : Inv (s.change change) := by
  rcases change_cases h.sound change with ⟨heq, hcontinues⟩ | ⟨heq, hsound⟩
  · rw [heq]
    exact ⟨hcontinues.sound, h.client.continues hcontinues⟩
  · rw [heq]
    exact ⟨hsound, h.client.cutOff _⟩

theorem Inv.disconnect (h : Inv s) : Inv s.disconnect := by
  unfold State.disconnect
  dsimp only
  split_ifs
  · exact h
  · exact .offline h.sound rfl

theorem inv_initial : Inv {} := ⟨sound_initial, trivial⟩

/-- The membership of a client that is in a round. -/
theorem Inv.inRound (h : Inv s)
    (hpc : s.pc = .directory ∨ s.pc = .presence ∨ s.pc = .presenceSnapshot) :
    ∃ membership, s.membership = some membership ∧ Together s membership := by
  have hclient := h.client
  rcases hpc with hpc | hpc | hpc <;> rw [hpc] at hclient <;> exact hclient

theorem Inv.refresh (h : Inv s) (hpc : s.pc = .sleeping) (authorization : Authorization) :
    Inv (s.refresh actor authorization) := by
  have hclient := h.client
  rw [hpc] at hclient
  rcases hmembership : s.membership with _ | membership
  · -- without a membership the request is not made
    have hrest : (s.refresh actor authorization).server = s.server
        ∧ (s.refresh actor authorization).pc = s.pc
        ∧ (s.refresh actor authorization).membership = none := by
      unfold State.refresh refreshAuthorization
      rw [hmembership]
      exact ⟨rfl, rfl, rfl⟩
    refine ⟨by rw [hrest.1]; exact h.sound, ?_⟩
    rw [hrest.2.1, hpc]
    intro m hm
    cases hrest.2.2.symm.trans hm
  have htogether := hclient membership hmembership
  rcases htogether.refresh actor hmembership hpc authorization with
    ⟨-, hsleeping, hserver, hnone | ⟨hsame, hnext⟩⟩
      | ⟨current, known, -, -, hserver, hdirectory, hheld, hnext, -⟩
  · refine ⟨by rw [hserver]; exact h.sound, ?_⟩
    rw [hsleeping]
    intro m hm
    cases hnone.symm.trans hm
  · exact hnext.inv (by rw [hserver]; exact h.sound) hsame (by rw [hsleeping]; rfl)
  · exact hnext.inv (by rw [hserver]; exact h.sound) hheld (by rw [hdirectory]; rfl)

theorem Inv.refreshDirectory (h : Inv s) (hpc : s.pc = .directory)
    (lost : Option ControlPlaneError) (clock : TimePoint) :
    Inv (s.refreshDirectory actor lost clock) := by
  obtain ⟨membership, hmembership, htogether⟩ := h.inRound (.inl hpc)
  obtain ⟨hnext, hsound, hsame, hpresence⟩ :=
    htogether.refreshDirectory actor h.sound lost clock
  exact hnext.inv hsound (hsame.trans hmembership) (by rw [hpresence]; rfl)

theorem Inv.refreshPresence (h : Inv s) (hpc : s.pc = .presence)
    (lost : Option ControlPlaneError) (observedAt asked answered : TimePoint) :
    Inv (s.refreshPresence actor lost observedAt asked answered) := by
  obtain ⟨membership, hmembership, htogether⟩ := h.inRound (.inr (.inl hpc))
  obtain ⟨hnext, hsound, hsame, hloop⟩ :=
    htogether.refreshPresence actor h.sound lost observedAt asked answered
  exact hnext.inv hsound (hsame.trans hmembership) hloop

theorem Inv.refreshPresenceSnapshot (h : Inv s) (hpc : s.pc = .presenceSnapshot)
    (lost : Option ControlPlaneError) (observedAt answered : TimePoint) :
    Inv (s.refreshPresenceSnapshot actor lost observedAt answered) := by
  obtain ⟨membership, hmembership, htogether⟩ := h.inRound (.inr (.inr hpc))
  obtain ⟨hnext, hsound, hsame, hsleeping⟩ :=
    htogether.refreshPresenceSnapshot actor h.sound lost observedAt answered
  exact hnext.inv hsound (hsame.trans hmembership) (by rw [hsleeping]; rfl)

theorem inv_step (s : State) (a : Action) (s' : State) (h : Inv s)
    (hstep : step actor s a = some s') : Inv s' := by
  unfold step at hstep
  rcases a with change | authorization | authorization | ⟨lost, clock⟩ |
    ⟨lost, observedAt, asked, answered⟩ | _
  · obtain rfl := Option.some.inj hstep
    exact h.change change
  · rcases hpc : s.pc with _ | _ | _ | _ | _ | _ | _ <;> rw [hpc] at hstep <;> try cases hstep
    exact h.connect actor authorization
  · rcases hpc : s.pc with _ | _ | _ | _ | _ | _ | _ <;> rw [hpc] at hstep <;> try cases hstep
    exact h.refresh actor hpc authorization
  · rcases hpc : s.pc with _ | _ | _ | _ | _ | _ | _ <;> rw [hpc] at hstep <;> try cases hstep
    · exact h.connectDirectory actor hpc lost
    · exact h.refreshDirectory actor hpc lost clock
  · rcases hpc : s.pc with _ | _ | _ | _ | _ | _ | _ <;> rw [hpc] at hstep <;> try cases hstep
    · exact h.connectPresence actor hpc lost observedAt answered
    · exact h.refreshPresence actor hpc lost observedAt asked answered
    · exact h.refreshPresenceSnapshot actor hpc lost observedAt answered
  · rcases hpc : s.pc with _ | _ | _ | _ | _ | _ | _ <;> rw [hpc] at hstep <;> cases hstep <;>
      exact h.disconnect

/-! ## A round that succeeds -/

/-- What a round has come to: the group is the client's, then its directory is shown, and at the
end its presence. -/
def Caught (s : State) : Prop :=
  match s.pc with
  | .directory => ∃ membership current, s.membership = some membership
      ∧ s.server.membership actor = .ok current ∧ current.groupId = membership.groupId
  | .presence | .presenceSnapshot =>
    ∃ a, s.server.served actor = some a ∧ s.model.directory = some a.view
  | .sleeping => Synced actor s
  | _ => False

variable {a : DirectorySnapshot} {d' : DirectoryApplicationService}

theorem served_members {server : DirectoryServer} (h : server.served actor = some a) :
    ∃ context member, currentContextFor server.memberships actor = some (context, member)
      ∧ a.groupId = member.groupId
      ∧ ∀ participant ∈ a.participants, ∃ m ∈ context.snapshot.memberships,
        m.groupId = member.groupId ∧ m.playerId = participant.playerId := by
  have hread := served_eq_some.1 h
  rcases hcall : server.directory.directoryFor server.memberships actor with ⟨r, d'⟩
  rw [hcall] at hread
  subst hread
  exact directoryFor_members hcall

/-- The membership that is answered is of the group whose directory is served. -/
theorem served_group {server : DirectoryServer} {current : MembershipView}
    (hmembership : server.membership actor = .ok current) (h : server.served actor = some a) :
    a.groupId = current.groupId := by
  obtain ⟨context, member, hcontext, hgroup, -⟩ := served_members actor h
  obtain ⟨hstored, hfind⟩ := currentContextFor_ok hcontext
  unfold DirectoryServer.membership at hmembership
  rw [hstored] at hmembership
  dsimp only at hmembership
  rw [hfind] at hmembership
  obtain rfl := Except.ok.inj hmembership
  exact hgroup

/-- A presence read leaves the directory that is served as it is. -/
theorem served_fetchPresence {server : DirectoryServer} (h : server.served actor = some a)
    (afterVersion : Option ℕ) (observedAt : TimePoint) (lost : Option ControlPlaneError) :
    (server.fetchPresence actor afterVersion observedAt lost).2.served actor = some a := by
  rcases lost with _ | lost
  · obtain ⟨presenceVersions, hsnd⟩ := presenceFor_snd server.directory server.memberships
      server.connectedScopeCount actor afterVersion observedAt
    have hread := served_eq_some.1 h
    rcases hcall : server.directory.directoryFor server.memberships actor with ⟨r, d'⟩
    rw [hcall] at hread
    subst hread
    refine served_eq_some.2 ?_
    unfold DirectoryServer.fetchPresence
    dsimp only
    rw [hsnd]
    exact congrArg Prod.fst (directoryFor_presenceVersions_congr hcall presenceVersions)
  · exact h

/-- The membership request of a round ends with the group that is served. -/
theorem Inv.caughtMembership (h : Inv s) (hpc : s.pc = .sleeping) (authorization : Authorization)
    (hkeepsUp : keepsUp actor s (.refresh authorization) = true)
    (hsucceeds : succeeds actor s (.refresh authorization) = true) :
    Caught actor (s.refresh actor authorization) := by
  have hclient := h.client
  rw [hpc] at hclient
  rcases hmembership : s.membership with _ | membership
  · unfold succeeds refreshAuthorization at hsucceeds
    rw [hmembership] at hsucceeds
    cases hsucceeds
  rcases (hclient membership hmembership).refresh actor hmembership hpc authorization with
    ⟨hnone, -⟩ | ⟨current, known, rfl, hanswer, hserver, hdirectory, hheld, -, hversion⟩
  · unfold succeeds at hsucceeds
    dsimp only at hsucceeds
    rw [hnone] at hsucceeds
    cases hsucceeds
  unfold Caught
  rw [hdirectory]
  dsimp only
  rw [hserver]
  refine ⟨known, current, hheld, hanswer, ?_⟩
  rcases hversion with ⟨hsame, rfl⟩ | ⟨-, rfl⟩
  · unfold keepsUp at hkeepsUp
    simpa [hmembership, hanswer, hsame] using hkeepsUp
  · rfl

/-- The directory request of a round ends with the directory that is served. -/
theorem Inv.caughtDirectory (h : Inv s) (hpc : s.pc = .directory) (hcaught : Caught actor s)
    (lost : Option ControlPlaneError) (clock : TimePoint)
    (hkeepsUp : keepsUp actor s (.directory lost clock) = true)
    (hsucceeds : succeeds actor s (.directory lost clock) = true) :
    Caught actor (s.refreshDirectory actor lost clock) := by
  obtain ⟨membership, hmembership, htogether⟩ := h.inRound (.inl hpc)
  unfold Caught at hcaught
  rw [hpc] at hcaught
  obtain ⟨membership', current, hmembership', hcurrent, hgroup⟩ := hcaught
  obtain rfl := Option.some.inj (hmembership.symm.trans hmembership')
  rcases fetchDirectory_cases actor s.server (known s.loop.knownDirectoryVersion) lost with
    ⟨error, herror⟩ | ⟨a, rfl, hserved, -, -⟩
  · unfold succeeds at hsucceeds
    dsimp only at hsucceeds
    rw [herror] at hsucceeds
    cases hsucceeds
  have hown : a.groupId.value = membership.groupId.value := by
    rw [served_group actor hcurrent hserved, hgroup]
  obtain ⟨houtruns, halike⟩ :=
    keepsUp_directory actor hkeepsUp hpc hserved (hown.trans htogether.group.symm)
  obtain ⟨hshown, hagain, hpresence⟩ :=
    htogether.shows actor h.sound hserved hown houtruns halike clock
  unfold Caught
  rw [hpresence]
  exact ⟨a, hagain, hshown⟩

/-- A client that was cut off needs nothing of the presence that is answered, or is answered a
snapshot that it takes. -/
def Supplies (s : State) (a : DirectorySnapshot) (p : DirectoryPresenceSnapshot) : Prop :=
  s.cutOff = true → ShowsPresence s a
    ∨ p.mode = .snapshot ∧ ∀ version, s.model.presenceVersion = some version → version < p.version

/-- Presence that is received about the directory that is served leaves nothing to catch up. -/
theorem Together.synced (h : Together s membership) (hsound : s.server.directory.Sound)
    (hserved : s.server.served actor = some a) (hshown : s.model.directory = some a.view)
    {afterVersion : Option ℕ} {observedAt : TimePoint} {p : DirectoryPresenceSnapshot}
    (hafter : afterVersion = none ∨ afterVersion = known s.loop.knownPresenceVersion)
    (hread : s.server.directory.presenceFor s.server.memberships s.server.connectedScopeCount actor
      afterVersion observedAt = (.ok (.ok p), d')) (hsupplies : Supplies s a p)
    (answered : TimePoint) :
    Synced actor ({ s with server := { s.server with directory := d' } }.presenceReceived actor
      p.view answered) := by
  obtain ⟨context, member, current, versioned, hcontext, hstates, hrecord, hcurrent, hanswer⟩ :=
    presence_read hread
  obtain ⟨context', member', hcontext', hgroup, hlisted⟩ := served_members actor hserved
  obtain ⟨rfl, rfl⟩ := Prod.mk.inj (Option.some.inj (hcontext.symm.trans hcontext'))
  have hagain := served_fetchPresence actor hserved afterVersion observedAt none
  unfold DirectoryServer.fetchPresence at hagain
  dsimp only at hagain
  rw [hread] at hagain
  have hcontinues := continues_presenceFor actor hsound afterVersion observedAt
  rw [hread] at hcontinues
  obtain ⟨hsame, hlists⟩ := h.listed a.view hshown
  have hgroupRecord : d'.presenceVersions[a.groupId]? = some versioned := by rw [hgroup, hrecord]
  refine ⟨a, hagain, ?_, fun participant hparticipant => ?_⟩
  · show (noted (s.model.applyPresence p.view)).directory = some a.view
    rw [noted_directory, (applyPresence_rest s.model p.view).2.1, hshown]
  show (noted (s.model.applyPresence p.view)).serverPresence[participant.playerId.value]?
    = some (decide (s.server.connectedScopeCount participant.playerId ≠ 0))
  -- the state that is read of whoever is listed
  obtain ⟨m, hm, hmGroup, hmId⟩ := hlisted participant hparticipant
  have hstate := currentStates_member hstates hm hmGroup
  rw [hmId, ← hcurrent] at hstate
  have hread' : decide (transportState s.server.connectedScopeCount participant.playerId = .online)
      = decide (s.server.connectedScopeCount participant.playerId ≠ 0) := by
    unfold transportState
    split_ifs with hzero <;> simp [hzero]
  rw [noted_serverPresence, ← hread']
  rcases hcut : s.cutOff with _ | _
  · -- what is counted on from is what was read
    obtain ⟨-, b, hview, hup⟩ := h.current a.view hshown hcut
    have hb : b.groupId = a.groupId :=
      StrongId.ext (congrArg DirectoryView.groupId hview).symm
    rw [hview] at hshown hlists
    obtain ⟨-, versioned', history, hrecord', hrecorded, -, hright⟩ :=
      hup.presenceReceived hshown hlists hcontinues hafter (by rw [hb, hgroupRecord]) hanswer
    rw [hb] at hrecord'
    obtain rfl := Option.some.inj (hgroupRecord.symm.trans hrecord')
    obtain ⟨hversion, -⟩ := answer_ok hanswer
    obtain ⟨other, hother, hid⟩ :
        ∃ other ∈ b.participants, other.playerId = participant.playerId := by
      have hmem : participant.playerId ∈ b.participants.map DirectoryParticipant.playerId := by
        rw [← participants_of_view hview]
        exact List.mem_map_of_mem hparticipant
      exact List.mem_map.1 hmem
    have hlast := hright other hother _ (by rw [hversion, hrecorded.current, hid, hstate])
    rwa [hid] at hlast
  · -- what is recorded over is right already, or nothing
    obtain ⟨history, hrecorded⟩ := hcontinues.sound.presence _ _ hrecord
    have hrow := hlists participant.view (List.mem_map_of_mem hparticipant)
    rcases applyPresence_cases s.model p.view with ⟨-, -, hrecords⟩ | ⟨hrefused, -, hsame⟩
    · rw [hrecords.serverPresence]
      refine recorded_right hrecorded hanswer hrow hstate ?_
      rcases hsupplies hcut with hshows | ⟨hsnapshot, -⟩
      · right
        rw [hread']
        exact hshows participant hparticipant
      · exact .inl hsnapshot
    · rw [hsame, hread']
      rcases hsupplies hcut with hshows | ⟨hsnapshot, hnewer⟩
      · exact hshows participant hparticipant
      · have hpos := hrecorded.version_pos
        obtain ⟨hversion, -⟩ := answer_ok hanswer
        refine absurd ⟨by rw [hshown]; simp, ?_, hnewer, fun hdelta => ?_⟩ hrefused
        · show p.version ≠ 0
          omega
        · cases hsnapshot.symm.trans hdelta

theorem keepsUp_presence {observedAt asked answered : TimePoint} {p : DirectoryPresenceSnapshot}
    (h : keepsUp actor s (.presence none observedAt asked answered) = true)
    (hserved : s.server.served actor = some a) (hshown : s.model.directory = some a.view)
    (hok : (s.server.fetchPresence actor (presenceBase s) observedAt none).1 = .ok p.view) :
    Supplies s a p := by
  unfold keepsUp at h
  simp only [hserved, hok, hshown] at h
  intro hcut
  rw [hcut] at h
  have hmode : p.view.mode = p.mode := rfl
  have hversion : p.view.version = p.version := rfl
  rw [hmode, hversion] at h
  simpa [Option.all_eq_true] using h

/-- What a presence request finds at its place of a round. -/
theorem Caught.shown (hcaught : Caught actor s)
    (hpc : s.pc = .presence ∨ s.pc = .presenceSnapshot) :
    ∃ a, s.server.served actor = some a ∧ s.model.directory = some a.view := by
  unfold Caught at hcaught
  rcases hpc with hpc | hpc
  all_goals
    rw [hpc] at hcaught
    exact hcaught

theorem Inv.caughtPresence (h : Inv s) (hpc : s.pc = .presence) (hcaught : Caught actor s)
    (lost : Option ControlPlaneError) (observedAt asked answered : TimePoint)
    (hkeepsUp : keepsUp actor s (.presence lost observedAt asked answered) = true)
    (hsucceeds : succeeds actor s (.presence lost observedAt asked answered) = true) :
    Caught actor (s.refreshPresence actor lost observedAt asked answered) := by
  obtain ⟨membership, -, htogether⟩ := h.inRound (.inr (.inl hpc))
  obtain ⟨a, hserved, hshown⟩ := hcaught.shown actor (.inl hpc)
  unfold succeeds at hsucceeds
  simp only [hpc, Bool.and_eq_true, decide_eq_true_eq] at hsucceeds
  obtain ⟨hdue, hanswered⟩ := hsucceeds
  have hbase : presenceBase s = known s.loop.knownPresenceVersion := by
    unfold presenceBase
    rw [hpc]
  unfold State.refreshPresence
  rw [if_neg (not_lt.2 hdue)]
  rcases fetchPresence_cases actor s.server (known s.loop.knownPresenceVersion) observedAt lost with
    ⟨error, herror⟩ | ⟨p, rfl, hok, hread⟩
  · -- a refused delta is followed by the second request
    rw [herror] at hanswered
    simp only [decide_eq_true_eq] at hanswered
    simp only [herror]
    rw [if_pos hanswered]
    have hagain := served_fetchPresence actor hserved (known s.loop.knownPresenceVersion)
      observedAt lost
    exact ⟨a, hagain, hshown⟩
  · simp only [hok]
    rw [fetchPresence_snd]
    exact htogether.synced actor h.sound hserved hshown (.inr rfl) hread
      (keepsUp_presence actor hkeepsUp hserved hshown (by rw [hbase, hok])) answered

theorem Inv.caughtPresenceSnapshot (h : Inv s) (hpc : s.pc = .presenceSnapshot)
    (hcaught : Caught actor s) (lost : Option ControlPlaneError)
    (observedAt asked answered : TimePoint)
    (hkeepsUp : keepsUp actor s (.presence lost observedAt asked answered) = true)
    (hsucceeds : succeeds actor s (.presence lost observedAt asked answered) = true) :
    Caught actor (s.refreshPresenceSnapshot actor lost observedAt answered) := by
  obtain ⟨membership, -, htogether⟩ := h.inRound (.inr (.inr hpc))
  obtain ⟨a, hserved, hshown⟩ := hcaught.shown actor (.inr hpc)
  have hbase : presenceBase s = none := by
    unfold presenceBase
    rw [hpc]
  unfold succeeds at hsucceeds
  simp only [hpc] at hsucceeds
  unfold State.refreshPresenceSnapshot
  rcases fetchPresence_cases actor s.server none observedAt lost with
    ⟨error, herror⟩ | ⟨p, rfl, hok, hread⟩
  · rw [herror] at hsucceeds
    cases hsucceeds
  · simp only [hok]
    rw [fetchPresence_snd]
    exact htogether.synced actor h.sound hserved hshown (.inl rfl) hread
      (keepsUp_presence actor hkeepsUp hserved hshown (by rw [hbase, hok])) answered

theorem Caught.inLoop (hcaught : Caught actor s) : s.pc.inLoop = true := by
  unfold Caught at hcaught
  rcases hpc : s.pc with _ | _ | _ | _ | _ | _ | _ <;> rw [hpc] at hcaught
  · cases hcaught
  · cases hcaught
  · cases hcaught
  all_goals rfl

/-- Where the server does not change, it does not matter to the client. -/
theorem Caught.unchanged (hcaught : Caught actor s) {change : ServerChange}
    (hsame : s.server.apply change = s.server) : Caught actor (s.change change) := by
  have hserver : (s.change change).server = s.server := hsame
  have hpc : (s.change change).pc = s.pc := rfl
  unfold Caught at hcaught ⊢
  rw [hpc, hserver]
  rcases hs : s.pc with _ | _ | _ | _ | _ | _ | _ <;> rw [hs] at hcaught
  · cases hcaught
  · cases hcaught
  · cases hcaught
  · obtain ⟨a, hserved, hshown, hpresence⟩ := hcaught
    refine ⟨a, by rw [hserver]; exact hserved, hshown, fun participant hparticipant => ?_⟩
    rw [hserver]
    exact hpresence participant hparticipant
  all_goals exact hcaught

/-- Every request of a round that succeeds leads to the next with what the client has come to. -/
theorem caught_step (a : Action) {s' : State} (h : Inv s) (hcaught : Caught actor s)
    (hkeepsUp : keepsUp actor s a = true) (hundisturbed : Undisturbed actor s a)
    (hstep : step actor s a = some s') : Caught actor s' := by
  rcases hundisturbed with hsucceeds | ⟨change, rfl, hsame⟩
  swap
  · obtain rfl := Option.some.inj hstep
    exact hcaught.unchanged actor hsame
  have hloop := hcaught.inLoop
  unfold step at hstep
  rcases a with change | authorization | authorization | ⟨lost, clock⟩ |
    ⟨lost, observedAt, asked, answered⟩ | _
  · cases hsucceeds
  · cases hsucceeds
  · rcases hpc : s.pc with _ | _ | _ | _ | _ | _ | _ <;> rw [hpc] at hstep <;> try cases hstep
    exact h.caughtMembership actor hpc authorization hkeepsUp hsucceeds
  · rcases hpc : s.pc with _ | _ | _ | _ | _ | _ | _ <;> rw [hpc] at hstep <;> try cases hstep
    · rw [hpc] at hloop
      cases hloop
    · exact h.caughtDirectory actor hpc hcaught lost clock hkeepsUp hsucceeds
  · rcases hpc : s.pc with _ | _ | _ | _ | _ | _ | _ <;> rw [hpc] at hstep <;> try cases hstep
    · rw [hpc] at hloop
      cases hloop
    · exact h.caughtPresence actor hpc hcaught lost observedAt asked answered hkeepsUp hsucceeds
    · exact h.caughtPresenceSnapshot actor hpc hcaught lost observedAt asked answered hkeepsUp
        hsucceeds
  · cases hsucceeds

/-- After a round whose requests all succeed, with nothing changed on the server meanwhile, the
model has the directory that is served and the server's presence. -/
theorem synced_after_round {as round : List Action} {authorization : Authorization} {s s' : State}
    (h : Runs (step actor) Free {} as s)
    (hround : Runs (step actor) (fun s a => keepsUp actor s a = true ∧ Undisturbed actor s a) s
      (.refresh authorization :: round) s') (hpc : s'.pc = .sleeping) : Synced actor s' := by
  have hs : Inv s := h.invariant (fun s a s' hI _ hstep => inv_step actor s a s' hI hstep)
    inv_initial
  rcases hround with _ | ⟨⟨hkeepsUp, hundisturbed⟩, hstep, hrest⟩
  rename_i s₁
  have hsucceeds : succeeds actor s (.refresh authorization) = true := by
    rcases hundisturbed with hsucceeds | ⟨change, hserver, -⟩
    · exact hsucceeds
    · cases hserver
  have hfirst : Inv s₁ ∧ Caught actor s₁ := by
    refine ⟨inv_step actor s _ s₁ hs hstep, ?_⟩
    unfold step at hstep
    rcases hs₀ : s.pc with _ | _ | _ | _ | _ | _ | _ <;> rw [hs₀] at hstep <;> try cases hstep
    exact hs.caughtMembership actor hs₀ authorization hkeepsUp hsucceeds
  have hlast := hrest.invariant (I := fun s => Inv s ∧ Caught actor s) (fun s a s' hI hG hstep =>
    ⟨inv_step actor s a s' hI.1 hstep, caught_step actor a hI.1 hI.2 hG.1 hG.2 hstep⟩) hfirst
  have hcaught := hlast.2
  unfold Caught at hcaught
  rwa [hpc] at hcaught

section Runs

open Sample

/-- `carol` is given a membership, and her client connects. -/
def connects : List Action :=
  [.server (.updateMembership carol withBob 0 correlation .membershipChanged),
    .connect .answered, .directory none 0, .presence none 0 0 0]

/-- The requests of a round behind the one for the membership. -/
def requestsAt (now : TimePoint) : List Action := [.directory none now, .presence none now now now]

/-- `bob` gets a name, which the client is told of before the server is restarted. -/
def restarts : List Action :=
  connects ++ .server (.upsertProfile ⟨bob, bytes "guest", 1⟩) :: .refresh .answered ::
    requestsAt (seconds 2) ++ [.server .restart]

/-- `bob` gets his name back with a later version, and a connection. -/
def returns : List Action :=
  restarts ++ [.server (.upsertProfile ⟨bob, bytes "guest", 7⟩),
    .server (.connections fun playerId => if playerId = bob then 1 else 0)]

theorem synced_after_round_returns : ∃ s s', Runs (step carol) Free {} returns s
    ∧ Runs (step carol) (fun s a => keepsUp carol s a = true ∧ Undisturbed carol s a) s
      (.refresh .answered :: requestsAt (seconds 4)) s'
    ∧ Synced carol s' := by
  obtain ⟨s, hs, hround⟩ := exists_run (step carol) returns (s := {})
    (p := fun s => (exec (restrict (fun s a => keepsUp carol s a && succeeds carol s a)
      (step carol)) s (.refresh .answered :: requestsAt (seconds 4))).any fun s' =>
        s'.pc = .sleeping) (by decide +kernel)
  obtain ⟨s', hs', hpc⟩ := exists_run_restrict _ _ _ hround
  have hguarded : Runs (step carol) (fun s a => keepsUp carol s a = true ∧ Undisturbed carol s a) s
      (.refresh .answered :: requestsAt (seconds 4)) s' := hs'.weaken fun _ _ h => by
    rw [Bool.and_eq_true] at h
    exact ⟨h.1, .inl h.2⟩
  exact ⟨s, s', hs, hguarded, synced_after_round carol hs hguarded (of_decide_eq_true hpc)⟩

theorem Synced.version {actor : PlayerId} {s : State} (h : Synced actor s) :
    s.model.directory.map DirectoryView.version
      = (s.server.served actor).map DirectorySnapshot.version := by
  obtain ⟨snapshot, hserved, hshown, -⟩ := h
  rw [hserved, hshown]
  rfl

/-- After the restart the directory is version 1 again, with `bob` under no name, and the model
keeps version 2. -/
theorem stale_after_restart : ∃ as round s s', Runs (step carol) Free {} as s
    ∧ Runs (step carol) (Undisturbed carol) s (.refresh .answered :: round) s'
    ∧ s'.pc = .sleeping ∧ ¬Synced carol s' := by
  obtain ⟨s, hs, hround⟩ := exists_run (step carol) restarts (s := {})
    (p := fun s => (exec (restrict (succeeds carol) (step carol)) s
      (.refresh .answered :: requestsAt (seconds 4))).any fun s' => s'.pc = .sleeping
        && (s'.model.directory.map DirectoryView.version
          ≠ (s'.server.served carol).map DirectorySnapshot.version)) (by decide +kernel)
  obtain ⟨s', hs', hend⟩ := exists_run_restrict _ _ _ hround
  rw [Bool.and_eq_true, decide_eq_true_eq, decide_eq_true_eq] at hend
  exact ⟨_, _, s, s', hs, hs'.weaken fun _ _ h => .inl h, hend.1, fun h => hend.2 h.version⟩

end Runs

end DirectorySync

end VoxTree

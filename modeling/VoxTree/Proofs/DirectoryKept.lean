import VoxTree.Proofs.DesktopModel
import VoxTree.Proofs.DirectoryServer

/-!
# What the server counts on from

A client has the views of what the service answered. The service counts on from a directory that
was read (`DirectoryKept`, `directory_read`), and what a model recorded of presence stays right as
of its version (`PresenceKept`): a snapshot leaves out nobody who is listed, a delta nobody who has
changed since its base.
-/

namespace VoxTree

namespace DirectorySync

open ChangeLog Client DirectoryApplicationService Presentation DesktopModel

/-! ## Views -/

theorem entityTag_injective : Function.Injective Network.entityTag := by
  intro v w h
  unfold Network.entityTag at h
  rw [List.append_assoc, List.append_assoc] at h
  have hdecimal := List.append_cancel_left h
  exact Encoding.decimal_injective (List.append_cancel_right hdecimal)

theorem nodeFields_view (node : DirectoryNode) :
    nodeFields node.view = VoxTree.nodeFields node := by
  obtain ⟨nodeId, nodeType, parentNodeId, displayName, sortIndex⟩ := node
  cases nodeType <;> rfl

theorem fields_view (a : DirectorySnapshot) : fields a.view = a.content.fields := by
  have hnodes : nodeFields ∘ DirectoryNode.view = VoxTree.nodeFields :=
    funext nodeFields_view
  unfold fields DirectoryContent.fields DirectorySnapshot.view DirectorySnapshot.content
  simp only [List.flatMap_map]
  rw [show (fun node : DirectoryNode => nodeFields node.view) = VoxTree.nodeFields from hnodes]
  rfl

theorem division_view (a : DirectorySnapshot) : division a.view = a.content.division := by
  unfold division DirectoryContent.division DirectorySnapshot.view DirectorySnapshot.content
  simp only [List.length_map, List.map_map, Function.comp_def, DirectoryParticipant.view]

theorem view_eq {a b : DirectorySnapshot} (hversion : a.version = b.version)
    (hgroup : a.groupId = b.groupId) (hcontent : a.SameContent b) : a.view = b.view := by
  have hroles : a.publicRoles.map PublicDirectoryRole.view
      = b.publicRoles.map PublicDirectoryRole.view := by
    have hmap := congrArg (List.map fun role : RoleId × Bytes =>
      (⟨role.1.value, role.2⟩ : PublicRoleView)) hcontent.publicRoles
    rw [List.map_map, List.map_map] at hmap
    exact hmap
  unfold DirectorySnapshot.view
  rw [hversion, hgroup, hcontent.nodes, hcontent.participants, hroles]

theorem participants_of_view {a b : DirectorySnapshot} (h : a.view = b.view) :
    a.participants.map DirectoryParticipant.playerId
      = b.participants.map DirectoryParticipant.playerId := by
  have hview := congrArg (fun v => v.participants.map DirectoryParticipantView.playerId) h
  simp only [DirectorySnapshot.view, List.map_map, Function.comp_def,
    DirectoryParticipant.view] at hview
  refine List.map_injective_iff.2 StrongId.value_injective ?_
  simpa only [List.map_map, Function.comp_def] using hview

/-! ## Directories and presence that were served -/

variable {d d' : DirectoryApplicationService} {a : DirectorySnapshot}

/-- The record of the directory's group is the directory's, or a later one. -/
structure DirectoryKept (d : DirectoryApplicationService) (a : DirectorySnapshot) : Prop where
  named : ∀ node ∈ a.nodes, NamedParent node
  record : ∃ versioned, d.directoryVersions[a.groupId]? = some versioned
    ∧ (a.version = versioned.version ∧ a.content.fingerprint = versioned.fingerprint
      ∨ a.version < versioned.version)

/-- The presence is right about the listed participants as of version `v`. -/
def PresenceKept (d : DirectoryApplicationService) (a : DirectorySnapshot) (v : ℕ)
    (serverPresence : ServerPresence) : Prop :=
  ∃ versioned history, d.presenceVersions[a.groupId]? = some versioned
    ∧ Recorded history versioned ∧ v ≤ versioned.version
    ∧ ∀ participant ∈ a.participants, ∀ state,
      (history v)[participant.playerId]? = some state →
        serverPresence[participant.playerId.value]? = some (decide (state = .online))

theorem DirectoryKept.continues (h : DirectoryKept d a) (hd : Continues d d') :
    DirectoryKept d' a := by
  obtain ⟨versioned, hrecord, hversion⟩ := h.record
  obtain ⟨new, hnew, hstep⟩ := hd.directory a.groupId versioned hrecord
  refine ⟨h.named, new, hnew, ?_⟩
  rcases hversion with ⟨hv, hf⟩ | hv <;> rcases hstep with ⟨hv', hf'⟩ | hv'
  · exact .inl ⟨hv.trans hv', hf.trans hf'⟩
  · exact .inr (hv ▸ hv')
  · exact .inr (hv' ▸ hv)
  · exact .inr (Nat.lt_trans hv hv')

theorem PresenceKept.continues {v : ℕ} {serverPresence : ServerPresence}
    (h : PresenceKept d a v serverPresence) (hd : Continues d d') :
    PresenceKept d' a v serverPresence := by
  obtain ⟨versioned, history, hrecord, hrecorded, hle, hlisted⟩ := h
  obtain ⟨new, history', hnew, hrecorded', hle', hkeep⟩ :=
    hd.presence a.groupId versioned history hrecord hrecorded
  refine ⟨new, history', hnew, hrecorded', Nat.le_trans hle hle', ?_⟩
  rw [hkeep v hle]
  exact hlisted

/-- A directory that is read is the record of its group from then on, and has a higher version
than any other content that was served of the group. -/
theorem directory_read (hsound : d.Sound) {memberships : Memberships} {actor : PlayerId}
    (h : d.directoryFor memberships actor = (.ok (.ok a), d')) :
    Continues d d' ∧ DirectoryKept d' a ∧ 1 ≤ a.version
      ∧ ∀ b, DirectoryKept d b → b.groupId = a.groupId →
        b.version = a.version ∧ b.content.fingerprint = a.content.fingerprint
          ∨ b.version < a.version := by
  have hanswer : (DirectoryOp.directoryFor memberships actor).directoryAnswer d = some a := by
    simp only [DirectoryOp.directoryAnswer, h]
  rcases directoryFor_cases d memberships actor with
    ⟨-, hnone, -⟩ | ⟨a', source, -, hsome, hnamed, hread⟩
  · cases hanswer.symm.trans hnone
  obtain rfl := Option.some.inj (hanswer.symm.trans hsome)
  rw [h] at hread
  refine ⟨continues_read hsound hread, ?_, versionFor_pos hsound hread, fun b hb hgroup => ?_⟩
  all_goals
    rcases versionFor_cases d a.groupId source a.content with
      ⟨-, hnone⟩ | ⟨-, version, d'', hversion, hrecord, hold⟩
    · cases hread.symm.trans hnone
    obtain ⟨hv, rfl⟩ := Prod.mk.inj (hread.symm.trans hversion)
    obtain rfl := Option.some.inj hv
  · exact ⟨hnamed, ⟨a.version, a.content.fingerprint⟩, by rw [hrecord, if_pos rfl],
      .inl ⟨rfl, rfl⟩⟩
  · obtain ⟨versioned, hb', hversion'⟩ := hb.record
    rw [hgroup] at hb'
    rcases hversion' with ⟨hv, hf⟩ | hv <;> rcases hold versioned hb' with ⟨hv', hf'⟩ | ⟨hv', -⟩
    · exact .inl ⟨hv.trans hv', hf.trans hf'⟩
    · exact .inr (hv ▸ hv')
    · exact .inr (hv' ▸ hv)
    · exact .inr (Nat.lt_trans hv hv')

/-! ## Recorded presence -/

theorem getElem?_recordPresence (m : DesktopModel) {p : PlayerId}
    (hp : m.participants.contains p.value = true) :
    ∀ (entries : List DirectoryPresenceEntry) (serverPresence : ServerPresence),
      (entries.map DirectoryPresenceEntry.playerId).Nodup →
      (m.recordPresence serverPresence (entries.map DirectoryPresenceEntry.view))[p.value]?
        = ((mapOf entries p).map fun state => decide (state = .online)).or serverPresence[p.value]?
  | [], serverPresence, _ => rfl
  | entry :: rest, serverPresence, h => by
    rw [List.map_cons, List.nodup_cons] at h
    have hstep : m.recordPresence serverPresence ((entry :: rest).map DirectoryPresenceEntry.view)
        = m.recordPresence (if m.participants.contains entry.playerId.value then
            serverPresence.insert entry.playerId.value (decide (entry.state = .online))
          else serverPresence) (rest.map DirectoryPresenceEntry.view) := rfl
    rw [hstep, getElem?_recordPresence m hp rest _ h.2]
    by_cases hentry : entry.playerId = p
    · have hrest : mapOf rest p = none := by
        unfold mapOf
        rw [Option.map_eq_none_iff]
        refine List.find?_eq_none.2 fun other hother => ?_
        simp only [decide_eq_true_eq]
        rintro rfl
        exact h.1 (hentry ▸ List.mem_map_of_mem hother)
      have hfirst : mapOf (entry :: rest) p = some entry.state := by simp [mapOf, hentry]
      rw [hrest, hfirst, hentry, if_pos hp]
      simp
    · have hne : entry.playerId.value ≠ p.value := fun heq => hentry (StrongId.ext heq)
      have hfirst : mapOf (entry :: rest) p = mapOf rest p := by simp [mapOf, hentry]
      rw [hfirst]
      congr 1
      split_ifs
      · rw [Std.ExtTreeMap.getElem?_insert,
          if_neg (by simpa only [Std.LawfulEqCmp.compare_eq_iff_eq] using hne)]
      · rfl

/-! ## Presence that is read -/

variable {memberships : Memberships} {connectedScopeCount : PlayerId → ℕ}
  {afterVersion : Option ℕ} {observedAt : TimePoint} {p : DirectoryPresenceSnapshot}

theorem presence_read {actor : PlayerId} (hread : d.presenceFor memberships connectedScopeCount
    actor afterVersion observedAt = (.ok (.ok p), d')) :
    ∃ context member current versioned,
      currentContextFor memberships actor = some (context, member)
        ∧ currentStates member.groupId connectedScopeCount ∅ context.snapshot.memberships
          = some current
        ∧ d'.presenceVersions[member.groupId]? = some versioned ∧ versioned.states = current
        ∧ versioned.answer afterVersion observedAt = .ok p := by
  obtain ⟨context, member, current, versioned, hcontext, hstates, hobserve, hanswer, rfl⟩ :=
    presenceFor_ok hread
  refine ⟨context, member, current, versioned, hcontext, hstates, ?_, observe_states hobserve,
    hanswer⟩
  simp

theorem answer_ok {versioned : VersionedPresence}
    (h : versioned.answer afterVersion observedAt = .ok p) :
    p.version = versioned.version
      ∧ (afterVersion = none ∧ p.mode = .snapshot ∨ afterVersion ≠ none ∧ p.mode = .delta) := by
  unfold VersionedPresence.answer at h
  rcases afterVersion with _ | after
  · obtain rfl := Except.ok.inj h
    exact ⟨rfl, .inl ⟨rfl, rfl⟩⟩
  · simp only at h
    split_ifs at h
    obtain rfl := Except.ok.inj h
    exact ⟨rfl, .inr ⟨by simp, rfl⟩⟩

theorem snapshot_entries {versioned : VersionedPresence}
    (hanswer : versioned.answer none observedAt = .ok p) :
    (p.entries.map DirectoryPresenceEntry.playerId).Nodup
      ∧ ∀ q : PlayerId, mapOf p.entries q = versioned.states[q]? := by
  obtain rfl := Except.ok.inj hanswer
  exact ⟨nodup_entriesOf _, fun q => congrFun (mapOf_entriesOf versioned.states) q⟩

/-- A delta has the last state of everybody who has one, unless it is the state of the base. -/
theorem delta_entries {versioned : VersionedPresence} {history : ℕ → PresenceStates} {v : ℕ}
    (hrecorded : Recorded history versioned)
    (hanswer : versioned.answer (some v) observedAt = .ok p) :
    (p.entries.map DirectoryPresenceEntry.playerId).Nodup
      ∧ ∀ (q : PlayerId) state, versioned.states[q]? = some state →
        mapOf p.entries q = some state
          ∨ mapOf p.entries q = none ∧ (history v)[q]? = some state := by
  unfold VersionedPresence.answer at hanswer
  simp only at hanswer
  split_ifs at hanswer with hrequired
  obtain rfl := Except.ok.inj hanswer
  have hretained : versioned.snapshotRequired v = false := by simpa using hrequired
  have hle : v ≤ versioned.version := (hrecorded.retained hretained).1
  refine ⟨nodup_entriesOf _, fun q state hstate => ?_⟩
  have hmaps : maps history versioned.version q = some state := by
    unfold maps
    rw [hrecorded.current, hstate]
  have hsome : (maps history versioned.version q).isSome = true := by
    rw [hmaps]
    rfl
  have hspec := latest_spec (maps history) v hsome (versioned.version - v)
  rw [Nat.add_sub_of_le hle] at hspec
  dsimp only
  rw [mapOf_entriesOf]
  dsimp only
  rw [hrecorded.latestChanges hretained]
  rcases hsent : latest (maps history) (maps history versioned.version) v
      (versioned.version - v) q with _ | y
  · rcases (hspec state).2 hsent with hsame | hgone
    · exact .inr ⟨rfl, hsame.symm.trans hmaps⟩
    · cases hmaps.symm.trans hgone
  · rcases (hspec y).1 hsent with hsame | hgone
    · exact .inl (hsame.symm.trans hmaps)
    · cases hmaps.symm.trans hgone

/-- A snapshot leaves out nobody who is listed. -/
theorem presenceKept_snapshot {m : DesktopModel} {versioned : VersionedPresence}
    (hsound : d.Sound) (hrecord : d.presenceVersions[a.groupId]? = some versioned)
    (hlists : m.Lists a.view) (hanswer : versioned.answer none observedAt = .ok p) :
    PresenceKept d a p.version (m.recordPresence ∅ p.view.entries) := by
  obtain ⟨history, hrecorded⟩ := hsound.presence _ _ hrecord
  obtain ⟨hversion, -⟩ := answer_ok hanswer
  obtain ⟨hnodup, hentries⟩ := snapshot_entries hanswer
  refine ⟨versioned, history, hrecord, hrecorded, by omega,
    fun participant hparticipant state hstate => ?_⟩
  rw [hversion, hrecorded.current] at hstate
  have hrow := hlists participant.view (List.mem_map_of_mem hparticipant)
  refine (getElem?_recordPresence m hrow p.entries ∅ hnodup).trans ?_
  rw [hentries, hstate]
  rfl

/-- A delta that is recorded over the presence of its base is right about everybody listed. -/
theorem presenceKept_delta {m : DesktopModel} {versioned : VersionedPresence} {v : ℕ}
    {serverPresence : ServerPresence} (hkept : PresenceKept d a v serverPresence)
    (hrecord : d.presenceVersions[a.groupId]? = some versioned) (hlists : m.Lists a.view)
    (hanswer : versioned.answer (some v) observedAt = .ok p) :
    PresenceKept d a p.version (m.recordPresence serverPresence p.view.entries) := by
  obtain ⟨versioned', history, hrecord', hrecorded, -, hlisted⟩ := hkept
  obtain rfl := Option.some.inj (hrecord.symm.trans hrecord')
  obtain ⟨hversion, -⟩ := answer_ok hanswer
  obtain ⟨hnodup, hentries⟩ := delta_entries hrecorded hanswer
  refine ⟨versioned, history, hrecord, hrecorded, by omega,
    fun participant hparticipant state hstate => ?_⟩
  rw [hversion, hrecorded.current] at hstate
  have hrow := hlists participant.view (List.mem_map_of_mem hparticipant)
  refine (getElem?_recordPresence m hrow p.entries serverPresence hnodup).trans ?_
  rcases hentries participant.playerId state hstate with hsent | ⟨hsent, hbase⟩
  · rw [hsent]
    rfl
  · rw [hsent, Option.map_none, Option.none_or]
    exact hlisted participant hparticipant state hbase

/-- A snapshot that is recorded, or any answer over what is right already, is right about everybody
who has a state. -/
theorem recorded_right {m : DesktopModel} {versioned : VersionedPresence}
    {history : ℕ → PresenceStates} {serverPresence : ServerPresence}
    (hrecorded : Recorded history versioned)
    (hanswer : versioned.answer afterVersion observedAt = .ok p) {q : PlayerId}
    (hrow : m.participants.contains q.value = true) {state : DirectoryPresenceState}
    (hstate : versioned.states[q]? = some state)
    (hright : p.mode = .snapshot
      ∨ serverPresence[q.value]? = some (decide (state = .online))) :
    (m.recordPresence (if p.mode = .snapshot then ∅ else serverPresence) p.view.entries)[q.value]?
      = some (decide (state = .online)) := by
  obtain ⟨-, hmode⟩ := answer_ok hanswer
  rcases hmode with ⟨rfl, hsnapshot⟩ | ⟨hne, hdelta⟩
  · obtain ⟨hnodup, hentries⟩ := snapshot_entries hanswer
    refine (getElem?_recordPresence m hrow p.entries _ hnodup).trans ?_
    rw [hentries, hstate]
    rfl
  · obtain ⟨v, rfl⟩ := Option.ne_none_iff_exists'.1 hne
    obtain ⟨hnodup, hentries⟩ := delta_entries hrecorded hanswer
    refine (getElem?_recordPresence m hrow p.entries _ hnodup).trans ?_
    rcases hentries q state hstate with hsent | ⟨hsent, -⟩
    · rw [hsent]
      rfl
    · rw [hsent, Option.map_none, Option.none_or, hdelta, if_neg (by simp)]
      rcases hright with hsnapshot | hright
      · cases hdelta.symm.trans hsnapshot
      · exact hright

end DirectorySync

end VoxTree

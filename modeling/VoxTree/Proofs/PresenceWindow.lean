import VoxTree.Proofs.Presence
import VoxTree.Proofs.VoiceGrants

/-!
# The window of delta bases

A record keeps the revisions of its last versions, at most 128 of them (`Windowed`), and answers a
delta exactly over the versions from which they lead to its own. So the base of a delta is at most
128 versions old, and a read of an active group that is not too large needs a snapshot otherwise.
-/

namespace VoxTree

open DirectoryApplicationService

/-- The number of revisions behind a version. -/
def retainedRevisions (version : ℕ) : ℕ := min maximumPresenceRevisions (version - 1)

/-- The revisions of a record are those of its last versions. -/
structure Windowed (versioned : VersionedPresence) : Prop where
  initialized : versioned.initialized = true
  positive : 1 ≤ versioned.version
  versions : versioned.revisions.map PresenceRevision.version
    = List.range' (versioned.version + 1 - retainedRevisions versioned.version)
        (retainedRevisions versioned.version)

/-- What a delta over `v` is answered by the record that the read leaves. -/
structure AnsweredWithin (v : ℕ) (versioned : VersionedPresence)
    (answer : Except DirectoryPresenceReadError DirectoryPresenceSnapshot) : Prop where
  /-- It succeeds over the last versions and otherwise asks for a snapshot. -/
  within : (∃ snapshot, answer = .ok snapshot)
    ↔ 1 ≤ v ∧ v ≤ versioned.version ∧ versioned.version - v ≤ maximumPresenceRevisions
  outside : ¬(1 ≤ v ∧ v ≤ versioned.version ∧ versioned.version - v ≤ maximumPresenceRevisions) →
    answer = .error .snapshotRequired
  /-- Each player is listed once, in the order of the identifiers. -/
  ordered : ∀ snapshot, answer = .ok snapshot → snapshot.version = versioned.version
    ∧ snapshot.mode = .delta
    ∧ snapshot.entries.Pairwise fun a b => compare a.playerId b.playerId = .lt

/-- What is asked of a state of the service: of its records, and of the next read of a delta. -/
structure PresenceWindow (s : DirectoryApplicationService) : Prop where
  /-- The versions of the revisions are contiguous, end at the current one and are at most 128. -/
  retained : ∀ (g : GroupId) (versioned : VersionedPresence),
    s.presenceVersions[g]? = some versioned → ∃ n ≤ maximumPresenceRevisions,
      n < versioned.version ∧ versioned.revisions.map PresenceRevision.version
        = List.range' (versioned.version + 1 - n) n
  /-- The predecessor of the first retained version is a version. -/
  predecessor : ∀ (g : GroupId) (versioned : VersionedPresence),
    s.presenceVersions[g]? = some versioned → ∀ first : PresenceRevision,
      versioned.revisions.head? = some first → 1 ≤ first.version - 1
  /-- Unless the versions are exhausted, a member of an active group that is not too large gets
  the delta or is told to read a snapshot. -/
  answered : ∀ (memberships : Memberships) (connectedScopeCount : PlayerId → ℕ)
    (actor : PlayerId) (v : ℕ) (observedAt : TimePoint) (context : AuthoritativeMembershipContext)
    (membership : VoiceMembership),
    currentContextFor memberships actor = some (context, membership) →
    (context.snapshot.memberships.filter fun m => m.groupId = membership.groupId).length
      ≤ maximumDirectoryParticipants →
    (∃ old, s.presenceVersions[membership.groupId]? = some old
      ∧ UInt64.size ≤ old.version + 1
      ∧ currentStates membership.groupId connectedScopeCount ∅ context.snapshot.memberships
        ≠ some old.states
      ∧ s.presenceFor memberships connectedScopeCount actor (some v) observedAt
        = (.error .other, s))
    ∨ ∃ versioned answer,
      (s.presenceFor memberships connectedScopeCount actor (some v) observedAt).2.presenceVersions[
        membership.groupId]? = some versioned
      ∧ (s.presenceFor memberships connectedScopeCount actor (some v) observedAt).1 = .ok answer
      ∧ AnsweredWithin v versioned answer

/-! ## Records -/

theorem retainedRevisions_le (version : ℕ) :
    retainedRevisions version ≤ maximumPresenceRevisions := Nat.min_le_left _ _

theorem retainedRevisions_lt {version : ℕ} (h : 1 ≤ version) :
    retainedRevisions version < version := by
  unfold retainedRevisions
  omega

/-- Another version either adds a revision or also drops the oldest. -/
theorem retainedRevisions_succ {version : ℕ} (h : 1 ≤ version) :
    retainedRevisions version < maximumPresenceRevisions
        ∧ retainedRevisions (version + 1) = retainedRevisions version + 1
      ∨ retainedRevisions version = maximumPresenceRevisions
        ∧ retainedRevisions (version + 1) = maximumPresenceRevisions := by
  unfold retainedRevisions maximumPresenceRevisions
  omega

section Windowed

variable {versioned : VersionedPresence}

theorem windowed_first {current : PresenceStates} {versioned' : VersionedPresence}
    (h : ({} : VersionedPresence).observe current = some versioned') : Windowed versioned' := by
  obtain rfl := Option.some.inj h
  exact ⟨rfl, Nat.le_refl 1, rfl⟩

/-- An observation keeps the window. -/
theorem Windowed.observe (h : Windowed versioned) {current : PresenceStates}
    {versioned' : VersionedPresence} (hobserve : versioned.observe current = some versioned') :
    Windowed versioned' := by
  unfold VersionedPresence.observe at hobserve
  simp only [h.initialized, Bool.not_true, Bool.false_eq_true, if_false] at hobserve
  by_cases hchanged : versioned.states ≠ current
  · rw [if_pos hchanged] at hobserve
    by_cases hexhausted : UInt64.size ≤ versioned.version + 1
    · rw [if_pos hexhausted] at hobserve
      cases hobserve
    rw [if_neg hexhausted] at hobserve
    obtain rfl := Option.some.inj hobserve
    have hpositive := h.positive
    have hlength : versioned.revisions.length = retainedRevisions versioned.version := by
      rw [← List.length_map, h.versions, List.length_range']
    refine ⟨rfl, Nat.le_succ_of_le hpositive, ?_⟩
    simp only [List.length_append, List.length_singleton, hlength]
    have hpushed : (versioned.revisions ++ [(⟨versioned.version + 1,
        changedEntries versioned.states current⟩ : PresenceRevision)]).map PresenceRevision.version
        = List.range' (versioned.version + 1 - retainedRevisions versioned.version)
            (retainedRevisions versioned.version + 1) := by
      have hlt := retainedRevisions_lt hpositive
      rw [List.map_append, h.versions, List.map_singleton, List.range'_1_concat]
      congr 2
      show versioned.version + 1 = _
      omega
    rcases retainedRevisions_succ hpositive with ⟨hroom, hnext⟩ | ⟨hfull, hnext⟩
    · rw [if_neg (by omega), hpushed, hnext]
      congr 1
      omega
    · -- the oldest of 129 revisions goes
      have hlt := retainedRevisions_lt hpositive
      have hfirst : versioned.version + 1 - retainedRevisions versioned.version + 1
          = versioned.version + 1 + 1 - maximumPresenceRevisions := by omega
      rw [if_pos (by omega), List.map_tail, hpushed, List.range'_succ, List.tail_cons, hnext, hfirst,
        hfull]
  · rw [if_neg hchanged] at hobserve
    obtain rfl := Option.some.inj hobserve
    exact h

theorem Windowed.observe_eq_none (h : Windowed versioned) {current : PresenceStates}
    (hobserve : versioned.observe current = none) :
    UInt64.size ≤ versioned.version + 1 ∧ versioned.states ≠ current := by
  unfold VersionedPresence.observe at hobserve
  simp only [h.initialized, Bool.not_true, Bool.false_eq_true, if_false] at hobserve
  split_ifs at hobserve with hchanged hexhausted
  exact ⟨hexhausted, hchanged⟩

theorem Windowed.head_version (h : Windowed versioned) {first : PresenceRevision}
    (hfirst : versioned.revisions.head? = some first) :
    first.version = versioned.version + 1 - retainedRevisions versioned.version := by
  have hversions := h.versions
  rcases hrevisions : versioned.revisions with _ | ⟨head, rest⟩
  · simp [hrevisions] at hfirst
  obtain rfl : head = first := by simpa [hrevisions] using hfirst
  rw [hrevisions] at hversions
  rcases hn : retainedRevisions versioned.version with _ | n
  · simp [hn] at hversions
  · rw [hn, List.range'_succ, List.map_cons] at hversions
    exact (List.cons.inj hversions).1

theorem Windowed.head_none (h : Windowed versioned) (hfirst : versioned.revisions.head? = none) :
    versioned.version = 1 := by
  have hversions := h.versions
  rw [List.head?_eq_none_iff] at hfirst
  rw [hfirst, List.map_nil, eq_comm, List.range'_eq_nil_iff] at hversions
  have hpositive := h.positive
  unfold retainedRevisions maximumPresenceRevisions at hversions
  omega

/-- The window of delta bases. -/
theorem Windowed.snapshotRequired_iff (h : Windowed versioned) (v : ℕ) :
    versioned.snapshotRequired v = false
      ↔ 1 ≤ v ∧ v ≤ versioned.version ∧ versioned.version - v ≤ maximumPresenceRevisions := by
  have hpositive := h.positive
  unfold VersionedPresence.snapshotRequired
  simp only [Bool.or_eq_false_iff, decide_eq_false_iff_not, Nat.not_lt]
  rcases hhead : versioned.revisions.head? with _ | first
  · -- the first version has no revisions yet
    have hone := h.head_none hhead
    simp only [Option.any_none, and_true]
    unfold maximumPresenceRevisions
    omega
  · have hversion := h.head_version hhead
    simp only [Option.any_some, decide_eq_false_iff_not, hversion]
    unfold retainedRevisions maximumPresenceRevisions
    omega

end Windowed

/-! ## Answers -/

theorem ordered_entriesOf (states : PresenceStates) :
    (entriesOf states).Pairwise fun a b => compare a.playerId b.playerId = .lt :=
  List.pairwise_map.2 states.ordered_keys_toList

theorem Windowed.answer (h : Windowed versioned) (v : ℕ) (observedAt : TimePoint) :
    AnsweredWithin v versioned (versioned.answer (some v) observedAt) := by
  have hiff := h.snapshotRequired_iff v
  unfold VersionedPresence.answer
  rcases hrequired : versioned.snapshotRequired v with _ | _
  · have hwithin := hiff.1 hrequired
    simp only [hrequired, Bool.false_eq_true, if_false]
    refine ⟨⟨fun _ => hwithin, fun _ => ⟨_, rfl⟩⟩, fun hnot => absurd hwithin hnot, ?_⟩
    intro snapshot hsnapshot
    obtain rfl := Except.ok.inj hsnapshot
    exact ⟨rfl, rfl, ordered_entriesOf _⟩
  · have hnot : ¬(1 ≤ v ∧ v ≤ versioned.version
        ∧ versioned.version - v ≤ maximumPresenceRevisions) := by
      rw [← hiff, hrequired]
      simp
    simp only [hrequired, if_true]
    refine ⟨⟨?_, fun hwithin => absurd hwithin hnot⟩, fun _ => rfl, ?_⟩
    · rintro ⟨snapshot, hsnapshot⟩
      cases hsnapshot
    · intro snapshot hsnapshot
      cases hsnapshot

/-- A group that is not too large is read to the end. -/
theorem currentStates_isSome {g : GroupId} {connectedScopeCount : PlayerId → ℕ} :
    ∀ {memberships : List VoiceMembership} {states : PresenceStates},
      states.size + (memberships.filter fun m => m.groupId = g).length
          ≤ maximumDirectoryParticipants →
        ∃ current, currentStates g connectedScopeCount states memberships = some current
  | [], states, _ => ⟨states, rfl⟩
  | m :: rest, states, h => by
    unfold currentStates
    by_cases hg : m.groupId = g
    · rw [List.filter_cons_of_pos (by simpa using hg), List.length_cons] at h
      rw [if_neg (not_not.2 hg), if_neg (by omega)]
      refine currentStates_isSome ?_
      have hsize : (states.insertIfNew m.playerId
          (if connectedScopeCount m.playerId = 0 then DirectoryPresenceState.offline
            else .online)).size ≤ states.size + 1 := Std.ExtTreeMap.size_insertIfNew_le
      omega
    · rw [List.filter_cons_of_neg (by simpa using hg)] at h
      rw [if_pos hg]
      exact currentStates_isSome h

/-! ## Runs -/

/-- Every record of the service is windowed. -/
def RecordsWindowed (s : DirectoryApplicationService) : Prop :=
  ∀ (g : GroupId) (versioned : VersionedPresence), s.presenceVersions[g]? = some versioned →
    Windowed versioned

section Runs

variable {s : DirectoryApplicationService}

theorem recordsWindowed_initial : RecordsWindowed {} := by
  intro g versioned h
  simp at h

theorem RecordsWindowed.same (h : RecordsWindowed s) {s' : DirectoryApplicationService}
    (hsame : s'.presenceVersions = s.presenceVersions) : RecordsWindowed s' := by
  unfold RecordsWindowed
  rw [hsame]
  exact h

/-- What a read observes is windowed again. -/
theorem RecordsWindowed.observed (h : RecordsWindowed s) {g : GroupId} {current : PresenceStates}
    {versioned : VersionedPresence}
    (hobserve : ((s.presenceVersions[g]?).getD {}).observe current = some versioned) :
    Windowed versioned := by
  rcases hold : s.presenceVersions[g]? with _ | old
  · rw [hold] at hobserve
    exact windowed_first hobserve
  · rw [hold] at hobserve
    exact (h g old hold).observe hobserve

theorem RecordsWindowed.insert (h : RecordsWindowed s) (g : GroupId)
    {versioned : VersionedPresence} (hversioned : Windowed versioned) :
    RecordsWindowed { s with presenceVersions := s.presenceVersions.insert g versioned } := by
  intro g' versioned' hget
  simp only [Std.ExtTreeMap.getElem?_insert] at hget
  split_ifs at hget
  · obtain rfl := Option.some.inj hget
    exact hversioned
  · exact h g' versioned' hget

theorem RecordsWindowed.step (h : RecordsWindowed s) (op : DirectoryOp) :
    RecordsWindowed (op.call s) := by
  cases op with
  | upsertProfile profile => exact h.same (upsertProfile_presenceVersions s profile)
  | replacePublicRoles catalogVersion roles =>
    exact h.same (replacePublicRoles_presenceVersions s catalogVersion roles)
  | directoryFor memberships actor =>
    exact h.same (directoryFor_presenceVersions s memberships actor)
  | presenceFor memberships connectedScopeCount actor afterVersion observedAt =>
    rcases presenceFor_cases s memberships connectedScopeCount actor afterVersion observedAt with
      ⟨hcall, -⟩ | ⟨g, current, versioned, hobserve, hcall, -⟩
    · rw [hcall]
      exact h
    · rw [hcall]
      exact h.insert g (h.observed hobserve)

theorem RecordsWindowed.run : ∀ (ops : List DirectoryOp) {s : DirectoryApplicationService},
    RecordsWindowed s → RecordsWindowed (ops.foldl (fun s op => op.call s) s)
  | [], _, h => h
  | op :: ops, _, h => RecordsWindowed.run ops (h.step op)

/-- The next read of a delta. -/
theorem RecordsWindowed.presenceWindow (h : RecordsWindowed s) : PresenceWindow s where
  retained := by
    intro g versioned hget
    have hwindowed := h g versioned hget
    exact ⟨_, retainedRevisions_le _, retainedRevisions_lt hwindowed.positive, hwindowed.versions⟩
  predecessor := by
    intro g versioned hget first hfirst
    have hwindowed := h g versioned hget
    rw [hwindowed.head_version hfirst]
    have hlt := retainedRevisions_lt hwindowed.positive
    omega
  answered := by
    intro memberships connectedScopeCount actor v observedAt context membership hcontext hcount
    obtain ⟨current, hcurrent⟩ : ∃ current, currentStates membership.groupId connectedScopeCount ∅
        context.snapshot.memberships = some current := currentStates_isSome (by simpa using hcount)
    unfold presenceFor
    simp only [hcontext, hcurrent]
    rcases hobserve : ((s.presenceVersions[membership.groupId]?).getD {}).observe current with
      _ | versioned
    · left
      rcases hold : s.presenceVersions[membership.groupId]? with _ | old
      · rw [hold] at hobserve
        cases hobserve
      · rw [hold] at hobserve
        obtain ⟨hexhausted, hchanged⟩ := (h _ old hold).observe_eq_none hobserve
        exact ⟨old, rfl, hexhausted, fun heq => hchanged (Option.some.inj heq).symm, rfl⟩
    · right
      refine ⟨versioned, _, ?_, rfl, (h.observed hobserve).answer v observedAt⟩
      simp

end Runs

/-- In every run of the service the delta bases are the last versions. -/
theorem presence_window (ops : List DirectoryOp) :
    PresenceWindow (ops.foldl (fun s op => op.call s) {}) :=
  (recordsWindowed_initial.run ops).presenceWindow

/-! ## Inactive groups -/

/-- The answers as they would be for every member. -/
def EveryMemberAnswered (s : DirectoryApplicationService) : Prop :=
  ∀ (memberships : Memberships) (connectedScopeCount : PlayerId → ℕ) (actor : PlayerId) (v : ℕ)
    (observedAt : TimePoint) (context : AuthoritativeMembershipContext)
    (membership : VoiceMembership),
    memberships actor = some context → context.snapshot.find actor = some membership →
    (context.snapshot.memberships.filter fun m => m.groupId = membership.groupId).length
      ≤ maximumDirectoryParticipants →
    ∃ versioned answer,
      (s.presenceFor memberships connectedScopeCount actor (some v) observedAt).2.presenceVersions[
        membership.groupId]? = some versioned
      ∧ (s.presenceFor memberships connectedScopeCount actor (some v) observedAt).1 = .ok answer
      ∧ AnsweredWithin v versioned answer

namespace Sample

/-- `alice` reads while her group is active. -/
def activeRead : DirectoryOp :=
  .presenceFor (fun _ => some (context 1 Nat.one_pos)) (fun _ => 0) alice none 0

end Sample

open Sample in
/-- Once her group is inactive, a member is told so over the version she has. -/
theorem presence_window_inactive :
    ¬EveryMemberAnswered ([activeRead].foldl (fun s op => op.call s) {}) := by
  intro h
  have hcount : (inactiveContext.snapshot.memberships.filter fun m =>
      m.groupId = (member alice).groupId).length ≤ maximumDirectoryParticipants := by decide
  obtain ⟨versioned, answer, -, hanswer, hwithin⟩ := h (fun _ => some inactiveContext) (fun _ => 0)
    alice 1 0 inactiveContext (member alice) rfl rfl hcount
  have hunavailable : (presenceFor ([activeRead].foldl (fun s op => op.call s) {})
      (fun _ => some inactiveContext) (fun _ => 0) alice (some 1) 0).1
        = .ok (.error .directoryUnavailable) := by rfl
  obtain rfl := Except.ok.inj (hunavailable.symm.trans hanswer)
  have hnot : ¬(1 ≤ 1 ∧ 1 ≤ versioned.version
      ∧ versioned.version - 1 ≤ maximumPresenceRevisions) := by
    intro hin
    obtain ⟨snapshot, hsnapshot⟩ := hwithin.within.2 hin
    cases hsnapshot
  cases hwithin.outside hnot

end VoxTree

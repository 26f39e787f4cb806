import VoxTree.Directory
import VoxTree.Lib.ChangeLog
import VoxTree.Lib.TreeMap
import Mathlib.Data.List.Nodup

/-!
# Presence deltas are complete

The record of a group keeps the differences between the maps of consecutive versions (`Recorded`).
Whoever holds the map of a version and writes a delta over it has the map of the delta's version on
all of its members (`presence_complete`).
-/

namespace VoxTree

open ChangeLog

/-! ## What is asked of a run -/

/-- What a list of entries says of each player. -/
def mapOf (entries : List DirectoryPresenceEntry) : PlayerId → Option DirectoryPresenceState :=
  fun p => (entries.find? fun entry => entry.playerId = p).map DirectoryPresenceEntry.state

/-- The state that is read of the transport. -/
def DirectoryApplicationService.transportState (connectedScopeCount : PlayerId → ℕ)
    (p : PlayerId) : DirectoryPresenceState :=
  if connectedScopeCount p = 0 then .offline else .online

/-- Who is in the group, each with the state that is read of the transport. -/
def presenceOf (memberships : List VoiceMembership) (g : GroupId)
    (connectedScopeCount : PlayerId → ℕ) : PlayerId → Option DirectoryPresenceState :=
  fun p =>
    if ∃ m ∈ memberships, m.groupId = g ∧ m.playerId = p then
      some (DirectoryApplicationService.transportState connectedScopeCount p)
    else none

/-- A presence read that succeeded, with what the same read answers without a delta base, and who
is present in the group by the membership context and the connections of the read. -/
structure PresenceAnswer where
  groupId : GroupId
  afterVersion : Option ℕ
  snapshot : DirectoryPresenceSnapshot
  whole : Except ServiceException (Except DirectoryPresenceReadError DirectoryPresenceSnapshot)
  present : PlayerId → Option DirectoryPresenceState

def DirectoryOp.presenceAnswer (s : DirectoryApplicationService) :
    DirectoryOp → Option PresenceAnswer
  | .presenceFor memberships connectedScopeCount actor afterVersion observedAt =>
    match DirectoryApplicationService.currentContextFor memberships actor,
      (s.presenceFor memberships connectedScopeCount actor afterVersion observedAt).1 with
    | some (context, membership), .ok (.ok snapshot) =>
      some ⟨membership.groupId, afterVersion, snapshot,
        (s.presenceFor memberships connectedScopeCount actor none observedAt).1,
        presenceOf context.snapshot.memberships membership.groupId connectedScopeCount⟩
    | _, _ => none
  | _ => none

/-- The successful presence reads of a run, in order. -/
def presenceLog (s : DirectoryApplicationService) : List DirectoryOp → List PresenceAnswer
  | [] => []
  | op :: ops => (op.presenceAnswer s).toList ++ presenceLog (op.call s) ops

/-- What somebody holds as of a version: what a snapshot listed, or what he held as of the base of
a delta with the delta written over it, whether or not he then drops who is no longer listed. -/
inductive Holds (log : List PresenceAnswer) (g : GroupId) :
    ℕ → (PlayerId → Option DirectoryPresenceState) → Prop
  | snapshot (a : PresenceAnswer) : a ∈ log → a.groupId = g → a.afterVersion = none →
      Holds log g a.snapshot.version (mapOf a.snapshot.entries)
  | delta {v : ℕ} {held : PlayerId → Option DirectoryPresenceState} (a : PresenceAnswer) :
      Holds log g v held → a ∈ log → a.groupId = g → a.afterVersion = some v →
      Holds log g a.snapshot.version (overwrite held (mapOf a.snapshot.entries))
  | drop {v : ℕ} {held : PlayerId → Option DirectoryPresenceState} (a : PresenceAnswer) :
      Holds log g v held → a ∈ log → a.groupId = g → a.snapshot.version = v →
      Holds log g v (restrict held a.present)

structure PresenceComplete (log : List PresenceAnswer) (g : GroupId) : Prop where
  /-- Where a read succeeds it also does without a delta base, with the same version, and then lists
  the members of the group with the states of their connections. -/
  whole : ∀ a ∈ log, a.groupId = g → ∃ full, a.whole = .ok (.ok full)
    ∧ full.version = a.snapshot.version ∧ mapOf full.entries = a.present
    ∧ (a.afterVersion = none → a.snapshot.entries = full.entries)
  delta : ∀ v held a, Holds log g v held → a ∈ log → a.groupId = g → a.afterVersion = some v →
    restrict (overwrite held (mapOf a.snapshot.entries)) a.present = a.present
      ∧ ∀ entry ∈ a.snapshot.entries, (a.present entry.playerId).isSome = true
  same : ∀ a ∈ log, ∀ b ∈ log, a.groupId = g → b.groupId = g →
    a.snapshot.version = b.snapshot.version → a.present = b.present
  monotone : (log.filter fun a => a.groupId = g).Pairwise fun a b =>
    a.snapshot.version ≤ b.snapshot.version

/-! ## Entries -/

open DirectoryApplicationService

theorem mapOf_eq_some {entries : List DirectoryPresenceEntry}
    (h : (entries.map DirectoryPresenceEntry.playerId).Nodup) {p : PlayerId}
    {state : DirectoryPresenceState} :
    mapOf entries p = some state ↔ (⟨p, state⟩ : DirectoryPresenceEntry) ∈ entries := by
  unfold mapOf
  rw [Option.map_eq_some_iff]
  constructor
  · rintro ⟨entry, hfind, rfl⟩
    have hp : entry.playerId = p := by simpa using List.find?_some hfind
    subst hp
    exact List.mem_of_find?_eq_some hfind
  · intro hmem
    rcases hfind : entries.find? fun entry => entry.playerId = p with _ | entry
    · have := List.find?_eq_none.1 hfind _ hmem
      simp at this
    · have hp : entry.playerId = p := by simpa using List.find?_some hfind
      have heq : entry = ⟨p, state⟩ :=
        List.inj_on_of_nodup_map h (List.mem_of_find?_eq_some hfind) hmem hp
      exact ⟨entry, hfind, by rw [heq]⟩

theorem mem_entriesOf {states : PresenceStates} {entry : DirectoryPresenceEntry} :
    entry ∈ entriesOf states ↔ states[entry.playerId]? = some entry.state := by
  unfold entriesOf
  simp only [List.mem_map, Prod.exists, Std.ExtTreeMap.mem_toList_iff_getElem?_eq_some]
  constructor
  · rintro ⟨p, state, h, rfl⟩
    exact h
  · intro h
    exact ⟨entry.playerId, entry.state, h, rfl⟩

theorem nodup_entriesOf (states : PresenceStates) :
    ((entriesOf states).map DirectoryPresenceEntry.playerId).Nodup := by
  have hmap : (entriesOf states).map DirectoryPresenceEntry.playerId
      = states.toList.map Prod.fst := by
    unfold entriesOf
    rw [List.map_map]
    rfl
  rw [hmap]
  exact TreeMap.nodup_map_fst_toList states

theorem mapOf_entriesOf (states : PresenceStates) :
    mapOf (entriesOf states) = fun p => states[p]? := by
  funext p
  refine Option.ext fun state => ?_
  rw [mapOf_eq_some (nodup_entriesOf states), mem_entriesOf]

theorem nodup_changedEntries (previous current : PresenceStates) :
    ((changedEntries previous current).map DirectoryPresenceEntry.playerId).Nodup :=
  (nodup_entriesOf current).sublist (List.filter_sublist.map _)

theorem mapOf_changedEntries (previous current : PresenceStates) :
    mapOf (changedEntries previous current)
      = changed (fun p => previous[p]?) (fun p => current[p]?) := by
  funext p
  refine Option.ext fun state => ?_
  rw [mapOf_eq_some (nodup_changedEntries previous current)]
  simp only [changedEntries, List.mem_filter, mem_entriesOf, decide_eq_true_eq, changed]
  split_ifs with hsame
  · rw [hsame]
    simp
  · constructor
    · exact And.left
    · intro hcurrent
      exact ⟨hcurrent, fun hprevious => hsame (hprevious.trans hcurrent.symm)⟩

/-- Writing entries, each of another player, over a map. -/
theorem getElem?_foldl_insert : ∀ {entries : List DirectoryPresenceEntry} (m : PresenceStates),
    (entries.map DirectoryPresenceEntry.playerId).Nodup → ∀ p : PlayerId,
    (entries.foldl (fun m entry => m.insert entry.playerId entry.state) m)[p]?
      = (mapOf entries p).or m[p]?
  | [], m, _, p => rfl
  | entry :: rest, m, h, p => by
    rw [List.map_cons, List.nodup_cons] at h
    rw [List.foldl_cons, getElem?_foldl_insert _ h.2, Std.ExtTreeMap.getElem?_insert]
    simp only [Std.LawfulEqCmp.compare_eq_iff_eq, mapOf, List.find?_cons]
    by_cases hp : entry.playerId = p
    · have hrest : (rest.find? fun e => e.playerId = p) = none := by
        refine List.find?_eq_none.2 fun e he => ?_
        simp only [decide_eq_true_eq]
        rintro rfl
        exact h.1 (hp ▸ List.mem_map_of_mem he)
      simp [hp, hrest]
    · simp [hp]

theorem mapOf_filter_contains (entries : List DirectoryPresenceEntry) (states : PresenceStates) :
    mapOf (entries.filter fun entry => states.contains entry.playerId)
      = restrict (mapOf entries) fun p => states[p]? := by
  funext p
  unfold mapOf restrict
  rw [List.find?_filter]
  by_cases hp : states.contains p = true
  · have hsome : (states[p]?).isSome = true := by
      rwa [← Std.ExtTreeMap.contains_eq_isSome_getElem?]
    rw [if_pos hsome]
    congr 2
    funext entry
    by_cases he : entry.playerId = p
    · simp [he, hp]
    · simp [he]
  · have hnone : ¬(states[p]?).isSome = true := by
      rwa [← Std.ExtTreeMap.contains_eq_isSome_getElem?]
    rw [if_neg hnone]
    have hfind : (entries.find? fun entry =>
        decide (states.contains entry.playerId = true ∧ decide (entry.playerId = p) = true))
          = none := by
      refine List.find?_eq_none.2 fun entry _ => ?_
      simp only [decide_eq_true_eq, not_and]
      rintro hcontains rfl
      exact hp hcontains
    rw [hfind]
    rfl

/-! ## States -/

/-- Every state is the one that is read, and those in the group have one. -/
theorem currentStates_spec {g : GroupId} {connectedScopeCount : PlayerId → ℕ} :
    ∀ (members : List VoiceMembership) {states current : PresenceStates},
      (∀ (p : PlayerId) state, states[p]? = some state →
        state = transportState connectedScopeCount p) →
      currentStates g connectedScopeCount states members = some current →
      (∀ (p : PlayerId) state, current[p]? = some state →
        state = transportState connectedScopeCount p)
        ∧ (∀ p : PlayerId, p ∈ states → p ∈ current)
        ∧ (∀ m ∈ members, m.groupId = g → m.playerId ∈ current)
        ∧ ∀ p : PlayerId, p ∈ current →
          p ∈ states ∨ ∃ m ∈ members, m.groupId = g ∧ m.playerId = p
  | [], states, current, hstates, h => by
    obtain rfl := Option.some.inj h
    exact ⟨hstates, fun _ hp => hp, fun m hm => (List.not_mem_nil hm).elim, fun _ hp => .inl hp⟩
  | member :: rest, states, current, hstates, h => by
    unfold currentStates at h
    by_cases hgroup : member.groupId ≠ g
    · rw [if_pos hgroup] at h
      obtain ⟨hread, hkeep, hrest, honly⟩ := currentStates_spec rest hstates h
      refine ⟨hread, hkeep, fun m hm hg => ?_, fun p hp => ?_⟩
      · rcases List.mem_cons.1 hm with rfl | hm
        · exact absurd hg hgroup
        · exact hrest m hm hg
      · exact (honly p hp).imp_right fun ⟨m, hm, hp⟩ => ⟨m, List.mem_cons_of_mem _ hm, hp⟩
    rw [if_neg hgroup] at h
    by_cases hfull : states.size = maximumDirectoryParticipants
    · rw [if_pos hfull] at h
      cases h
    · rw [if_neg hfull] at h
      have hinserted : ∀ (p : PlayerId) state,
          (states.insertIfNew member.playerId
            (transportState connectedScopeCount member.playerId))[p]? = some state →
          state = transportState connectedScopeCount p := by
        intro p state hp
        rw [Std.ExtTreeMap.getElem?_insertIfNew] at hp
        split_ifs at hp with hnew
        · obtain rfl : member.playerId = p := Std.LawfulEqCmp.eq_of_compare hnew.1
          exact (Option.some.inj hp).symm
        · exact hstates p state hp
      obtain ⟨hread, hkeep, hrest, honly⟩ := currentStates_spec rest hinserted h
      refine ⟨hread, fun p hp => hkeep p ?_, fun m hm hg => ?_, fun p hp => ?_⟩
      · exact Std.ExtTreeMap.mem_insertIfNew.2 (.inr hp)
      · rcases List.mem_cons.1 hm with rfl | hm
        · exact hkeep _ Std.ExtTreeMap.mem_insertIfNew_self
        · exact hrest m hm hg
      · rcases honly p hp with hp | ⟨m, hm, hp⟩
        · rcases Std.ExtTreeMap.mem_insertIfNew.1 hp with hp | hp
          · exact .inr ⟨member, List.mem_cons_self, not_not.1 hgroup,
              Std.LawfulEqCmp.eq_of_compare hp⟩
          · exact .inl hp
        · exact .inr ⟨m, List.mem_cons_of_mem _ hm, hp⟩

/-- Everybody in the group has the state that is read. -/
theorem currentStates_member {g : GroupId} {connectedScopeCount : PlayerId → ℕ}
    {members : List VoiceMembership} {current : PresenceStates}
    (h : currentStates g connectedScopeCount ∅ members = some current) {m : VoiceMembership}
    (hm : m ∈ members) (hg : m.groupId = g) :
    current[m.playerId]? = some (transportState connectedScopeCount m.playerId) := by
  obtain ⟨hread, -, hall, -⟩ := currentStates_spec members (fun p state hp => by simp at hp) h
  have hmem := hall m hm hg
  rw [Std.ExtTreeMap.mem_iff_isSome_getElem?, Option.isSome_iff_exists] at hmem
  obtain ⟨state, hstate⟩ := hmem
  rw [hstate, hread _ _ hstate]

/-- The states that are read are those of the group's members. -/
theorem currentStates_eq {g : GroupId} {connectedScopeCount : PlayerId → ℕ}
    {members : List VoiceMembership} {current : PresenceStates}
    (h : currentStates g connectedScopeCount ∅ members = some current) :
    (fun p => current[p]?) = presenceOf members g connectedScopeCount := by
  funext p
  unfold presenceOf
  split_ifs with hp
  · obtain ⟨m, hm, hg, rfl⟩ := hp
    exact currentStates_member h hm hg
  · obtain ⟨-, -, -, honly⟩ := currentStates_spec members (fun p state hp => by simp at hp) h
    rw [← Option.not_isSome_iff_eq_none, ← Std.ExtTreeMap.mem_iff_isSome_getElem?]
    exact fun hmem => hp ((honly p hmem).resolve_left (by simp))

/-! ## Records -/

/-- The record of a group: `history` has the map of each version up to its own, and the revisions
are the differences from a first version on. -/
structure Recorded (history : ℕ → PresenceStates) (versioned : VersionedPresence) : Prop where
  initialized : versioned.initialized = true
  current : history versioned.version = versioned.states
  revisions : ∃ first n, 1 ≤ first ∧ first + n = versioned.version ∧ (n = 0 → first = 1)
    ∧ versioned.revisions = (List.range' first n).map fun u =>
      ⟨u + 1, changedEntries (history u) (history (u + 1))⟩

/-- The maps of a history. -/
def maps (history : ℕ → PresenceStates) (u : ℕ) : PlayerId → Option DirectoryPresenceState :=
  fun p => (history u)[p]?

section Recorded

variable {history : ℕ → PresenceStates} {versioned : VersionedPresence}

theorem Recorded.version_pos (h : Recorded history versioned) : 1 ≤ versioned.version := by
  obtain ⟨first, n, hfirst, hn, -⟩ := h.revisions
  omega

/-- A delta base that is retained is one of the versions between the first and the last. -/
theorem Recorded.retained (h : Recorded history versioned) {after : ℕ}
    (hafter : versioned.snapshotRequired after = false) :
    after ≤ versioned.version ∧ ∃ first n, first ≤ after ∧ first + n = versioned.version
      ∧ versioned.revisions = (List.range' first n).map fun u =>
        ⟨u + 1, changedEntries (history u) (history (u + 1))⟩ := by
  obtain ⟨first, n, hfirst, hn, hempty, hrevisions⟩ := h.revisions
  unfold VersionedPresence.snapshotRequired at hafter
  simp only [Bool.or_eq_false_iff, decide_eq_false_iff_not, Nat.not_lt] at hafter
  obtain ⟨⟨hzero, hle⟩, hhead⟩ := hafter
  refine ⟨hle, first, n, ?_, hn, hrevisions⟩
  rcases n with _ | n
  · have := hempty rfl
    omega
  · rw [hrevisions, List.range'_succ, List.map_cons, List.head?_cons] at hhead
    simp only [Option.any_some, decide_eq_false_iff_not] at hhead
    omega

/-- The versions behind a delta base. -/
theorem filter_range' {first n after version : ℕ} (hfirst : first ≤ after)
    (hn : first + n = version) (hle : after ≤ version) :
    ((List.range' first n).filter fun u => after < u + 1) = List.range' after (version - after) := by
  obtain ⟨k, rfl⟩ : ∃ k, after = first + k := ⟨after - first, by omega⟩
  have hsplit : n = k + (version - (first + k)) := by omega
  rw [hsplit, ← List.range'_append_1, List.filter_append]
  have hleft : ((List.range' first k).filter fun u => first + k < u + 1) = [] := by
    refine List.filter_eq_nil_iff.2 fun u hu => ?_
    have := (List.mem_range'_1.1 hu).2
    simp only [decide_eq_true_eq]
    omega
  have hright : ((List.range' (first + k) (version - (first + k))).filter fun u =>
      first + k < u + 1) = List.range' (first + k) (version - (first + k)) := by
    refine List.filter_eq_self.2 fun u hu => ?_
    have := (List.mem_range'_1.1 hu).1
    simp only [decide_eq_true_eq]
    omega
  rw [hleft, List.nil_append, hright]

/-- The loop over consecutive revisions collects the latest changes. -/
theorem getElem?_foldl_revisions (history : ℕ → PresenceStates) (states : PresenceStates) (v : ℕ)
    (p : PlayerId) : ∀ n, ((List.range' v n).foldl (fun latest u =>
      ((changedEntries (history u) (history (u + 1))).filter fun entry =>
        states.contains entry.playerId).foldl
          (fun latest entry => latest.insert entry.playerId entry.state) latest)
        (∅ : PresenceStates))[p]?
      = latest (maps history) (fun p => states[p]?) v n p
  | 0 => by simp [latest]
  | n + 1 => by
    have hnodup : (((changedEntries (history (v + n)) (history (v + n + 1))).filter fun entry =>
        states.contains entry.playerId).map DirectoryPresenceEntry.playerId).Nodup :=
      (nodup_changedEntries _ _).sublist (List.filter_sublist.map _)
    rw [List.range'_1_concat, List.foldl_concat, getElem?_foldl_insert _ hnodup,
      getElem?_foldl_revisions history states v p n, mapOf_filter_contains, mapOf_changedEntries]
    rfl

/-- A delta lists the latest changes. -/
theorem Recorded.latestChanges (h : Recorded history versioned) {after : ℕ}
    (hafter : versioned.snapshotRequired after = false) (p : PlayerId) :
    (versioned.latestChanges after)[p]?
      = latest (maps history) (maps history versioned.version) after
        (versioned.version - after) p := by
  obtain ⟨hle, first, n, hfirst, hn, hrevisions⟩ := h.retained hafter
  have hmaps : maps history versioned.version = fun p => versioned.states[p]? := by
    unfold maps
    rw [h.current]
  unfold VersionedPresence.latestChanges
  rw [hrevisions, List.filter_map, List.foldl_map, hmaps]
  have hfilter := filter_range' hfirst hn hle
  simp only [Function.comp_def, hfilter]
  exact getElem?_foldl_revisions history versioned.states after p _

theorem observe_states {current : PresenceStates} {versioned' : VersionedPresence}
    (h : versioned.observe current = some versioned') : versioned'.states = current := by
  unfold VersionedPresence.observe at h
  split_ifs at h with hfirst hchanged hexhausted <;> obtain rfl := Option.some.inj h
  · rfl
  · rfl
  · exact not_not.1 hchanged

/-- A first observation starts a record. -/
theorem recorded_first {current : PresenceStates} {versioned' : VersionedPresence}
    (h : ({} : VersionedPresence).observe current = some versioned') :
    Recorded (fun _ => current) versioned' := by
  obtain rfl := Option.some.inj h
  exact ⟨rfl, rfl, 1, 0, Nat.le_refl 1, rfl, fun _ => rfl, rfl⟩

/-- An observation keeps the maps of the versions so far. -/
theorem Recorded.observe (h : Recorded history versioned) {current : PresenceStates}
    {versioned' : VersionedPresence} (hobserve : versioned.observe current = some versioned') :
    versioned.version ≤ versioned'.version
      ∧ ∃ history', Recorded history' versioned'
        ∧ ∀ u ≤ versioned.version, history' u = history u := by
  unfold VersionedPresence.observe at hobserve
  simp only [h.initialized, Bool.not_true, Bool.false_eq_true, if_false] at hobserve
  by_cases hchanged : versioned.states = current
  · rw [if_neg (not_not.2 hchanged)] at hobserve
    obtain rfl := Option.some.inj hobserve
    exact ⟨Nat.le_refl _, history, h, fun _ _ => rfl⟩
  rw [if_pos hchanged] at hobserve
  by_cases hexhausted : UInt64.size ≤ versioned.version + 1
  · rw [if_pos hexhausted] at hobserve
    cases hobserve
  rw [if_neg hexhausted] at hobserve
  obtain ⟨first, n, hfirst, hn, -, hrevisions⟩ := h.revisions
  have hkeep : ∀ u ≤ versioned.version,
      Function.update history (versioned.version + 1) current u = history u :=
    fun u hu => Function.update_of_ne (by omega) _ _
  have hpushed : versioned.revisions ++
      [⟨versioned.version + 1, changedEntries versioned.states current⟩]
        = (List.range' first (n + 1)).map fun u => ⟨u + 1, changedEntries
          (Function.update history (versioned.version + 1) current u)
          (Function.update history (versioned.version + 1) current (u + 1))⟩ := by
    rw [List.range'_1_concat, List.map_append, hrevisions, List.map_singleton, hn,
      Function.update_self, hkeep _ (Nat.le_refl _), h.current]
    congr 1
    refine List.map_congr_left fun u hu => ?_
    have := (List.mem_range'_1.1 hu).2
    rw [hkeep u (by omega), hkeep (u + 1) (by omega)]
  rw [hpushed] at hobserve
  obtain rfl := Option.some.inj hobserve
  refine ⟨Nat.le_succ _, _, ⟨rfl, Function.update_self _ _ _, ?_⟩, hkeep⟩
  simp only [List.length_map, List.length_range']
  split_ifs with hfull
  · -- the oldest revision goes, and many are left
    refine ⟨first + 1, n, by omega, by omega, fun hzero => ?_, ?_⟩
    · subst hzero
      simp [maximumPresenceRevisions] at hfull
    · rw [List.range'_succ, List.map_cons, List.tail_cons]
  · exact ⟨first, n + 1, hfirst, by omega, fun hzero => by omega, rfl⟩

end Recorded

/-! ## Runs -/

/-- What an answer says under a history: the maps of its version and of its delta base. -/
structure Described (history : ℕ → PresenceStates) (a : PresenceAnswer) : Prop where
  whole : ∃ full, a.whole = .ok (.ok full) ∧ full.version = a.snapshot.version
    ∧ mapOf full.entries = maps history a.snapshot.version
    ∧ (a.afterVersion = none → a.snapshot.entries = full.entries)
  present : a.present = maps history a.snapshot.version
  delta : ∀ after, a.afterVersion = some after → after ≤ a.snapshot.version
    ∧ mapOf a.snapshot.entries = latest (maps history) (maps history a.snapshot.version) after
      (a.snapshot.version - after)

theorem Described.congr {history history' : ℕ → PresenceStates} {a : PresenceAnswer}
    (h : Described history a) (heq : ∀ u ≤ a.snapshot.version, history' u = history u) :
    Described history' a := by
  have hmaps : ∀ u ≤ a.snapshot.version, maps history' u = maps history u := by
    intro u hu
    unfold maps
    rw [heq u hu]
  refine ⟨?_, ?_, fun after hafter => ?_⟩
  · rw [hmaps _ (Nat.le_refl _)]
    exact h.whole
  · rw [hmaps _ (Nat.le_refl _)]
    exact h.present
  · obtain ⟨hle, hentries⟩ := h.delta after hafter
    refine ⟨hle, hentries.trans ?_⟩
    rw [hmaps _ (Nat.le_refl _)]
    exact latest_congr _ after _ fun u hu => (hmaps u (by omega)).symm

/-- The answers a record gives. -/
theorem Recorded.described {history : ℕ → PresenceStates} {versioned : VersionedPresence}
    (h : Recorded history versioned) {g : GroupId} {afterVersion : Option ℕ}
    {observedAt : TimePoint} {snapshot : DirectoryPresenceSnapshot}
    (hanswer : versioned.answer afterVersion observedAt = .ok snapshot)
    {present : PlayerId → Option DirectoryPresenceState}
    (hpresent : present = fun p => versioned.states[p]?) :
    snapshot.version = versioned.version
      ∧ Described history
        ⟨g, afterVersion, snapshot, .ok (versioned.answer none observedAt), present⟩ := by
  have hfull : mapOf (entriesOf versioned.states) = maps history versioned.version := by
    unfold maps
    rw [mapOf_entriesOf, h.current]
  have hpresent : present = maps history versioned.version := by
    rw [hpresent, ← mapOf_entriesOf, hfull]
  rcases afterVersion with _ | after
  · obtain rfl := Except.ok.inj hanswer
    refine ⟨rfl, ⟨_, rfl, rfl, hfull, fun _ => rfl⟩, hpresent, fun after hafter => ?_⟩
    cases hafter
  · unfold VersionedPresence.answer at hanswer
    simp only at hanswer
    split_ifs at hanswer with hrequired
    obtain rfl := Except.ok.inj hanswer
    have hretained : versioned.snapshotRequired after = false := by simpa using hrequired
    refine ⟨rfl, ⟨_, rfl, rfl, hfull, fun hnone => by cases hnone⟩, hpresent,
      fun after' hafter' => ?_⟩
    obtain rfl := Option.some.inj hafter'
    refine ⟨(h.retained hretained).1, ?_⟩
    rw [mapOf_entriesOf]
    funext p
    exact h.latestChanges hretained p

/-- The answers of a group so far, under the history of its record. -/
structure GroupInv (g : GroupId) (s : DirectoryApplicationService) (log : List PresenceAnswer) :
    Prop where
  unread : s.presenceVersions[g]? = none → ∀ a ∈ log, a.groupId ≠ g
  recorded : ∀ versioned, s.presenceVersions[g]? = some versioned →
    ∃ history, Recorded history versioned ∧ ∀ a ∈ log, a.groupId = g →
      a.snapshot.version ≤ versioned.version ∧ Described history a
  monotone : (log.filter fun a => a.groupId = g).Pairwise fun a b =>
    a.snapshot.version ≤ b.snapshot.version

/-- A read observes the states of the actor's group and answers from the record, or nothing
changes. -/
theorem presenceFor_cases (s : DirectoryApplicationService) (memberships : Memberships)
    (connectedScopeCount : PlayerId → ℕ) (actor : PlayerId) (afterVersion : Option ℕ)
    (observedAt : TimePoint) :
    let op := DirectoryOp.presenceFor memberships connectedScopeCount actor afterVersion observedAt
    op.call s = s ∧ op.presenceAnswer s = none
      ∨ ∃ g current versioned, ((s.presenceVersions[g]?).getD {}).observe current = some versioned
        ∧ op.call s = { s with presenceVersions := s.presenceVersions.insert g versioned }
        ∧ (op.presenceAnswer s = none
          ∨ ∃ snapshot, versioned.answer afterVersion observedAt = .ok snapshot
            ∧ op.presenceAnswer s = some ⟨g, afterVersion, snapshot,
              .ok (versioned.answer none observedAt), fun p => current[p]?⟩) := by
  simp only [DirectoryOp.call, DirectoryOp.presenceAnswer, presenceFor]
  rcases currentContextFor memberships actor with _ | ⟨context, membership⟩
  · exact .inl ⟨rfl, rfl⟩
  rcases hstates : currentStates membership.groupId connectedScopeCount ∅
      context.snapshot.memberships with _ | current
  · exact .inl (by simp [hstates])
  rcases hobserve : ((s.presenceVersions[membership.groupId]?).getD {}).observe current with
    _ | versioned
  · exact .inl (by simp [hstates, hobserve])
  refine .inr ⟨membership.groupId, current, versioned, hobserve, ?_, ?_⟩
  · simp only [hstates, hobserve]
  simp only [hstates, hobserve]
  rcases hanswer : versioned.answer afterVersion observedAt with e | snapshot
  · exact .inl rfl
  · exact .inr ⟨snapshot, rfl, by rw [currentStates_eq hstates]⟩

/-- A read of a group appends its answer, if it has one. -/
theorem GroupInv.read {g g' : GroupId} {s : DirectoryApplicationService}
    {log : List PresenceAnswer} (h : GroupInv g s log) {current : PresenceStates}
    {versioned : VersionedPresence} (afterVersion : Option ℕ) (observedAt : TimePoint)
    (hobserve : ((s.presenceVersions[g']?).getD {}).observe current = some versioned)
    {answers : List PresenceAnswer}
    (hanswers : answers = [] ∨ ∃ snapshot, versioned.answer afterVersion observedAt = .ok snapshot
      ∧ answers = [⟨g', afterVersion, snapshot, .ok (versioned.answer none observedAt),
        fun p => current[p]?⟩]) :
    GroupInv g { s with presenceVersions := s.presenceVersions.insert g' versioned }
      (log ++ answers) := by
  have hlist : ∀ a ∈ answers, a.groupId = g' := by
    intro a ha
    rcases hanswers with rfl | ⟨snapshot, -, rfl⟩
    · cases ha
    · obtain rfl := List.mem_singleton.1 ha
      rfl
  have hget := Std.ExtTreeMap.getElem?_insert (t := s.presenceVersions) (k := g') (a := g)
    (v := versioned)
  simp only [Std.LawfulEqCmp.compare_eq_iff_eq] at hget
  by_cases hg : g' = g
  · subst hg
    -- the record of this group: its answers so far keep their maps, and the new one has the last
    rw [if_pos rfl] at hget
    obtain ⟨history, hrecorded, hbefore⟩ : ∃ history, Recorded history versioned ∧ ∀ a ∈ log,
        a.groupId = g' → a.snapshot.version ≤ versioned.version ∧ Described history a := by
      rcases hold : s.presenceVersions[g']? with _ | old
      · rw [hold, Option.getD_none] at hobserve
        exact ⟨_, recorded_first hobserve, fun a ha heq => absurd heq (h.unread hold a ha)⟩
      · rw [hold, Option.getD_some] at hobserve
        obtain ⟨history, hrecorded, hbefore⟩ := h.recorded old hold
        obtain ⟨hle, history', hrecorded', hkeep⟩ := hrecorded.observe hobserve
        refine ⟨history', hrecorded', fun a ha heq => ?_⟩
        obtain ⟨hversion, hdescribed⟩ := hbefore a ha heq
        exact ⟨Nat.le_trans hversion hle,
          hdescribed.congr fun u hu => hkeep u (Nat.le_trans hu hversion)⟩
    have hnew : ∀ a ∈ answers, a.snapshot.version = versioned.version ∧ Described history a := by
      intro a ha
      rcases hanswers with rfl | ⟨snapshot, hanswer, rfl⟩
      · cases ha
      · obtain rfl := List.mem_singleton.1 ha
        exact hrecorded.described hanswer (by rw [observe_states hobserve])
    refine ⟨fun hnone => ?_, fun versioned' hsome => ?_, ?_⟩
    · rw [hget] at hnone
      cases hnone
    · rw [hget] at hsome
      obtain rfl := Option.some.inj hsome
      refine ⟨history, hrecorded, fun a ha heq => ?_⟩
      rcases List.mem_append.1 ha with hold | hadded
      · exact hbefore a hold heq
      · obtain ⟨hversion, hdescribed⟩ := hnew a hadded
        exact ⟨Nat.le_of_eq hversion, hdescribed⟩
    · rw [List.filter_append]
      refine List.pairwise_append.2 ⟨h.monotone, ?_, fun a ha b hb => ?_⟩
      · rcases hanswers with rfl | ⟨snapshot, -, rfl⟩ <;> simp
      · obtain ⟨ha, heq⟩ := List.mem_filter.1 ha
        rw [(hnew b (List.mem_filter.1 hb).1).1]
        exact (hbefore a ha (by simpa using heq)).1
  · rw [if_neg hg] at hget
    have hnone : (answers.filter fun a => a.groupId = g) = [] :=
      List.filter_eq_nil_iff.2 fun a ha => by simpa [hlist a ha] using hg
    have hother : ∀ a ∈ log ++ answers, a.groupId = g → a ∈ log := by
      intro a ha heq
      rcases List.mem_append.1 ha with hold | hadded
      · exact hold
      · exact absurd ((hlist a hadded).symm.trans heq) hg
    refine ⟨fun hunread a ha heq => ?_, fun versioned' hsome => ?_, ?_⟩
    · exact h.unread (hget ▸ hunread) a (hother a ha heq) heq
    · obtain ⟨history, hrecorded, hbefore⟩ := h.recorded versioned' (hget ▸ hsome)
      exact ⟨history, hrecorded, fun a ha heq => hbefore a (hother a ha heq) heq⟩
    · rw [List.filter_append, hnone, List.append_nil]
      exact h.monotone

theorem GroupInv.initial (g : GroupId) : GroupInv g {} [] where
  unread _ a ha := by cases ha
  recorded versioned h := by simp at h
  monotone := .nil

/-- Another operation leaves the records alone. -/
theorem GroupInv.same {g : GroupId} {s s' : DirectoryApplicationService}
    {log : List PresenceAnswer} (h : GroupInv g s log)
    (hsame : s'.presenceVersions = s.presenceVersions) : GroupInv g s' (log ++ []) := by
  rw [List.append_nil]
  refine ⟨fun hunread => h.unread (hsame ▸ hunread), fun versioned hsome => ?_, h.monotone⟩
  exact h.recorded versioned (hsame ▸ hsome)

theorem upsertProfile_presenceVersions (s : DirectoryApplicationService)
    (profile : DirectoryProfile) :
    (s.upsertProfile profile).2.presenceVersions = s.presenceVersions := by
  unfold upsertProfile
  split_ifs <;> rfl

theorem replacePublicRoles_presenceVersions (s : DirectoryApplicationService)
    (catalogVersion : ℕ) (roles : List PublicDirectoryRole) :
    (s.replacePublicRoles catalogVersion roles).2.presenceVersions = s.presenceVersions := by
  unfold replacePublicRoles
  split
  · rfl
  · split
    · rfl
    · split <;> rfl

theorem versionFor_presenceVersions (s : DirectoryApplicationService) (g : GroupId)
    (sourceVersion : ℕ) (fingerprint : Bytes) :
    (s.versionFor g sourceVersion fingerprint).2.presenceVersions = s.presenceVersions := by
  unfold versionFor
  split
  · rfl
  · split_ifs <;> rfl

theorem directoryFor_presenceVersions (s : DirectoryApplicationService)
    (memberships : Memberships) (actor : PlayerId) :
    (s.directoryFor memberships actor).2.presenceVersions = s.presenceVersions := by
  unfold directoryFor
  split
  · rfl
  rename_i context membership _
  unfold makeDirectory
  simp only
  split
  · rfl
  rename_i group _
  split_ifs
  · rfl
  · rfl
  have hversion := versionFor_presenceVersions s membership.groupId
    ((visibleMemberships context.snapshot membership.groupId).foldl s.raiseSourceVersion
      context.snapshot.version)
    (s.directoryContent context.snapshot.hierarchy group
      (visibleMemberships context.snapshot membership.groupId)).fingerprint
  split <;> rename_i heq <;> rw [heq] at hversion <;> exact hversion

theorem GroupInv.step {g : GroupId} {s : DirectoryApplicationService}
    {log : List PresenceAnswer} (h : GroupInv g s log) (op : DirectoryOp) :
    GroupInv g (op.call s) (log ++ (op.presenceAnswer s).toList) := by
  cases op with
  | upsertProfile profile => exact h.same (upsertProfile_presenceVersions s profile)
  | replacePublicRoles catalogVersion roles =>
    exact h.same (replacePublicRoles_presenceVersions s catalogVersion roles)
  | directoryFor memberships actor =>
    exact h.same (directoryFor_presenceVersions s memberships actor)
  | presenceFor memberships connectedScopeCount actor afterVersion observedAt =>
    rcases presenceFor_cases s memberships connectedScopeCount actor afterVersion observedAt with
      ⟨hcall, hanswer⟩ | ⟨g', current, versioned, hobserve, hcall, hanswer⟩
    · rw [hcall, hanswer]
      exact h.same rfl
    · rw [hcall]
      refine h.read afterVersion observedAt hobserve ?_
      rcases hanswer with hnone | ⟨snapshot, hok, hsome⟩
      · exact .inl (by rw [hnone]; rfl)
      · exact .inr ⟨snapshot, hok, by rw [hsome]; rfl⟩

theorem GroupInv.run {g : GroupId} : ∀ (ops : List DirectoryOp) {s : DirectoryApplicationService}
    {log : List PresenceAnswer}, GroupInv g s log → ∃ s', GroupInv g s' (log ++ presenceLog s ops)
  | [], s, log, h => ⟨s, by simpa [presenceLog] using h⟩
  | op :: ops, s, log, h => by
    obtain ⟨s', hs'⟩ := GroupInv.run ops (h.step op)
    exact ⟨s', by simpa [presenceLog] using hs'⟩

/-- Whoever holds the map of a version is right about its members. -/
theorem agrees_of_holds {g : GroupId} {log : List PresenceAnswer}
    {history : ℕ → PresenceStates} (hlog : ∀ a ∈ log, a.groupId = g → Described history a) {v : ℕ}
    {held : PlayerId → Option DirectoryPresenceState} (h : Holds log g v held) :
    Agrees held (maps history v) := by
  induction h with
  | snapshot a ha hg hnone =>
    obtain ⟨full, -, -, hfull, hentries⟩ := (hlog a ha hg).whole
    rw [hentries hnone, hfull]
    exact agrees_self _
  | @delta v held a hheld ha hg hafter ih =>
    obtain ⟨hle, hentries⟩ := (hlog a ha hg).delta v hafter
    have hagrees := ih.overwrite_latest (a.snapshot.version - v)
    rw [Nat.add_sub_of_le hle] at hagrees
    rw [hentries]
    exact hagrees
  | drop a hheld ha hg hversion ih =>
    rw [(hlog a ha hg).present, hversion]
    exact ih.restrict

/-- Every run of the service has complete presence answers for each group. -/
theorem presence_complete (ops : List DirectoryOp) (g : GroupId) :
    PresenceComplete (presenceLog {} ops) g := by
  obtain ⟨s, hinv⟩ := GroupInv.run ops (GroupInv.initial g)
  rw [List.nil_append] at hinv
  obtain ⟨history, hlog⟩ : ∃ history, ∀ a ∈ presenceLog {} ops, a.groupId = g →
      Described history a := by
    rcases hrecord : s.presenceVersions[g]? with _ | versioned
    · exact ⟨fun _ => ∅, fun a ha hg => absurd hg (hinv.unread hrecord a ha)⟩
    · obtain ⟨history, -, hbefore⟩ := hinv.recorded versioned hrecord
      exact ⟨history, fun a ha hg => (hbefore a ha hg).2⟩
  refine ⟨fun a ha hg => ?_, fun v held a hheld ha hg hafter => ?_,
    fun a ha b hb hga hgb hversion => ?_, hinv.monotone⟩
  · obtain ⟨full, hwhole, hversion, hmaps, hentries⟩ := (hlog a ha hg).whole
    exact ⟨full, hwhole, hversion, hmaps.trans (hlog a ha hg).present.symm, hentries⟩
  · obtain ⟨hle, hentries⟩ := (hlog a ha hg).delta v hafter
    have hagrees := (agrees_of_holds hlog hheld).overwrite_latest (a.snapshot.version - v)
    rw [Nat.add_sub_of_le hle] at hagrees
    rw [(hlog a ha hg).present]
    refine ⟨?_, fun entry hentry => ?_⟩
    · rw [hentries]
      exact hagrees.restrict_eq
    · rcases hsent : mapOf a.snapshot.entries entry.playerId with _ | state
      · unfold mapOf at hsent
        have := List.find?_eq_none.1 (Option.map_eq_none_iff.1 hsent) entry hentry
        simp at this
      · rw [hentries] at hsent
        exact isSome_of_latest _ _ _ _ hsent
  · rw [(hlog a ha hga).present, (hlog b hb hgb).present, hversion]

end VoxTree

import Mathlib.Algebra.Order.Ring.Rat
import Mathlib.Data.List.Nodup
import VoxTree.Playback

/-!
# The transport knows the last decision

Every operation that changes what is decided announces the decisions about all available streams,
so the last one issued for an available stream is the one the client keeps (`Announced`). The
transport has it as soon as nothing is waiting, in every run that hands on the decisions about a
stream in the order they were computed.
-/

namespace VoxTree

open Machine Deferred

namespace PlaybackState

variable {p : PlaybackState}

/-- What names the available streams. -/
def listed (p : PlaybackState) : List RemoteStreamKey :=
  p.availableRemoteAudio.map AvailableRemoteAudio.key

/-! ## One recomputation -/

theorem admitStreams_keys (l : List AvailableRemoteAudio) : ∀ (perScope : VoiceScope → ℕ)
    (total : ℕ), (p.admitStreams perScope total l).1.map AvailableRemoteAudio.key
      = l.map AvailableRemoteAudio.key := by
  induction l with
  | nil => exact fun _ _ => rfl
  | cons stream rest ih =>
    intro perScope total
    simp only [admitStreams]
    split <;> simp only [List.map_cons, ih]

theorem admitStreams_suppressed (l : List AvailableRemoteAudio) : ∀ (perScope : VoiceScope → ℕ)
    (total : ℕ), ∀ stream ∈ (p.admitStreams perScope total l).1,
      p.suppressed stream.key.participantId = true → stream.admitted = false := by
  induction l with
  | nil =>
    intro perScope total stream hs
    simp [admitStreams] at hs
  | cons first rest ih =>
    intro perScope total stream hs hsup
    simp only [admitStreams] at hs
    split at hs
    · rename_i hadmitted
      rcases List.mem_cons.mp hs with rfl | hs
      · simp [hsup] at hadmitted
      · exact ih _ _ stream hs hsup
    · rcases List.mem_cons.mp hs with rfl | hs
      · rfl
      · exact ih _ _ stream hs hsup

theorem decided_keys : (p.decided.map AvailableRemoteAudio.key).Perm p.listed := by
  unfold decided
  have hkeys : ∀ (gain : AvailableRemoteAudio → ℚ) (l : List AvailableRemoteAudio),
      (l.map fun stream => { stream with gain := gain stream }).map AvailableRemoteAudio.key
        = l.map AvailableRemoteAudio.key := by
    intro gain l
    rw [List.map_map]
    rfl
  rw [hkeys, admitStreams_keys]
  exact (List.mergeSort_perm _ _).map _

theorem decided_suppressed {stream : AvailableRemoteAudio} (h : stream ∈ p.decided)
    (hsup : p.suppressed stream.key.participantId = true) : stream.admitted = false := by
  unfold decided at h
  obtain ⟨before, hbefore, rfl⟩ := List.mem_map.mp h
  exact admitStreams_suppressed _ _ _ before hbefore hsup

@[simp] theorem recompute_listed : p.recomputePlaybackLocked.1.listed = p.listed := by
  unfold recomputePlaybackLocked listed
  rw [List.map_map]
  refine List.map_congr_left fun stream _ => ?_
  simp only [Function.comp]
  rcases hnew : p.decided.find? (fun new => new.key = stream.key) with _ | new
  · rw [hnew, Option.getD_none]
  · rw [hnew, Option.getD_some]
    simpa using List.find?_some hnew

/-- What the client keeps of a stream after a recomputation is what was decided. -/
theorem mem_recompute {stream : AvailableRemoteAudio}
    (h : stream ∈ p.recomputePlaybackLocked.1.availableRemoteAudio) : stream ∈ p.decided := by
  unfold recomputePlaybackLocked at h
  obtain ⟨before, hbefore, rfl⟩ := List.mem_map.mp h
  have hmem : before.key ∈ p.decided.map AvailableRemoteAudio.key :=
    decided_keys.mem_iff.mpr (List.mem_map_of_mem hbefore)
  obtain ⟨new, hnew, hkey⟩ := List.mem_map.mp hmem
  rcases hfind : p.decided.find? (fun new => new.key = before.key) with _ | found
  · have := List.find?_eq_none.mp hfind new hnew
    simp [hkey] at this
  · rw [hfind, Option.getD_some]
    exact List.mem_of_find?_eq_some hfind

/-! ## Well-formed states -/

/-- No stream is listed twice, no stream is one of a nameless participant, and what gains are
computed from lies between zero and one. -/
structure WellFormed (p : PlaybackState) : Prop where
  nodup : p.listed.Nodup
  named : ∀ key ∈ p.listed, key.participantId ≠ []
  config : (validateAudioConfig p.audioConfig).ok = true
  volumes : ∀ (participantId : Bytes) (volume : ℚ),
    p.participantVolumes[participantId]? = some volume → validGain volume = true

theorem wellFormed_default : WellFormed {} where
  nodup := List.nodup_nil
  named := by simp [listed]
  config := by decide +kernel
  volumes := by simp

theorem WellFormed.recompute (h : p.WellFormed) : p.recomputePlaybackLocked.1.WellFormed where
  nodup := by
    rw [recompute_listed]
    exact h.nodup
  named := by
    rw [recompute_listed]
    exact h.named
  config := h.config
  volumes := h.volumes

theorem validGain_iff {gain : ℚ} : validGain gain = true ↔ 0 ≤ gain ∧ gain ≤ 1 := by
  simp [validGain]

theorem validGain_mul {x y : ℚ} (hx : validGain x = true) (hy : validGain y = true) :
    validGain (x * y) = true := by
  rw [validGain_iff] at *
  exact ⟨mul_nonneg hx.1 hy.1, mul_le_one₀ hx.2 hy.1 hy.2⟩

theorem WellFormed.gainOf (h : p.WellFormed) (groupActive specializationActive : Bool)
    (stream : AvailableRemoteAudio) :
    validGain (p.gainOf groupActive specializationActive stream) = true := by
  have hvolume : validGain ((p.participantVolumes[stream.key.participantId]?).getD 1) = true := by
    rcases hget : p.participantVolumes[stream.key.participantId]? with _ | volume
    · simp [validGain]
    · exact h.volumes _ _ hget
  have hconfig := h.config
  simp only [validateAudioConfig] at hconfig
  split at hconfig
  · simp [VoiceTransportResult.ok, VoiceTransportResult.failure] at hconfig
  · rename_i hgains
    simp only [not_or, Bool.not_eq_true', Bool.not_eq_false] at hgains
    obtain ⟨-, -, hteamSpecialization, hteamGroup, hspecializationGroup⟩ := hgains
    unfold PlaybackState.gainOf
    split
    · split
      · split
        · exact validGain_mul hvolume hteamGroup
        · split
          · exact validGain_mul hvolume hteamSpecialization
          · exact hvolume
      · split
        · exact validGain_mul hvolume hspecializationGroup
        · exact hvolume
      · exact hvolume
    · simp [validGain]

theorem WellFormed.decided_gain (h : p.WellFormed) {stream : AvailableRemoteAudio}
    (hs : stream ∈ p.decided) : validGain stream.gain = true := by
  unfold decided at hs
  obtain ⟨before, -, rfl⟩ := List.mem_map.mp hs
  exact h.gainOf _ _ before

/-- An operation does nothing, or changes the state to a well-formed one and recomputes. -/
theorem WellFormed.call (h : p.WellFormed) (op : PlaybackOp) :
    op.call p = (p, [])
      ∨ ∃ p₁ : PlaybackState, p₁.WellFormed ∧ op.call p = p₁.recomputePlaybackLocked := by
  cases op with
  | setAudioEngineConfig config =>
    simp only [PlaybackOp.call, setAudioEngineConfig]
    split
    · rename_i hvalid
      exact .inr ⟨{ p with audioConfig := config }, ⟨h.nodup, h.named, hvalid, h.volumes⟩, rfl⟩
    · exact .inl rfl
  | setParticipantMuted participantId muted =>
    simp only [PlaybackOp.call, setParticipantMuted, updateParticipantFlag]
    split
    · exact .inl rfl
    · refine .inr ⟨_, ?_, rfl⟩
      exact ⟨h.nodup, h.named, h.config, h.volumes⟩
  | setParticipantBlocked participantId blocked =>
    simp only [PlaybackOp.call, setParticipantBlocked, updateParticipantFlag]
    split
    · exact .inl rfl
    · refine .inr ⟨_, ?_, rfl⟩
      exact ⟨h.nodup, h.named, h.config, h.volumes⟩
  | setParticipantVolume participantId volume =>
    simp only [PlaybackOp.call, setParticipantVolume]
    split
    · exact .inl rfl
    · rename_i hvolume
      simp only [not_or, Bool.not_eq_true', Bool.not_eq_false] at hvolume
      refine .inr ⟨_, ?_, rfl⟩
      refine ⟨h.nodup, h.named, h.config, fun id v hv => ?_⟩
      split at hv
      · rw [Std.ExtTreeMap.getElem?_erase] at hv
        split at hv
        · cases hv
        · exact h.volumes id v hv
      · rw [Std.ExtTreeMap.getElem?_insert] at hv
        split at hv
        · cases hv
          exact hvolume.2
        · exact h.volumes id v hv
  | onRemoteAudioAvailable key =>
    simp only [PlaybackOp.call, onRemoteAudioAvailable]
    split
    · exact .inl rfl
    · rename_i hnew
      simp only [not_or, List.any_eq_true, decide_eq_true_eq, not_exists, not_and] at hnew
      refine .inr ⟨_, ?_, rfl⟩
      refine ⟨?_, ?_, h.config, h.volumes⟩
      · simp only [listed, List.map_append, List.map_cons, List.map_nil]
        refine List.Nodup.append h.nodup (List.nodup_singleton _) ?_
        rw [List.disjoint_singleton]
        intro hmem
        obtain ⟨stream, hstream, hkey⟩ := List.mem_map.mp hmem
        exact hnew.2 stream hstream hkey
      · intro other hother
        simp only [listed, List.map_append, List.map_cons, List.map_nil] at hother
        rcases List.mem_append.mp hother with hold | hone
        · exact h.named other hold
        · rw [List.mem_singleton.mp hone]
          exact hnew.1
  | onRemoteAudioUnavailable key =>
    have hsub : ({ p with
        availableRemoteAudio := p.availableRemoteAudio.filter fun stream => stream.key ≠ key }
          : PlaybackState).listed.Sublist p.listed := List.filter_sublist.map _
    refine .inr ⟨_, ?_, rfl⟩
    exact ⟨h.nodup.sublist hsub, fun other hother => h.named other (hsub.subset hother), h.config,
      h.volumes⟩

/-- A stream is listed until it becomes unavailable, from when it becomes available under the name
of a participant. -/
theorem mem_listed_call (op : PlaybackOp) (key : RemoteStreamKey) :
    key ∈ (op.call p).1.listed ↔ (key ∈ p.listed ∧ op ≠ .onRemoteAudioUnavailable key)
      ∨ (op = .onRemoteAudioAvailable key ∧ key.participantId ≠ []) := by
  cases op with
  | setAudioEngineConfig config =>
    simp only [PlaybackOp.call, setAudioEngineConfig]
    split <;> simp
    rfl
  | setParticipantMuted participantId muted =>
    simp only [PlaybackOp.call, setParticipantMuted, updateParticipantFlag]
    split <;> simp
    rfl
  | setParticipantBlocked participantId blocked =>
    simp only [PlaybackOp.call, setParticipantBlocked, updateParticipantFlag]
    split <;> simp
    rfl
  | setParticipantVolume participantId volume =>
    simp only [PlaybackOp.call, setParticipantVolume]
    split <;> simp
    rfl
  | onRemoteAudioAvailable added =>
    simp only [PlaybackOp.call, onRemoteAudioAvailable]
    split
    · rename_i hold
      have hadded : added = key → key.participantId ≠ [] → key ∈ p.listed := by
        rintro rfl hnamed
        simpa [listed, hnamed] using hold
      simp only [ne_eq, reduceCtorEq, not_false_eq_true, and_true,
        PlaybackOp.onRemoteAudioAvailable.injEq]
      exact ⟨.inl, fun h => h.elim id fun hkey => hadded hkey.1 hkey.2⟩
    · rename_i hnew
      rw [recompute_listed]
      simp only [not_or] at hnew
      have hadded : key = added → key.participantId ≠ [] := fun hkey => hkey ▸ hnew.1
      simp only [listed, List.map_append, List.map_cons, List.map_nil, List.mem_append,
        List.mem_singleton, ne_eq, reduceCtorEq, not_false_eq_true, and_true,
        PlaybackOp.onRemoteAudioAvailable.injEq]
      exact or_congr_right ⟨fun hkey => ⟨hkey.symm, hadded hkey⟩, fun hkey => hkey.1.symm⟩
  | onRemoteAudioUnavailable removed =>
    simp only [PlaybackOp.call, onRemoteAudioUnavailable]
    rw [recompute_listed]
    simp only [listed, List.mem_map, List.mem_filter, decide_eq_true_eq, ne_eq,
      PlaybackOp.onRemoteAudioUnavailable.injEq, reduceCtorEq, false_and, or_false]
    constructor
    · rintro ⟨stream, ⟨hstream, hne⟩, rfl⟩
      exact ⟨⟨stream, hstream, rfl⟩, fun heq => hne heq.symm⟩
    · rintro ⟨⟨stream, hstream, rfl⟩, hne⟩
      exact ⟨stream, ⟨hstream, fun heq => hne heq.symm⟩, rfl⟩

/-! ## What is announced -/

/-- Of every available stream the last decision issued is the one the client keeps, and no
suppressed stream is admitted. -/
structure Announced (p : PlaybackState) (issued : List PlaybackChange) : Prop where
  wellFormed : p.WellFormed
  last : ∀ stream ∈ p.availableRemoteAudio,
    lastOf PlaybackChange.key stream.key issued = some stream.change
  suppressed : ∀ stream ∈ p.availableRemoteAudio,
    p.suppressed stream.key.participantId = true → stream.admitted = false

/-- The decisions of a recomputation name every stream once. -/
theorem WellFormed.change_unique (h : p.WellFormed) {stream : AvailableRemoteAudio}
    {change : PlaybackChange} (hs : stream ∈ p.decided)
    (hchange : change ∈ p.recomputePlaybackLocked.2) (hkey : change.key = stream.key) :
    change = stream.change := by
  obtain ⟨other, hother, rfl⟩ := List.mem_map.mp hchange
  have hnodup : (p.decided.map AvailableRemoteAudio.key).Nodup :=
    decided_keys.nodup_iff.mpr h.nodup
  rw [List.inj_on_of_nodup_map hnodup hother hs hkey]

theorem Announced.recompute {issued : List PlaybackChange} (h : p.WellFormed) :
    Announced p.recomputePlaybackLocked.1 (issued ++ p.recomputePlaybackLocked.2) where
  wellFormed := h.recompute
  last stream hs := by
    have hmem := mem_recompute hs
    have hlast : lastOf PlaybackChange.key stream.key p.recomputePlaybackLocked.2
        = some stream.change :=
      lastOf_of_unique (List.mem_map_of_mem hmem) rfl fun _ => h.change_unique hmem
    rw [lastOf_append, hlast, Option.some_or]
  suppressed stream hs hsup := decided_suppressed (mem_recompute hs) hsup

/-- Every locked section keeps the announcement. -/
theorem Announced.call {issued : List PlaybackChange} (h : Announced p issued) (op : PlaybackOp) :
    Announced (op.call p).1 (issued ++ (op.call p).2) := by
  rcases h.wellFormed.call op with hsame | ⟨p₁, hp₁, hcall⟩
  · rw [hsame, List.append_nil]
    exact h
  · rw [hcall]
    exact .recompute hp₁

end PlaybackState

open PlaybackState

/-! ## Runs -/

/-- Once nothing is waiting, the transport was last told of every available stream what the client
keeps of it; of a muted or blocked participant, that it is not admitted. -/
theorem last_decision_delivered {as : List PlaybackStep} {c : PlaybackConfig}
    (h : Runs (step playback) (InOrder playback PlaybackChange.key) (start {} ()) as c)
    (hidle : ∀ t, c.pending t = []) :
    ∀ stream ∈ c.state.availableRemoteAudio,
      lastOf PlaybackChange.key stream.key c.delivered
        = some ⟨stream.key, stream.admitted, stream.gain⟩
      ∧ (c.state.suppressed stream.key.participantId = true → stream.admitted = false) := by
  intro stream hstream
  have hannounced : Announced c.state c.issued := by
    refine issued_invariant (J := Announced) ⟨wellFormed_default, ?_, ?_⟩ (fun p l op hp => ?_) h
    · simp
    · simp
    · have := hp.call op
      rwa [playback, List.append_nil]
  have hsettled : Settled PlaybackChange.key c stream.key := by
    intro t p hp
    rw [hidle t] at hp
    cases hp
  refine ⟨?_, hannounced.suppressed stream hstream⟩
  rw [last_delivered h hsettled]
  exact hannounced.last stream hstream

section Runs

def aliceInTeam : RemoteStreamKey := ⟨.team, bytes "alice"⟩

/-- The stream of `alice` becomes available on one thread and she is muted on another. -/
def availableThenMuted : List PlaybackStep :=
  [.call 0 (.onRemoteAudioAvailable aliceInTeam) fun _ => (),
    .call 1 (.setParticipantMuted (bytes "alice") true) fun _ => ()]

/-- The decisions are handed on in the order they were computed. -/
theorem last_decision_delivered_muted : ∃ c : PlaybackConfig,
    Runs (step playback) (InOrder playback PlaybackChange.key) (start {} ())
      (availableThenMuted ++ [.deliver 0 (), .deliver 1 ()]) c
      ∧ lastOf PlaybackChange.key aliceInTeam c.delivered = some ⟨aliceInTeam, false, 0⟩ := by
  obtain ⟨c, hrun, hc⟩ := exists_guarded_run (C := playback) (n := 2) (s := {}) (r := ())
    (g := inOrderOn playback PlaybackChange.key 2)
    (availableThenMuted ++ [.deliver 0 (), .deliver 1 ()])
    (p := fun c => idleOn 2 c
      && decide (c.state.availableRemoteAudio = [⟨aliceInTeam, 0, false, 0⟩]))
    (fun _ _ => inOrder_of_inOrderOn) (by decide) (by decide +kernel)
  rw [Bool.and_eq_true, decide_eq_true_eq] at hc
  have hidle := idle_of_idleOn (onThreads_of_runs hrun (by decide) fun _ _ => rfl) hc.1
  refine ⟨c, hrun, (last_decision_delivered hrun hidle ⟨aliceInTeam, 0, false, 0⟩ ?_).1⟩
  rw [hc.2]
  exact List.mem_singleton_self _

/-- The decision that `alice` is suppressed overtakes the one that admits her: nothing is waiting,
she is muted, and the transport was last told to admit her. -/
theorem muted_last_admitted : ∃ c : PlaybackConfig,
    Runs (step playback) Free (start {} ())
      (availableThenMuted ++ [.deliver 1 (), .deliver 0 ()]) c
      ∧ (∀ t, c.pending t = []) ∧ c.state.suppressed (bytes "alice") = true
      ∧ c.state.availableRemoteAudio = [⟨aliceInTeam, 0, false, 0⟩]
      ∧ lastOf PlaybackChange.key aliceInTeam c.delivered = some ⟨aliceInTeam, true, 1⟩ := by
  obtain ⟨c, hrun, hidle, hc⟩ := exists_idle_run (C := playback) (n := 2) (s := {}) (r := ())
    (availableThenMuted ++ [.deliver 1 (), .deliver 0 ()])
    (p := fun c => decide (c.state.suppressed (bytes "alice") = true
      ∧ c.state.availableRemoteAudio = [⟨aliceInTeam, 0, false, 0⟩]
      ∧ lastOf PlaybackChange.key aliceInTeam c.delivered = some ⟨aliceInTeam, true, 1⟩))
    (by decide) (by decide +kernel)
  exact ⟨c, hrun, hidle, of_decide_eq_true hc⟩

end Runs

end VoxTree

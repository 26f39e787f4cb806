import VoxTree.Proofs.Playback
import VoxTree.RemoteAudio

/-!
# Client and transport agree on remote streams

In a run of harmless steps the client lists exactly the streams the transport keeps a publication
of, and a publication is admitted exactly if its stream is (`InStep`). Whatever changes what is
decided makes the client decide about all streams again, and each decision overwrites the flag of
its publication, so only the steps that change one list without the other matter.
-/

namespace VoxTree

open Machine Deferred

namespace LiveKitVoiceTransport

variable {t : LiveKitVoiceTransport}

/-! ## Publications -/

@[simp] theorem publication_setPublication (key other : RemoteStreamKey)
    (publication : RemoteAudioPublication) :
    (t.setPublication key publication).publication other
      = if other = key then some publication else t.publication other := by
  obtain ⟨scope, participantId⟩ := key
  obtain ⟨otherScope, otherId⟩ := other
  by_cases hscope : otherScope = scope
  · subst hscope
    by_cases hid : otherId = participantId
    · simp [LiveKitVoiceTransport.publication, setPublication, hid]
    · have hne : participantId ≠ otherId := fun heq => hid heq.symm
      simp [LiveKitVoiceTransport.publication, setPublication, Std.ExtTreeMap.getElem?_insert,
        hid, hne]
  · simp [LiveKitVoiceTransport.publication, setPublication, hscope]

@[simp] theorem publication_erasePublication (key other : RemoteStreamKey) :
    (t.erasePublication key).publication other
      = if other = key then none else t.publication other := by
  obtain ⟨scope, participantId⟩ := key
  obtain ⟨otherScope, otherId⟩ := other
  by_cases hscope : otherScope = scope
  · subst hscope
    by_cases hid : otherId = participantId
    · simp [LiveKitVoiceTransport.publication, erasePublication, hid]
    · have hne : participantId ≠ otherId := fun heq => hid heq.symm
      simp [LiveKitVoiceTransport.publication, erasePublication, Std.ExtTreeMap.getElem?_erase,
        hid, hne]
  · simp [LiveKitVoiceTransport.publication, erasePublication, hscope]

@[simp] theorem publication_resetRemotePublications (key : RemoteStreamKey) :
    t.resetRemotePublications.publication key = none := by
  simp [LiveKitVoiceTransport.publication, resetRemotePublications]

/-! ## Decisions -/

/-- What a decision makes of a publication. -/
def configured (publication : RemoteAudioPublication) (change : PlaybackChange) :
    RemoteAudioPublication :=
  { publication with
    admitted := change.admitted
    gain := if change.admitted then change.gain else 0 }

/-- What the transport does not reject. -/
def Accepted (change : PlaybackChange) : Prop :=
  change.key.participantId ≠ [] ∧ PlaybackState.validGain change.gain = true

theorem configureRemoteAudio_backend (change : PlaybackChange) (sdkError : Option Bytes) :
    (t.configureRemoteAudio change sdkError).1.playoutInitializationError
      = t.playoutInitializationError := by
  unfold configureRemoteAudio
  split
  · rfl
  · split
    · rfl
    · split <;> rfl

theorem configureRemoteAudio_publication {change : PlaybackChange}
    (hbackend : t.playoutInitializationError = none) (hchange : Accepted change)
    (sdkError : Option Bytes) (key : RemoteStreamKey) :
    (t.configureRemoteAudio change sdkError).1.publication key
      = if change.key = key then (t.publication key).map (configured · change)
        else t.publication key := by
  unfold configureRemoteAudio
  obtain ⟨hnamed, hgain⟩ := hchange
  simp only [hnamed, hgain, Bool.not_true, Bool.false_eq_true, or_self, if_false, hbackend]
  split
  · rename_i herror
    cases herror
  · rcases hpublication : t.publication change.key with _ | publication
    · by_cases hkey : change.key = key
      · simp [← hkey, hpublication]
      · simp [hkey]
    · by_cases hkey : change.key = key
      · subst hkey
        simp [hpublication, configured]
      · simp [hkey, Ne.symm hkey]

/-- Of every publication the last decision about it counts. -/
theorem applyPlaybackChanges_publication (sdk : PlaybackChange → Option Bytes)
    (changes : List PlaybackChange) (hbackend : t.playoutInitializationError = none)
    (hchanges : ∀ change ∈ changes, Accepted change) (key : RemoteStreamKey) :
    (t.applyPlaybackChanges sdk changes).1.playoutInitializationError = none
      ∧ (t.applyPlaybackChanges sdk changes).1.publication key
        = (t.publication key).map fun publication =>
            ((lastOf PlaybackChange.key key changes).map (configured publication)).getD
              publication := by
  induction changes using List.reverseRecOn with
  | nil =>
    refine ⟨hbackend, ?_⟩
    simp [applyPlaybackChanges]
  | append_singleton changes change ih =>
    obtain ⟨ihbackend, ih⟩ :=
      ih fun other hother => hchanges other (List.mem_append_left _ hother)
    have hlast : (t.applyPlaybackChanges sdk (changes ++ [change])).1
        = ((t.applyPlaybackChanges sdk changes).1.configureRemoteAudio change (sdk change)).1 := by
      simp [applyPlaybackChanges]
    have hchange : Accepted change := hchanges change (by simp)
    rw [hlast, configureRemoteAudio_backend, lastOf_append, lastOf_singleton]
    refine ⟨ihbackend, ?_⟩
    rw [configureRemoteAudio_publication ihbackend hchange, ih]
    split
    · rcases t.publication key with _ | publication
      · rfl
      · rcases lastOf PlaybackChange.key key changes with _ | earlier <;> rfl
    · rfl

end LiveKitVoiceTransport

namespace RemoteAudio

open LiveKitVoiceTransport PlaybackState

/-! ## The invariant -/

structure InStep (s : State) : Prop where
  wellFormed : s.client.playback.WellFormed
  suppressed : ∀ stream ∈ s.client.playback.availableRemoteAudio,
    s.client.playback.suppressed stream.key.participantId = true → stream.admitted = false
  listed : ∀ key, (s.transport.publication key).isSome = true ↔ key ∈ s.client.playback.listed
  admitted : ∀ stream ∈ s.client.playback.availableRemoteAudio, ∀ publication,
    s.transport.publication stream.key = some publication → publication.admitted = stream.admitted

theorem InStep.agreement {s : State} (h : InStep s) : Agreement s := by
  intro key publication hpublication
  have hlisted : key ∈ s.client.playback.listed := by
    rw [← h.listed key, hpublication]
    rfl
  obtain ⟨stream, hstream, rfl⟩ := List.mem_map.mp hlisted
  exact ⟨stream, hstream, rfl, h.admitted stream hstream publication hpublication⟩

/-- A client that lists nothing is in step with a transport that keeps nothing. -/
theorem InStep.of_empty {s : State} (hwf : s.client.playback.WellFormed)
    (hlist : s.client.playback.availableRemoteAudio = [])
    (hnone : ∀ key, s.transport.publication key = none) : InStep s where
  wellFormed := hwf
  suppressed stream hs := by
    rw [hlist] at hs
    cases hs
  listed key := by simp [hnone key, PlaybackState.listed, hlist]
  admitted stream hs := by
    rw [hlist] at hs
    cases hs

theorem publication_of_keepsNone {s : State} (h : keepsNone s = true) (key : RemoteStreamKey) :
    s.transport.publication key = none := by
  obtain ⟨scope, participantId⟩ := key
  have hempty : (s.transport.remotePublications scope).isEmpty = true := by
    simp only [keepsNone, List.all_eq_true] at h
    refine h scope ?_
    cases scope <;> simp
  simp [LiveKitVoiceTransport.publication,
    Std.ExtTreeMap.isEmpty_iff.mp hempty]

theorem WellFormed.clear {p : PlaybackState} (h : p.WellFormed) :
    WellFormed { p with availableRemoteAudio := [] } where
  nodup := List.nodup_nil
  named := by simp [PlaybackState.listed]
  config := h.config
  volumes := h.volumes

/-- Dropping the list is in step with a transport that keeps nothing. -/
theorem InStep.enter_of_none {s : State} (h : s.client.playback.WellFormed)
    (hnone : ∀ key, s.transport.publication key = none) {state : VoiceTransportState}
    (hstate : state ≠ .connected) : InStep (s.enter state) := by
  have hplayback : (s.enter state).client.playback
      = { s.client.playback with availableRemoteAudio := [] } := by
    simp [State.enter, VoiceClient.onTransportStateChanged, hstate]
  refine .of_empty ?_ ?_ hnone
  · rw [hplayback]
    exact WellFormed.clear h
  · rw [hplayback]

theorem InStep.enter_connected {s : State} (h : InStep s) : InStep (s.enter .connected) :=
  ⟨h.wellFormed, h.suppressed, h.listed, h.admitted⟩

/-- The step lemma of every operation: it is enough that the operation leaves listed what the
transport keeps, and that the two are in step if it does nothing. -/
theorem InStep.playbackOp {s : State} {sdk : PlaybackChange → Option Bytes} {op : PlaybackOp}
    (hwf : s.client.playback.WellFormed)
    (hbackend : s.transport.playoutInitializationError = none)
    (hlisted : ∀ key, (s.transport.publication key).isSome = true
      ↔ key ∈ (op.call s.client.playback).1.listed)
    (hsame : op.call s.client.playback = (s.client.playback, []) → InStep s) :
    InStep (s.playbackOp sdk op) := by
  rcases hwf.call op with hcall | ⟨p, hp, hcall⟩
  · have hs : s.playbackOp sdk op = s := by
      simp [State.playbackOp, hcall, applyPlaybackChanges]
    rw [hs]
    exact hsame hcall
  · have hannounced : Announced p.recomputePlaybackLocked.1 ([] ++ p.recomputePlaybackLocked.2) :=
      .recompute hp
    have haccepted : ∀ change ∈ p.recomputePlaybackLocked.2, Accepted change := by
      intro change hchange
      obtain ⟨stream, hstream, rfl⟩ := List.mem_map.mp hchange
      refine ⟨hp.named _ (decided_keys.mem_iff.mp (List.mem_map_of_mem hstream)), ?_⟩
      exact hp.decided_gain hstream
    have hpublication := fun key =>
      (applyPlaybackChanges_publication sdk p.recomputePlaybackLocked.2 hbackend haccepted key).2
    simp only [hcall] at hlisted
    simp only [State.playbackOp, hcall]
    refine ⟨hannounced.wellFormed, hannounced.suppressed, fun key => ?_, ?_⟩
    · rw [hpublication, Option.isSome_map]
      exact hlisted key
    · intro stream hstream publication hsome
      have hlast := hannounced.last stream hstream
      rw [List.nil_append] at hlast
      rw [hpublication, hlast] at hsome
      obtain ⟨before, -, rfl⟩ := Option.map_eq_some_iff.mp hsome
      rfl

/-! ## Steps -/

variable {s : State}

/-- Operations that neither list a stream nor end one. -/
theorem InStep.command (h : InStep s) (hbackend : s.transport.playoutInitializationError = none)
    {sdk : PlaybackChange → Option Bytes} {op : PlaybackOp}
    (havailable : ∀ key, op ≠ .onRemoteAudioAvailable key)
    (hunavailable : ∀ key, op ≠ .onRemoteAudioUnavailable key) : InStep (s.playbackOp sdk op) := by
  refine .playbackOp h.wellFormed hbackend (fun key => ?_) fun _ => h
  rw [mem_listed_call, h.listed key]
  simp [havailable key, hunavailable key]

theorem InStep.erased (h : InStep s) (hbackend : s.transport.playoutInitializationError = none)
    (sdk : PlaybackChange → Option Bytes) (key : RemoteStreamKey) :
    InStep ({ s with transport := s.transport.erasePublication key }.playbackOp sdk
      (.onRemoteAudioUnavailable key)) := by
  have hlisted : ∀ other, ((s.transport.erasePublication key).publication other).isSome = true
      ↔ other ∈ (PlaybackOp.call s.client.playback (.onRemoteAudioUnavailable key)).1.listed := by
    intro other
    rw [mem_listed_call, publication_erasePublication, ← h.listed other]
    by_cases hkey : other = key
    · simp [hkey]
    · simp [hkey, Ne.symm hkey]
  refine .playbackOp h.wellFormed hbackend hlisted fun hcall => ?_
  -- nothing was done, so the stream was not listed
  have hgone : key ∉ s.client.playback.listed := by
    have := (hlisted key).not
    rw [hcall] at this
    rw [← this, publication_erasePublication]
    simp
  refine ⟨h.wellFormed, h.suppressed, fun other => ?_, fun stream hstream publication hsome => ?_⟩
  · rw [hlisted other, hcall]
  · refine h.admitted stream hstream publication ?_
    have hne : stream.key ≠ key := by
      rintro rfl
      exact hgone (List.mem_map_of_mem hstream)
    rw [← hsome, publication_erasePublication, if_neg hne]

theorem InStep.remoteAudioAvailable (h : InStep s)
    (hbackend : s.transport.playoutInitializationError = none)
    (sdk : PlaybackChange → Option Bytes) {key : RemoteStreamKey} {publicationId : Bytes}
    {generation : ℕ}
    (hg : (!s.transport.isCurrentRoomGeneration generation
      || key.participantId ≠ [] && (s.transport.publication key).all fun existing =>
        existing.publicationId = publicationId || !existing.admitted) = true) :
    InStep (s.remoteAudioAvailable sdk key publicationId generation) := by
  unfold State.remoteAudioAvailable
  split
  · exact h
  · rename_i hcurrent
    split
    · exact h
    · rename_i hother
      simp only [Bool.not_eq_true', Bool.not_eq_false] at hcurrent
      simp only [hcurrent, Bool.not_true, Bool.false_or, Bool.and_eq_true, decide_eq_true_eq] at hg
      have hlisted : ∀ other,
          ((s.transport.setPublication key { publicationId }).publication other).isSome = true
            ↔ other ∈ (PlaybackOp.call s.client.playback
              (.onRemoteAudioAvailable key)).1.listed := by
        intro other
        rw [mem_listed_call, publication_setPublication, ← h.listed other]
        by_cases hkey : other = key
        · simp [hkey, hg.1]
        · simp [hkey, Ne.symm hkey]
      refine .playbackOp h.wellFormed hbackend hlisted fun hcall => ?_
      refine ⟨h.wellFormed, h.suppressed, fun o => ?_, fun stream hstream publication hsome => ?_⟩
      · rw [hlisted o, hcall]
      · rw [publication_setPublication] at hsome
        split at hsome
        · rename_i hkey
          cases hsome
          -- the old publication was not admitted, so neither is the stream
          obtain ⟨existing, hexisting⟩ := Option.isSome_iff_exists.mp
            ((h.listed key).mpr (hkey ▸ List.mem_map_of_mem hstream))
          have hold := h.admitted stream hstream existing (by rw [hkey, hexisting])
          simp only [hexisting, Option.any_some, Option.all_some, decide_eq_true_eq] at hother hg
          simp only [hother, decide_false, Bool.false_or, Bool.not_eq_true'] at hg
          rw [← hold, hg.2]
        · exact h.admitted stream hstream publication hsome

theorem InStep.remoteAudioUnavailable (h : InStep s)
    (hbackend : s.transport.playoutInitializationError = none)
    (sdk : PlaybackChange → Option Bytes) (key : RemoteStreamKey) (publicationId : Bytes)
    (generation : ℕ) : InStep (s.remoteAudioUnavailable sdk key publicationId generation) := by
  unfold State.remoteAudioUnavailable
  split
  · exact h
  · split
    · exact h.erased hbackend sdk key
    · exact h

theorem InStep.participantDisconnected (h : InStep s)
    (hbackend : s.transport.playoutInitializationError = none)
    (sdk : PlaybackChange → Option Bytes) (key : RemoteStreamKey) (generation : ℕ) :
    InStep (s.participantDisconnected sdk key generation) := by
  unfold State.participantDisconnected
  split
  · exact h
  · split
    · exact h.erased hbackend sdk key
    · exact h

theorem InStep.roomState (h : InStep s) {state : VoiceTransportState} {generation : ℕ}
    (hg : state ≠ .connected →
      (!s.transport.isCurrentRoomGeneration generation || keepsNone s) = true) :
    InStep (s.roomState state generation) := by
  unfold State.roomState
  split
  · exact h
  · rename_i hcurrent
    by_cases hstate : state = .connected
    · rw [hstate]
      exact h.enter_connected
    · refine .enter_of_none h.wellFormed (fun key => ?_) hstate
      have hnone := hg hstate
      simp only [Bool.or_eq_true, hcurrent, Bool.false_eq_true, false_or] at hnone
      exact publication_of_keepsNone hnone key

theorem InStep.connectBegin (h : InStep s) {grants : List VoiceRoomGrant}
    (hg : (!(VoiceClient.validateGrants grants).ok || s.client.state ≠ .disconnected
      || s.transport.state ≠ .disconnected || keepsNone s) = true) :
    InStep (s.connectBegin grants) := by
  unfold State.connectBegin
  split
  · exact h
  · rename_i hidle
    split
    · exact ⟨h.wellFormed, h.suppressed, h.listed, h.admitted⟩
    · rename_i hready
      have hnone : keepsNone s = true := by
        simp only [not_or, Bool.not_eq_true', Bool.not_eq_false, ne_eq, not_not] at hidle hready
        simpa [hidle.1, hidle.2, hready.1] using hg
      exact .of_empty (WellFormed.clear h.wellFormed) rfl (publication_of_keepsNone hnone)

theorem InStep.connectEnd (h : InStep s) {connected : Bool}
    (hg : connected = false → keepsNone s = true) : InStep (s.connectEnd connected) := by
  unfold State.connectEnd
  split
  · exact ⟨h.wellFormed, h.suppressed, h.listed, h.admitted⟩
  · rename_i hfailed
    have hnone := publication_of_keepsNone (hg (by simpa using hfailed))
    exact .of_empty (WellFormed.clear h.wellFormed) rfl hnone

theorem InStep.disconnect (h : InStep s) (stopped : VoiceTransportResult) :
    InStep (s.disconnect stopped) := by
  unfold State.disconnect
  split
  · exact h
  · split
    · exact h
    · split
      · exact h
      · exact .of_empty (WellFormed.clear h.wellFormed) rfl fun key =>
          publication_resetRemotePublications (t := s.transport) key

theorem InStep.step (h : InStep s) {a : Action} {s' : State} (hg : harmless s a = true)
    (hs : step s a = some s') : InStep s' := by
  unfold RemoteAudio.step at hs
  unfold harmless at hg
  rw [Bool.and_eq_true, Option.isNone_iff_eq_none] at hg
  obtain ⟨hbackend, hg⟩ := hg
  split at hs
  · cases hs
  · obtain ⟨event, sdk⟩ := a
    cases event with
    | connectBegin grants =>
      cases hs
      exact h.connectBegin hg
    | connectEnd connected =>
      simp only at hs
      split at hs
      · cases hs
        refine h.connectEnd fun hfailed => ?_
        rw [hfailed] at hg
        exact hg
      · cases hs
    | disconnect stopped =>
      cases hs
      exact h.disconnect stopped
    | setAudioEngineConfig config =>
      cases hs
      exact h.command hbackend (fun _ => nofun) fun _ => nofun
    | setParticipantMuted participantId muted =>
      cases hs
      exact h.command hbackend (fun _ => nofun) fun _ => nofun
    | setParticipantBlocked participantId blocked =>
      cases hs
      exact h.command hbackend (fun _ => nofun) fun _ => nofun
    | setParticipantVolume participantId volume =>
      cases hs
      exact h.command hbackend (fun _ => nofun) fun _ => nofun
    | trackPublished key publicationId generation =>
      cases hs
      exact h.remoteAudioAvailable hbackend sdk hg
    | trackUnpublished key publicationId generation =>
      cases hs
      exact h.remoteAudioUnavailable hbackend sdk key publicationId generation
    | participantDisconnected key generation =>
      cases hs
      exact h.participantDisconnected hbackend sdk key generation
    | reconnecting generation =>
      cases hs
      exact h.roomState fun _ => hg
    | reconnected generation allRoomsConnected =>
      cases hs
      split
      · exact h.roomState fun hne => absurd rfl hne
      · exact h
    | roomDisconnected generation =>
      cases hs
      exact h.roomState fun _ => hg

/-! ## Runs -/

/-- In every run of harmless steps the client lists what the transport keeps and the two agree on
what is admitted, so nothing of a muted or blocked participant is. -/
theorem remote_streams_agree {playoutInitializationError : Option Bytes} {as : List Action}
    {s : State} (h : Runs step (fun s a => harmless s a = true)
      (initial playoutInitializationError) as s) :
    Agreement s ∧ ∀ key publication, s.transport.publication key = some publication →
      s.client.playback.suppressed key.participantId = true → publication.admitted = false := by
  have hstart : InStep (initial playoutInitializationError) :=
    .of_empty wellFormed_default rfl fun key => by
      simp [initial, LiveKitVoiceTransport.publication]
  have hinStep : InStep s := h.invariant (fun s a s' hs hg hstep => hs.step hg hstep) hstart
  refine ⟨hinStep.agreement, fun key publication hpublication hsup => ?_⟩
  obtain ⟨stream, hstream, hkey, hadmitted⟩ := hinStep.agreement key publication hpublication
  rw [hadmitted]
  exact hinStep.suppressed stream hstream (by rw [hkey]; exact hsup)

section Runs

def teamGrant : VoiceRoomGrant := ⟨.team, bytes "wss://voice", bytes "token"⟩

/-- The client connects to the room of the team, where `alice` publishes her microphone. -/
def aliceHeard : List Action :=
  [{ event := .connectBegin [teamGrant] }, { event := .connectEnd true },
    { event := .trackPublished aliceInTeam (bytes "first") 1 }]

/-- She is muted, and publishes her microphone anew. -/
theorem remote_streams_agree_muted : ∃ s : State,
    Runs step (fun s a => harmless s a = true) (initial none)
        (aliceHeard ++ [{ event := .setParticipantMuted (bytes "alice") true },
          { event := .trackPublished aliceInTeam (bytes "second") 1 }]) s
      ∧ s.client.state = .connected ∧ Agreement s
      ∧ s.transport.publication aliceInTeam = some ⟨bytes "second", false, 0⟩ := by
  obtain ⟨s, hrun, hs⟩ := exists_run_restrict harmless step
    (aliceHeard ++ [{ event := .setParticipantMuted (bytes "alice") true },
      { event := .trackPublished aliceInTeam (bytes "second") 1 }])
    (s := initial none)
    (p := fun s => decide (s.client.state = .connected
      ∧ s.transport.publication aliceInTeam = some ⟨bytes "second", false, 0⟩))
    (by decide +kernel)
  obtain ⟨hconnected, hpublication⟩ := of_decide_eq_true hs
  exact ⟨s, hrun, hconnected, (remote_streams_agree hrun).1, hpublication⟩

/-- She publishes her microphone anew while it is admitted: the client, which lists her, decides
nothing, and the new publication stays refused. Or the room reconnects: the client drops her from
its list, and the publication the transport kept stays admitted, also after the SDK reports it
again. -/
theorem remote_streams_disagree :
    (∃ s : State, Runs step Free (initial none)
        (aliceHeard ++ [{ event := .trackPublished aliceInTeam (bytes "second") 1 }]) s
      ∧ s.client.state = .connected ∧ ¬ Agreement s)
    ∧ ∃ s : State, Runs step Free (initial none)
        (aliceHeard ++ [{ event := .reconnecting 1 }, { event := .reconnected 1 true },
          { event := .trackPublished aliceInTeam (bytes "first") 1 }]) s
      ∧ s.client.state = .connected ∧ ¬ Agreement s := by
  constructor
  · obtain ⟨s, hrun, hs⟩ := exists_run step
      (aliceHeard ++ [{ event := .trackPublished aliceInTeam (bytes "second") 1 }])
      (s := initial none)
      (p := fun s => decide (s.client.state = .connected
        ∧ s.transport.publication aliceInTeam = some ⟨bytes "second", false, 0⟩
        ∧ s.client.playback.availableRemoteAudio = [⟨aliceInTeam, 0, true, 1⟩]))
      (by decide +kernel)
    obtain ⟨hconnected, hpublication, hlist⟩ := of_decide_eq_true hs
    refine ⟨s, hrun, hconnected, fun hagree => ?_⟩
    obtain ⟨stream, hstream, -, hadmitted⟩ := hagree _ _ hpublication
    rw [hlist, List.mem_singleton] at hstream
    simp [hstream] at hadmitted
  · obtain ⟨s, hrun, hs⟩ := exists_run step
      (aliceHeard ++ [{ event := .reconnecting 1 }, { event := .reconnected 1 true },
        { event := .trackPublished aliceInTeam (bytes "first") 1 }])
      (s := initial none)
      (p := fun s => decide (s.client.state = .connected
        ∧ s.transport.publication aliceInTeam = some ⟨bytes "first", true, 1⟩
        ∧ s.client.playback.availableRemoteAudio = []))
      (by decide +kernel)
    obtain ⟨hconnected, hpublication, hlist⟩ := of_decide_eq_true hs
    refine ⟨s, hrun, hconnected, fun hagree => ?_⟩
    obtain ⟨stream, hstream, -⟩ := hagree _ _ hpublication
    rw [hlist] at hstream
    cases hstream

end Runs

end RemoteAudio

end VoxTree

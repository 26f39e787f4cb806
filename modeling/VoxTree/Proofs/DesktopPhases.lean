import Mathlib.Data.List.Induction
import VoxTree.Proofs.VoiceEvents

/-!
# The phases of the desktop model

Signed out means empty, transmitting means ready, and a disconnect that has begun is ended by
`disconnected` or `connectionFailed` only. Four operations do not look at the phase closely enough
for that: `Orderly` is the condition on the model and the operation under which a step is not one of
those, and a run has the three properties in all its states exactly if it is orderly.
-/

namespace VoxTree

namespace Presentation

open Client ValidationResult

/-- The operations that end a disconnect. -/
def Operation.EndsDisconnect : Operation → Prop
  | .disconnected | .connectionFailed .. => True
  | _ => False

/-- The operations that leave the phase and the transmission as they are. -/
def Operation.KeepsPhase : Operation → Prop
  | .updateMembership _ | .selectChannel _ | .applyDirectory _ | .applyPresence _
  | .applyVoiceRemoteEvent _ | .replaceSettings | .setParticipantVolume .. | .setParticipantMuted ..
  | .recordError .. => True
  | _ => False

namespace DesktopModel

variable {m m' : DesktopModel}

/-! ## What is to hold -/

/-- Nothing of a session is left. -/
structure Empty (m : DesktopModel) : Prop where
  membership : m.membership = none
  directory : m.directory = none
  participants : m.participants = ∅
  selectedChannel : m.selectedChannel = none
  presenceVersion : m.presenceVersion = none
  activeTransmissionScope : m.activeTransmissionScope = none

structure Sound (m : DesktopModel) : Prop where
  signedOut : m.connection = .signedOut → m.Empty
  transmitting : m.activeTransmissionScope ≠ none → m.connection = .ready

/-- With what the model counts of voice events, which is nothing as long as it is signed out. -/
structure Inv (m : DesktopModel) : Prop extends Sound m where
  uncounted : m.connection = .signedOut → ∀ id, m.sequencesOf id = {}

/-- From a disconnect that has begun on, the model is disconnecting until it is ended. -/
def StaysDisconnecting (operations : List Operation) : Prop :=
  ∀ before between rest, operations = before ++ .beginDisconnect :: (between ++ rest) →
    (after before).beginDisconnect.1.ok = true →
    (∀ operation ∈ between, ¬operation.EndsDisconnect) →
    (after (before ++ .beginDisconnect :: between)).connection = .disconnecting

/-- The event is neither of an older generation nor older than one that has been taken. -/
def TakesVoiceState (m : DesktopModel) (event : VoiceConnectionEvent) : Prop :=
  m.voiceGeneration < event.generation ∧ 0 < event.sequence
    ∨ m.voiceGeneration = event.generation ∧ m.lastConnectionSequence < event.sequence

/-- The condition on a step. A transmission starts in a ready session; a voice state that is taken
does not take the model out of a disconnect, nor out of ready while it transmits; a model that is
signed out gets no remote event that it takes. -/
def Orderly (m : DesktopModel) : Operation → Prop
  | .transmissionStarted _ => m.connection = .ready
  | .updateVoiceState event => m.TakesVoiceState event →
    match event.state with
    | .disconnected => True
    | .connecting => m.connection ≠ .disconnecting ∧ m.activeTransmissionScope = none
    | .connected => m.connection = .disconnecting → m.membership = none
    | .reconnecting => m.connection ≠ .disconnecting
  | .applyVoiceRemoteEvent event => m.connection = .signedOut →
    event.participantId = [] ∨ event.generation < m.voiceGeneration ∨ event.sequence = 0
  | _ => True

/-! ## Fields -/

/-- The model `m'` agrees with `m` in what the phases are about. -/
structure SamePhase (m m' : DesktopModel) : Prop where
  connection : m'.connection = m.connection
  membership : m'.membership = m.membership
  directory : m'.directory = m.directory
  selectedChannel : m'.selectedChannel = m.selectedChannel
  presenceVersion : m'.presenceVersion = m.presenceVersion
  activeTransmissionScope : m'.activeTransmissionScope = m.activeTransmissionScope
  participants : m.participants = ∅ → m'.participants = ∅
  sequences : (∀ id, m.sequencesOf id = {}) → ∀ id, m'.sequencesOf id = {}

theorem SamePhase.refl (m : DesktopModel) : m.SamePhase m :=
  ⟨rfl, rfl, rfl, rfl, rfl, rfl, id, id⟩

theorem Inv.same (h : m.Inv) (hsame : m.SamePhase m') : m'.Inv where
  signedOut hout := by
    have hempty := h.signedOut (hsame.connection ▸ hout)
    exact {
      membership := hsame.membership.trans hempty.membership
      directory := hsame.directory.trans hempty.directory
      participants := hsame.participants hempty.participants
      selectedChannel := hsame.selectedChannel.trans hempty.selectedChannel
      presenceVersion := hsame.presenceVersion.trans hempty.presenceVersion
      activeTransmissionScope :=
        hsame.activeTransmissionScope.trans hempty.activeTransmissionScope }
  transmitting hscope := by
    rw [hsame.activeTransmissionScope] at hscope
    rw [hsame.connection, h.transmitting hscope]
  uncounted hout := hsame.sequences (h.uncounted (hsame.connection ▸ hout))

/-- In a session only the phase and the transmission count. -/
theorem Inv.of_session (hconnection : m.connection ≠ .signedOut)
    (htransmitting : m.activeTransmissionScope ≠ none → m.connection = .ready) : m.Inv :=
  ⟨⟨fun hout => absurd hout hconnection, htransmitting⟩, fun hout => absurd hout hconnection⟩

/-- A model that has been signed out. -/
theorem Inv.of_empty (hempty : m.Empty) (hsequences : m.participantVoiceSequences = ∅) : m.Inv where
  signedOut _ := hempty
  transmitting h := absurd hempty.activeTransmissionScope h
  uncounted _ id := by simp [sequencesOf, hsequences]

theorem enterGeneration_same (m : DesktopModel) (generation : ℕ) :
    m.SamePhase (m.enterGeneration generation) := by
  unfold enterGeneration
  split_ifs
  · exact ⟨rfl, rfl, rfl, rfl, rfl, rfl, fun h => by simp [clearRemoteTransportState, h],
      fun _ id => by simp [sequencesOf]⟩
  · exact .refl m

theorem recordError_same (m : DesktopModel) (errorCode diagnostic : Bytes) :
    m.SamePhase (m.recordError errorCode diagnostic) :=
  ⟨rfl, rfl, rfl, rfl, rfl, rfl, id, id⟩

theorem applyMembership_phase (m : DesktopModel) (membership : MembershipView) :
    (m.applyMembership membership).connection = m.connection
      ∧ (m.applyMembership membership).activeTransmissionScope = m.activeTransmissionScope := by
  unfold applyMembership
  dsimp only
  split_ifs <;> exact ⟨rfl, rfl⟩

theorem SamePhase.trans {m'' : DesktopModel} (h : m.SamePhase m') (h' : m'.SamePhase m'') :
    m.SamePhase m'' where
  connection := h'.connection.trans h.connection
  membership := h'.membership.trans h.membership
  directory := h'.directory.trans h.directory
  selectedChannel := h'.selectedChannel.trans h.selectedChannel
  presenceVersion := h'.presenceVersion.trans h.presenceVersion
  activeTransmissionScope := h'.activeTransmissionScope.trans h.activeTransmissionScope
  participants := h'.participants ∘ h.participants
  sequences := h'.sequences ∘ h.sequences

/-! ## Voice states -/

/-- A voice state is taken or it changes nothing that the phases are about. -/
theorem updateVoiceState_cases (m : DesktopModel) (event : VoiceConnectionEvent) :
    ¬m.TakesVoiceState event ∧ m.SamePhase (m.updateVoiceState event)
      ∨ m.TakesVoiceState event ∧ ∃ noted, m.SamePhase noted
        ∧ m.updateVoiceState event = noted.enterVoiceState event.state := by
  have hsame := enterGeneration_same m event.generation
  unfold updateVoiceState TakesVoiceState
  by_cases hold : event.generation < m.voiceGeneration
  · rw [if_pos hold]
    exact .inl ⟨by omega, .refl m⟩
  rw [if_neg hold]
  dsimp only
  have hlast : event.sequence ≤ (m.enterGeneration event.generation).lastConnectionSequence
      ↔ ¬(m.voiceGeneration < event.generation ∧ 0 < event.sequence
        ∨ m.voiceGeneration = event.generation
          ∧ m.lastConnectionSequence < event.sequence) := by
    unfold enterGeneration
    split_ifs with hnewer
    · show event.sequence ≤ 0 ↔ _
      omega
    · omega
  by_cases hseen : event.sequence ≤ (m.enterGeneration event.generation).lastConnectionSequence
  · rw [if_pos hseen]
    exact .inl ⟨hlast.1 hseen, hsame⟩
  · rw [if_neg hseen]
    refine .inr ⟨not_not.1 (mt hlast.2 hseen), { m.enterGeneration event.generation with
      lastConnectionSequence := event.sequence
      diagnostics :=
        { (m.enterGeneration event.generation).diagnostics with voiceState := event.state } },
      ?_, rfl⟩
    exact { hsame with }

/-! ## Remote events -/

theorem advance_zero {counters : VoiceScope → ℕ} {event : VoiceRemoteEvent}
    (h : event.sequence = 0) : advance counters event = (false, counters) := by
  simp [advance, h]

theorem advanced_zero {sequences : ParticipantVoiceSequences} {event : VoiceRemoteEvent}
    (h : event.sequence = 0) : sequences.advanced event = ({}, sequences) := by
  unfold ParticipantVoiceSequences.advanced
  rw [advance_zero h, advance_zero h, advance_zero h]
  rcases event.kind <;> rfl

theorem hear_phase (m : DesktopModel) (event : VoiceRemoteEvent) :
    (m.hear event).connection = m.connection
      ∧ (m.hear event).activeTransmissionScope = m.activeTransmissionScope := by
  rw [hear_eq]
  exact ⟨rfl, rfl⟩

theorem hear_zero {event : VoiceRemoteEvent} (h : event.sequence = 0) :
    m.SamePhase (m.hear event) := by
  have hadvanced : ∀ id, (m.hear event).sequencesOf id = m.sequencesOf id := fun id => by
    rw [sequencesOf_hear, advanced_zero h]
    split_ifs <;> rfl
  have hparticipants : (m.hear event).participants = m.participants := by
    unfold hear
    rw [advanced_zero h]
    rfl
  rw [hear_eq] at hadvanced hparticipants ⊢
  exact ⟨rfl, rfl, rfl, rfl, rfl, rfl, fun hnone => hparticipants.trans hnone,
    fun hnone id => (hadvanced id).trans (hnone id)⟩

theorem applyVoiceRemoteEvent_phase (m : DesktopModel) (event : VoiceRemoteEvent) :
    (m.applyVoiceRemoteEvent event).connection = m.connection
      ∧ (m.applyVoiceRemoteEvent event).activeTransmissionScope = m.activeTransmissionScope := by
  have henter := enterGeneration_same m event.generation
  have hhear := hear_phase (m.enterGeneration event.generation) event
  unfold applyVoiceRemoteEvent
  split_ifs
  · exact ⟨rfl, rfl⟩
  · exact ⟨hhear.1.trans henter.connection, hhear.2.trans henter.activeTransmissionScope⟩

/-- A model that is signed out takes no remote event that keeps to the condition. -/
theorem applyVoiceRemoteEvent_same {event : VoiceRemoteEvent} (h : event.participantId = []
    ∨ event.generation < m.voiceGeneration ∨ event.sequence = 0) :
    m.SamePhase (m.applyVoiceRemoteEvent event) := by
  unfold applyVoiceRemoteEvent
  split_ifs with hignored
  · exact .refl m
  · have hsequence : event.sequence = 0 := by
      rcases h with h | h | h
      · exact absurd (.inl h) hignored
      · exact absurd (.inr h) hignored
      · exact h
    have henter := enterGeneration_same m event.generation
    have hhear := hear_zero (m := m.enterGeneration event.generation) hsequence
    exact henter.trans hhear

/-- An event that an empty model takes gives it a participant. -/
theorem applyVoiceRemoteEvent_participants {event : VoiceRemoteEvent} (hempty : m.Empty)
    (huncounted : ∀ id, m.sequencesOf id = {}) (h : ¬(event.participantId = []
      ∨ event.generation < m.voiceGeneration ∨ event.sequence = 0)) :
    (m.applyVoiceRemoteEvent event).participants ≠ ∅ := by
  obtain ⟨hid, hgeneration, hsequence⟩ :
      event.participantId ≠ [] ∧ ¬event.generation < m.voiceGeneration ∧ event.sequence ≠ 0 := by
    simpa using h
  have hsame := enterGeneration_same m event.generation
  have hnew : (((m.enterGeneration event.generation).sequencesOf event.participantId).advanced
      event).1 ≠ {} := by
    rw [hsame.sequences huncounted]
    have hpos : 0 < event.sequence := by omega
    exact advanced_fst_ne hpos hpos hpos
  have hrow := participants_hear_of_new hnew (.inr (hsame.directory.trans hempty.directory))
  unfold applyVoiceRemoteEvent
  rw [if_neg (not_or.2 ⟨hid, hgeneration⟩)]
  intro hnone
  simp [hnone] at hrow

/-! ## Steps -/

theorem apply_phase : ∀ {operation : Operation}, operation.KeepsPhase →
    (m.apply operation).connection = m.connection
      ∧ (m.apply operation).activeTransmissionScope = m.activeTransmissionScope
  | .updateMembership membership, _ => by
    simp only [apply, updateMembership]
    rcases m.membership with _ | current
    · exact ⟨rfl, rfl⟩
    dsimp only
    split_ifs
    · exact ⟨rfl, rfl⟩
    · exact applyMembership_phase m membership
  | .selectChannel _, _ => by
    simp only [apply, selectChannel]
    split_ifs <;> exact ⟨rfl, rfl⟩
  | .applyDirectory _, _ => by
    simp only [apply, applyDirectory]
    rcases m.membership with _ | current
    · exact ⟨rfl, rfl⟩
    dsimp only
    split_ifs <;> exact ⟨rfl, rfl⟩
  | .applyPresence _, _ => by
    simp only [apply, applyPresence]
    split_ifs <;> exact ⟨rfl, rfl⟩
  | .applyVoiceRemoteEvent event, _ => applyVoiceRemoteEvent_phase m event
  | .setParticipantVolume .., _ => by
    simp only [apply, setParticipantVolume]
    split_ifs <;> exact ⟨rfl, rfl⟩
  | .setParticipantMuted .., _ => by
    simp only [apply, setParticipantMuted]
    split_ifs <;> exact ⟨rfl, rfl⟩
  | .replaceSettings, _ | .recordError .., _ => ⟨rfl, rfl⟩

/-- Nothing but a request to connect is valid when signed out. -/
theorem validate_signedOut (command : Command) (hcommand : command ≠ .connect)
    (hout : m.connection = .signedOut) : ¬(m.validate command).ok = true := by
  have hsession : isSessionAvailable m.connection = false := by
    rw [hout]
    rfl
  rcases command with _ | _ | channel | ⟨id, volume⟩ | id
  · exact absurd rfl hcommand
  all_goals simp [validate, hsession, ValidationResult.failure, ValidationResult.ok]

/-- A model that is signed out has nothing that these operations could change. -/
theorem apply_signedOut (h : m.Inv) (hout : m.connection = .signedOut) :
    ∀ {operation : Operation}, operation.KeepsPhase → m.Orderly operation →
      m.SamePhase (m.apply operation)
  | .updateMembership _, _, _ => by
    simp only [apply, updateMembership, (h.signedOut hout).membership]
    exact .refl m
  | .selectChannel selection, _, _ => by
    have hinvalid := validate_signedOut (.selectChannel (some selection)) (by simp) hout
    simp only [apply, selectChannel, if_neg hinvalid]
    exact .refl m
  | .applyDirectory _, _, _ => by
    simp only [apply, applyDirectory, (h.signedOut hout).membership]
    exact .refl m
  | .applyPresence _, _, _ => by
    simp only [apply, applyPresence, (h.signedOut hout).directory]
    exact .refl m
  | .applyVoiceRemoteEvent _, _, ho => applyVoiceRemoteEvent_same (ho hout)
  | .setParticipantVolume participantId volume, _, _ => by
    have hinvalid := validate_signedOut (.setParticipantVolume participantId volume) (by simp) hout
    simp only [apply, setParticipantVolume, if_neg hinvalid]
    exact .refl m
  | .setParticipantMuted participantId _, _, _ => by
    have hinvalid := validate_signedOut (.setParticipantMuted participantId) (by simp) hout
    simp only [apply, setParticipantMuted, if_neg hinvalid]
    exact .refl m
  | .replaceSettings, _, _ => .refl m
  | .recordError errorCode diagnostic, _, _ => recordError_same m errorCode diagnostic

theorem Inv.of_keepsPhase {operation : Operation} (h : m.Inv) (hkeeps : operation.KeepsPhase)
    (ho : m.Orderly operation) :
    (m.apply operation).Inv ∧ (m.connection = .disconnecting → ¬operation.EndsDisconnect →
      (m.apply operation).connection = .disconnecting) := by
  obtain ⟨hconnection, hscope⟩ := apply_phase (m := m) hkeeps
  refine ⟨?_, fun hdisconnecting _ => hconnection.trans hdisconnecting⟩
  by_cases hout : m.connection = .signedOut
  · exact h.same (apply_signedOut h hout hkeeps ho)
  · refine Inv.of_session (hconnection ▸ hout) fun hactive => ?_
    rw [hconnection]
    exact h.transmitting (hscope ▸ hactive)

theorem disconnecting_of_keepsPhase {operation : Operation}
    (h : (m.apply operation).connection = .disconnecting) (hkeeps : operation.KeepsPhase) :
    m.connection = .disconnecting :=
  (apply_phase hkeeps).1.symm.trans h

theorem connectionSucceeded_inv (h : m.Inv) (membership : MembershipView) :
    (m.connectionSucceeded membership).2.Inv ∧ (m.connection = .disconnecting →
      (m.connectionSucceeded membership).2.connection = .disconnecting) := by
  unfold connectionSucceeded
  split_ifs with hphase
  · exact ⟨h, id⟩
  · exact ⟨h, id⟩
  · refine ⟨Inv.of_session (by simp) fun _ => rfl, fun hdisconnecting => ?_⟩
    rw [not_not] at hphase
    cases hphase.symm.trans hdisconnecting

/-- The condition on a voice state that is taken. -/
theorem enterVoiceState_inv (state : VoiceTransportState) (h : m.Inv)
    (hconnecting : state = .connecting →
      m.connection ≠ .disconnecting ∧ m.activeTransmissionScope = none)
    (hconnected : state = .connected → m.connection = .disconnecting → m.membership = none)
    (hreconnecting : state = .reconnecting → m.connection ≠ .disconnecting) :
    (m.enterVoiceState state).Inv ∧ (m.connection = .disconnecting →
      (m.enterVoiceState state).connection = .disconnecting) := by
  by_cases hout : m.connection = .signedOut
  · -- signed out, only the scope is written, which is empty already
    have hempty := h.signedOut hout
    have hsame : m.enterVoiceState state = m := by
      rcases m with ⟨connection, membership, _, _, _, _, _, scope⟩
      obtain rfl : connection = .signedOut := hout
      obtain rfl : membership = none := hempty.membership
      obtain rfl : scope = none := hempty.activeTransmissionScope
      rcases state with _ | _ | _ | _ <;> rfl
    rw [hsame]
    exact ⟨h, id⟩
  rcases state with _ | _ | _ | _
  · refine ⟨Inv.of_session ?_ (absurd rfl), fun hdisconnecting => by simp [enterVoiceState, *]⟩
    simp only [enterVoiceState]
    split_ifs
    · simp
    · exact hout
  · obtain ⟨hphase, hscope⟩ := hconnecting rfl
    refine ⟨Inv.of_session (by simp [enterVoiceState, hout]) fun hactive => ?_,
      fun hdisconnecting => absurd hdisconnecting hphase⟩
    exact absurd hscope hactive
  · refine ⟨Inv.of_session ?_ fun hactive => ?_, fun hdisconnecting => ?_⟩
    · simp only [enterVoiceState]
      split_ifs
      · simp
      · exact hout
    · simp only [enterVoiceState]
      split_ifs
      · rfl
      · exact h.transmitting hactive
    · simp [enterVoiceState, hconnected rfl hdisconnecting, hdisconnecting]
  · refine ⟨Inv.of_session (by simp [enterVoiceState, hout]) (absurd rfl),
      fun hdisconnecting => absurd hdisconnecting (hreconnecting rfl)⟩

/-- A step that keeps to the condition keeps the invariant and does not end a disconnect. -/
theorem apply_of_orderly (h : m.Inv) : ∀ {operation : Operation}, m.Orderly operation →
    (m.apply operation).Inv ∧ (m.connection = .disconnecting → ¬operation.EndsDisconnect →
      (m.apply operation).connection = .disconnecting)
  | .beginConnect, _ => by
    simp only [apply, beginConnect]
    split_ifs with hout
    · exact ⟨Inv.of_session (by simp) (absurd rfl), fun hdisconnecting => by
        simp [hout] at hdisconnecting⟩
    · exact ⟨h, fun hdisconnecting _ => hdisconnecting⟩
  | .connectionSucceeded membership, _ =>
    (connectionSucceeded_inv h membership).imp id fun hkeeps hdisconnecting _ =>
      hkeeps hdisconnecting
  | .connectionFailed errorCode diagnostic, _ =>
    ⟨(Inv.of_empty ⟨rfl, rfl, rfl, rfl, rfl, rfl⟩ rfl).same (recordError_same _ _ _),
      fun _ hends => absurd trivial hends⟩
  | .beginDisconnect, _ => by
    simp only [apply, beginDisconnect]
    split_ifs
    · exact ⟨Inv.of_session (by simp) (absurd rfl), fun _ _ => rfl⟩
    · exact ⟨h, fun hdisconnecting _ => hdisconnecting⟩
  | .disconnected, _ =>
    ⟨Inv.of_empty ⟨rfl, rfl, rfl, rfl, rfl, rfl⟩ rfl, fun _ hends => absurd trivial hends⟩
  | .updateVoiceState event, ho => by
    rcases updateVoiceState_cases m event with ⟨-, hsame⟩ | ⟨htakes, noted, hnoted, heq⟩
    · exact ⟨h.same hsame, fun hdisconnecting _ => hsame.connection.trans hdisconnecting⟩
    · have ho := ho htakes
      have hstep := enterVoiceState_inv event.state (h.same hnoted)
        (fun hstate => by
          rw [hstate] at ho
          exact ⟨hnoted.connection ▸ ho.1, hnoted.activeTransmissionScope.trans ho.2⟩)
        (fun hstate hdisconnecting => by
          rw [hstate] at ho
          exact hnoted.membership.trans (ho (hnoted.connection ▸ hdisconnecting)))
        (fun hstate => by
          rw [hstate] at ho
          exact hnoted.connection ▸ ho)
      simp only [apply]
      rw [heq]
      exact ⟨hstep.1, fun hdisconnecting _ => hstep.2 (hnoted.connection.trans hdisconnecting)⟩
  | .transmissionStarted scope, ho =>
    ⟨Inv.of_session (fun hout => by cases (show m.connection = .ready from ho).symm.trans hout)
      fun _ => ho, fun hdisconnecting _ => hdisconnecting⟩
  | .transmissionStopped, _ =>
    ⟨⟨⟨fun hout => { h.signedOut hout with activeTransmissionScope := rfl }, absurd rfl⟩,
      h.uncounted⟩, fun hdisconnecting _ => hdisconnecting⟩
  | .updateMembership _, ho | .selectChannel _, ho | .applyDirectory _, ho | .applyPresence _, ho
  | .applyVoiceRemoteEvent _, ho | .replaceSettings, ho | .setParticipantVolume .., ho
  | .setParticipantMuted .., ho | .recordError .., ho =>
    h.of_keepsPhase trivial ho

/-- A step that does not keep to the condition leaves a state that is not sound or ends a
disconnect. -/
theorem orderly_of_apply (h : m.Inv) : ∀ {operation : Operation}, (m.apply operation).Sound →
    (m.connection = .disconnecting → ¬operation.EndsDisconnect →
      (m.apply operation).connection = .disconnecting) → m.Orderly operation
  | .transmissionStarted scope, hsound, _ =>
    hsound.transmitting (by simp [apply, transmissionStarted])
  | .updateVoiceState event, hsound, hkeeps => by
    intro htakes
    rcases updateVoiceState_cases m event with ⟨hnot, -⟩ | ⟨-, noted, hnoted, heq⟩
    · exact absurd htakes hnot
    simp only [apply, heq] at hsound hkeeps
    have hkeeps := fun hdisconnecting => hkeeps hdisconnecting id
    rw [← hnoted.connection, ← hnoted.membership, ← hnoted.activeTransmissionScope]
    rw [← hnoted.connection] at hkeeps
    rcases hstate : event.state with _ | _ | _ | _ <;> rw [hstate] at hsound hkeeps <;> dsimp only
    · refine ⟨fun hdisconnecting => ?_, ?_⟩
      · simpa [enterVoiceState, hdisconnecting] using hkeeps hdisconnecting
      · by_contra hactive
        have hready := hsound.transmitting hactive
        have hphase := (h.same hnoted).transmitting hactive
        simp [enterVoiceState, hphase] at hready
    · intro hdisconnecting
      by_contra hmembership
      have hready := hkeeps hdisconnecting
      simp [enterVoiceState, Option.isSome_iff_ne_none.2 hmembership] at hready
    · intro hdisconnecting
      simpa [enterVoiceState, hdisconnecting] using hkeeps hdisconnecting
  | .applyVoiceRemoteEvent event, hsound, _ => by
    intro hout
    by_contra hnot
    have hparticipants :=
      applyVoiceRemoteEvent_participants (h.signedOut hout) (h.uncounted hout) hnot
    have hphase := (applyVoiceRemoteEvent_phase m event).1
    exact hparticipants (hsound.signedOut (hphase.trans hout)).participants
  | .beginConnect, _, _ | .connectionSucceeded _, _, _ | .connectionFailed .., _, _
  | .beginDisconnect, _, _ | .disconnected, _, _ | .updateMembership _, _, _
  | .selectChannel _, _, _ | .applyDirectory _, _, _ | .applyPresence _, _, _
  | .transmissionStopped, _, _ | .replaceSettings, _, _ | .setParticipantVolume .., _, _
  | .setParticipantMuted .., _, _ | .recordError .., _, _ => trivial

/-! ## Runs -/

theorem after_concat (operations : List Operation) (operation : Operation) :
    after (operations ++ [operation]) = (after operations).apply operation := by
  simp [after, List.foldl_append]

/-- Every step of the operations keeps to the condition. -/
def OrderlyRun (operations : List Operation) : Prop :=
  ∀ before operation rest, operations = before ++ operation :: rest →
    (after before).Orderly operation

theorem OrderlyRun.of_append {operations more : List Operation}
    (h : OrderlyRun (operations ++ more)) : OrderlyRun operations :=
  fun before operation rest heq => h before operation (rest ++ more) (by simp [heq])

theorem OrderlyRun.last {operations : List Operation} {operation : Operation}
    (h : OrderlyRun (operations ++ [operation])) : (after operations).Orderly operation :=
  h operations operation [] rfl

theorem OrderlyRun.inv {operations : List Operation} (h : OrderlyRun operations) :
    (after operations).Inv := by
  induction operations using List.reverseRecOn with
  | nil => exact .of_empty ⟨rfl, rfl, rfl, rfl, rfl, rfl⟩ rfl
  | append_singleton operations operation ih =>
    rw [after_concat]
    exact (apply_of_orderly (ih h.of_append) h.last).1

theorem OrderlyRun.stays {before between : List Operation}
    (h : OrderlyRun (before ++ .beginDisconnect :: between))
    (hok : (after before).beginDisconnect.1.ok = true)
    (hends : ∀ operation ∈ between, ¬operation.EndsDisconnect) :
    (after (before ++ .beginDisconnect :: between)).connection = .disconnecting := by
  induction between using List.reverseRecOn with
  | nil =>
    rw [after_concat]
    simp only [apply]
    unfold beginDisconnect at hok ⊢
    split_ifs at hok ⊢
    · rfl
    · cases hok
  | append_singleton between operation ih =>
    have hsplit : before ++ .beginDisconnect :: (between ++ [operation])
        = (before ++ .beginDisconnect :: between) ++ [operation] := by simp
    rw [hsplit] at h ⊢
    rw [after_concat]
    have hbetween := ih h.of_append fun op hop => hends op (List.mem_append_left _ hop)
    exact (apply_of_orderly h.of_append.inv h.last).2 hbetween (hends operation (by simp))

theorem disconnecting_of_enterVoiceState {state : VoiceTransportState}
    (h : (m.enterVoiceState state).connection = .disconnecting) :
    m.connection = .disconnecting := by
  by_contra hnot
  rcases state with _ | _ | _ | _ <;> simp only [enterVoiceState] at h <;> split_ifs at h <;>
    exact hnot h

/-- Only `beginDisconnect` makes the model disconnecting. -/
theorem disconnecting_of_apply : ∀ {operation : Operation},
    (m.apply operation).connection = .disconnecting →
    operation = .beginDisconnect ∧ m.beginDisconnect.1.ok = true
      ∨ m.connection = .disconnecting ∧ ¬operation.EndsDisconnect
  | .beginConnect, h => by
    simp only [apply, beginConnect] at h
    split_ifs at h
    exact .inr ⟨h, id⟩
  | .connectionSucceeded membership, h => by
    simp only [apply, connectionSucceeded] at h
    split_ifs at h
    · exact .inr ⟨h, id⟩
    · exact .inr ⟨h, id⟩
  | .connectionFailed .., h => by cases h
  | .beginDisconnect, h => by
    simp only [apply] at h
    unfold beginDisconnect at h ⊢
    split_ifs at h ⊢
    · exact .inl ⟨rfl, rfl⟩
    · exact .inr ⟨h, id⟩
  | .disconnected, h => by cases h
  | .updateVoiceState event, h => by
    refine .inr ⟨?_, id⟩
    rcases updateVoiceState_cases m event with ⟨-, hsame⟩ | ⟨-, noted, hnoted, heq⟩
    · exact hsame.connection.symm.trans h
    · simp only [apply, heq] at h
      exact hnoted.connection.symm.trans (disconnecting_of_enterVoiceState h)
  | .transmissionStarted _, h | .transmissionStopped, h => .inr ⟨h, id⟩
  | .updateMembership _, h | .selectChannel _, h | .applyDirectory _, h | .applyPresence _, h
  | .applyVoiceRemoteEvent _, h | .replaceSettings, h | .setParticipantVolume .., h
  | .setParticipantMuted .., h | .recordError .., h =>
    .inr ⟨disconnecting_of_keepsPhase h trivial, id⟩

/-- A model that is disconnecting has begun to, and nothing has ended it since. -/
theorem exists_beginDisconnect {operations : List Operation}
    (h : (after operations).connection = .disconnecting) :
    ∃ before between, operations = before ++ .beginDisconnect :: between
      ∧ (after before).beginDisconnect.1.ok = true
      ∧ ∀ operation ∈ between, ¬operation.EndsDisconnect := by
  induction operations using List.reverseRecOn with
  | nil => cases h
  | append_singleton operations operation ih =>
    rw [after_concat] at h
    rcases disconnecting_of_apply h with ⟨rfl, hok⟩ | ⟨hphase, hends⟩
    · exact ⟨operations, [], rfl, hok, by simp⟩
    · obtain ⟨before, between, rfl, hok, hbetween⟩ := ih hphase
      refine ⟨before, between ++ [operation], by simp, hok, fun op hop => ?_⟩
      rcases List.mem_append.1 hop with hop | hop
      · exact hbetween op hop
      · rwa [List.mem_singleton.1 hop]

theorem StaysDisconnecting.of_append {operations more : List Operation}
    (h : StaysDisconnecting (operations ++ more)) : StaysDisconnecting operations :=
  fun before between rest heq => h before between (rest ++ more) (by simp [heq])

theorem orderlyRun_of_sound {operations : List Operation}
    (hsound : ∀ reached, reached <+: operations → (after reached).Sound)
    (hstays : StaysDisconnecting operations) : OrderlyRun operations := by
  induction operations using List.reverseRecOn with
  | nil => exact fun before operation rest heq => by simp at heq
  | append_singleton operations operation ih =>
    have ih := ih (fun reached hreached => hsound reached (hreached.trans (List.prefix_append _ _)))
      hstays.of_append
    have hlast : (after operations).Orderly operation := by
      have hwhole := hsound _ (List.prefix_refl _)
      rw [after_concat] at hwhole
      refine orderly_of_apply ih.inv hwhole fun hphase hends => ?_
      obtain ⟨before, between, rfl, hok, hbetween⟩ := exists_beginDisconnect hphase
      have hstill := hstays before (between ++ [operation]) [] (by simp) hok fun op hop => by
        rcases List.mem_append.1 hop with hop | hop
        · exact hbetween op hop
        · rwa [List.mem_singleton.1 hop]
      rw [← after_concat]
      simpa using hstill
    intro before op rest heq
    rcases List.eq_nil_or_concat rest with rfl | ⟨rest, x, rfl⟩
    · obtain ⟨rfl, hop⟩ := List.append_inj' heq rfl
      rwa [← List.head_eq_of_cons_eq hop]
    · refine ih before op rest ?_
      rw [List.concat_eq_append, ← List.cons_append, ← List.append_assoc] at heq
      exact (List.append_inj' heq rfl).1

/-- Signed out means empty, transmitting means ready and a disconnect that has begun goes on until
it is ended, in all states of a run, exactly if every step keeps to the condition. -/
theorem operations_keep_phases (operations : List Operation) :
    (∀ reached, reached <+: operations → (after reached).Sound) ∧ StaysDisconnecting operations
      ↔ OrderlyRun operations := by
  refine ⟨fun h => orderlyRun_of_sound h.1 h.2, fun h => ⟨?_, ?_⟩⟩
  · rintro reached ⟨more, rfl⟩
    exact h.of_append.inv.toSound
  · rintro before between rest rfl hok hends
    rw [← List.cons_append, ← List.append_assoc] at h
    exact h.of_append.stays hok hends

/-! ## A voice state while disconnecting -/

section Samples

theorem hierarchy_nonempty : bytes "hierarchy" ≠ [] := by decide

theorem alice_nonempty : bytes "alice" ≠ [] := by decide

theorem group_nonempty : bytes "group" ≠ [] := by decide

theorem specialization_nonempty : bytes "specialization" ≠ [] := by decide

theorem team_nonempty : bytes "team" ≠ [] := by decide

def signedInMembership : MembershipView where
  version := 1
  hierarchyId := ⟨bytes "hierarchy", hierarchy_nonempty⟩
  playerId := ⟨bytes "alice", alice_nonempty⟩
  groupId := ⟨bytes "group", group_nonempty⟩
  specializationId := ⟨bytes "specialization", specialization_nonempty⟩
  teamId := ⟨bytes "team", team_nonempty⟩
  roleIds := []
  connected := true
  canReceiveVoice := true
  transmitMuted := false

/-- The voice connection comes up after the user has begun to disconnect. -/
def lateConnected : List Operation :=
  [.beginConnect, .connectionSucceeded signedInMembership, .beginDisconnect,
    .updateVoiceState ⟨.connected, 1, 1⟩]

end Samples

/-- The event makes the model ready again, though `disconnected` has not been called. -/
theorem lateConnected_leaves : ¬((∀ reached, reached <+: lateConnected → (after reached).Sound)
    ∧ StaysDisconnecting lateConnected) := by
  rintro ⟨-, h⟩
  have hstays := h [.beginConnect, .connectionSucceeded signedInMembership]
    [.updateVoiceState ⟨.connected, 1, 1⟩] [] rfl (by decide +kernel)
    (by simp [Operation.EndsDisconnect])
  exact absurd hstays (by decide +kernel)

end DesktopModel

end Presentation

end VoxTree

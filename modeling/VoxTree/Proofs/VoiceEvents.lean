import VoxTree.Lib.TreeMap
import VoxTree.VoiceEvents

/-!
# What one remote event does

An event that the model takes counts for its participant and changes his row, as far as he has one
or may get one. Everything else stays.
-/

namespace VoxTree

/-! ## What events say -/

namespace VoiceRemoteEventKind

def connects : VoiceRemoteEventKind → Option Bool
  | .participantConnected => some true
  | .participantDisconnected => some false
  | _ => none

def sounds : VoiceRemoteEventKind → Option Bool
  | .audioAvailable | .speakerStarted => some true
  | .audioUnavailable | .participantDisconnected => some false
  | _ => none

/-- The events that are relevant for speaking. -/
def speaks : VoiceRemoteEventKind → Option Bool
  | .speakerStarted => some true
  | .speakerStopped | .audioUnavailable | .participantDisconnected => some false
  | _ => none

end VoiceRemoteEventKind

namespace Presentation

open Client VoiceRemoteEventKind

theorem advance_snd (counters : VoiceScope → ℕ) (event : VoiceRemoteEvent) :
    (advance counters event).2
      = Function.update counters event.scope (max (counters event.scope) event.sequence) := by
  unfold advance
  split_ifs with h
  · rw [max_eq_left h, Function.update_eq_self]
  · rw [max_eq_right (by omega)]

theorem advance_fst (counters : VoiceScope → ℕ) (event : VoiceRemoteEvent) :
    (advance counters event).1 = true ↔ counters event.scope < event.sequence := by
  unfold advance
  split_ifs with h
  · simpa using h
  · simpa using h

/-- An event that is newer than everything its scope has seen is counted. -/
theorem advanced_fst_ne {sequences : ParticipantVoiceSequences} {event : VoiceRemoteEvent}
    (hconnected : sequences.connected event.scope < event.sequence)
    (haudio : sequences.audioAvailable event.scope < event.sequence)
    (hspeaking : sequences.speaking event.scope < event.sequence) :
    (sequences.advanced event).1 ≠ {} := by
  have hconnected := (advance_fst _ _).2 hconnected
  have haudio := (advance_fst _ _).2 haudio
  have hspeaking := (advance_fst _ _).2 hspeaking
  unfold ParticipantVoiceSequences.advanced
  rcases event.kind <;> simp [hconnected, haudio, hspeaking]

namespace DesktopModel

variable {m : DesktopModel} {event : VoiceRemoteEvent} {update : VoiceUpdates} {id : Bytes}

/-- The row of a participant, or the one he would get. -/
def rowOf (m : DesktopModel) (id : Bytes) : ParticipantState :=
  (m.participants[id]?).getD (.placeholder id)

/-- The participant has a row, or there is no directory that could refuse him one. -/
def Admits (m : DesktopModel) (id : Bytes) : Prop :=
  m.participants.contains id = true ∨ m.directory = none

/-! ## Fields -/

theorem hearParticipant_eq (m : DesktopModel) (event : VoiceRemoteEvent) (update : VoiceUpdates) :
    m.hearParticipant event update
      = { m with participants := (m.hearParticipant event update).participants } := by
  unfold hearParticipant
  split
  · split_ifs <;> rfl
  · rfl

theorem hear_eq (m : DesktopModel) (event : VoiceRemoteEvent) :
    m.hear event = { m with
      participants := (m.hear event).participants
      participantVoiceSequences := m.participantVoiceSequences.insert event.participantId
        ((m.sequencesOf event.participantId).advanced event).2 } := by
  unfold hear
  dsimp only
  split_ifs
  · rfl
  · rw [hearParticipant_eq]

theorem sequencesOf_hear (m : DesktopModel) (event : VoiceRemoteEvent) (id : Bytes) :
    (m.hear event).sequencesOf id
      = if event.participantId = id then ((m.sequencesOf id).advanced event).2
        else m.sequencesOf id := by
  rw [hear_eq]
  unfold sequencesOf
  simp only [Std.ExtTreeMap.getElem?_insert, Std.LawfulEqCmp.compare_eq_iff_eq]
  split_ifs with h
  · rw [h, Option.getD_some]
  · rfl

/-! ## Participants -/

theorem hearParticipant_of_ne (h : event.participantId ≠ id) :
    (m.hearParticipant event update).participants[id]? = m.participants[id]? := by
  have hset : ∀ participant, (m.setParticipant event.participantId participant).participants[id]?
      = m.participants[id]? := fun participant => by
    unfold setParticipant
    simp only [Std.ExtTreeMap.getElem?_insert, Std.LawfulEqCmp.compare_eq_iff_eq, if_neg h]
  unfold hearParticipant
  split
  · split_ifs
    · rfl
    · exact hset _
  · exact hset _

theorem hearParticipant_self (h : m.Admits event.participantId) :
    (m.hearParticipant event update).participants[event.participantId]?
      = some (refreshParticipantDerivedState m.serverPresence
          ((m.rowOf event.participantId).hear event update)) := by
  unfold hearParticipant rowOf
  rcases hrow : m.participants[event.participantId]? with _ | participant
  · have hdirectory : m.directory = none := by
      rcases h with h | h
      · exact absurd h (TreeMap.getElem?_eq_none_iff.1 hrow)
      · exact h
    simp [hdirectory, setParticipant]
  · simp [setParticipant]

theorem hearParticipant_unlisted (h : ¬m.Admits event.participantId) :
    m.hearParticipant event update = m := by
  have hrow : m.participants[event.participantId]? = none :=
    TreeMap.getElem?_eq_none_iff.2 fun hcontains => h (.inl hcontains)
  have hdirectory : m.directory.isSome = true := by
    rcases hd : m.directory with _ | directory
    · exact absurd (.inr hd) h
    · rfl
  unfold hearParticipant
  rw [hrow]
  simp only [hdirectory, if_true]

/-! ## One event -/

theorem noUpdate_iff : (!update.connected && !update.audio && !update.speaking) = true
    ↔ update = {} := by
  rcases update with ⟨_ | _, _ | _, _ | _⟩ <;> simp

/-- An event that no counter takes leaves the participants as they are. -/
theorem participants_hear_of_old
    (h : ((m.sequencesOf event.participantId).advanced event).1 = {}) :
    (m.hear event).participants = m.participants := by
  unfold hear
  dsimp only
  rw [if_pos (noUpdate_iff.2 h)]

theorem participants_hear_of_new
    (h : ((m.sequencesOf event.participantId).advanced event).1 ≠ {})
    (hadmits : m.Admits event.participantId) :
    (m.hear event).participants[event.participantId]?
      = some (refreshParticipantDerivedState m.serverPresence
        ((m.rowOf event.participantId).hear event
          ((m.sequencesOf event.participantId).advanced event).1)) := by
  unfold hear
  dsimp only
  rw [if_neg (mt noUpdate_iff.1 h)]
  exact hearParticipant_self hadmits

theorem participants_hear_of_ne (h : event.participantId ≠ id) :
    (m.hear event).participants[id]? = m.participants[id]? := by
  unfold hear
  dsimp only
  split_ifs
  · rfl
  · exact hearParticipant_of_ne h

theorem participants_hear_unlisted (h : ¬m.Admits event.participantId) :
    (m.hear event).participants = m.participants := by
  unfold hear
  dsimp only
  split_ifs
  · rfl
  · rw [hearParticipant_unlisted]
    exact h

/-! ## Rows -/

theorem rowOf_eq {row : ParticipantState} (h : m.participants[id]? = some row) :
    m.rowOf id = row := by
  unfold rowOf
  rw [h, Option.getD_some]

/-- The rows agree in what they say of the voice connection. -/
structure SameVoice (a b : ParticipantState) : Prop where
  connectedScopes : a.connectedScopes = b.connectedScopes
  audioAvailableScopes : a.audioAvailableScopes = b.audioAvailableScopes
  speaking : a.speaking = b.speaking
  speakingScope : a.speakingScope = b.speakingScope

theorem SameVoice.symm {a b : ParticipantState} (h : SameVoice a b) : SameVoice b a :=
  ⟨h.connectedScopes.symm, h.audioAvailableScopes.symm, h.speaking.symm, h.speakingScope.symm⟩

theorem SameVoice.trans {a b c : ParticipantState} (h : SameVoice a b) (h' : SameVoice b c) :
    SameVoice a c :=
  ⟨h.connectedScopes.trans h'.connectedScopes,
    h.audioAvailableScopes.trans h'.audioAvailableScopes, h.speaking.trans h'.speaking,
    h.speakingScope.trans h'.speakingScope⟩

/-! ### What a row hears -/

@[simp] theorem stopSpeaking_connectedScopes (participant : ParticipantState)
    (scope : VoiceScope) :
    (participant.stopSpeaking scope).connectedScopes = participant.connectedScopes := by
  unfold ParticipantState.stopSpeaking
  split_ifs <;> rfl

@[simp] theorem stopSpeaking_audioAvailableScopes (participant : ParticipantState)
    (scope : VoiceScope) :
    (participant.stopSpeaking scope).audioAvailableScopes = participant.audioAvailableScopes := by
  unfold ParticipantState.stopSpeaking
  split_ifs <;> rfl

theorem hear_connectedScopes (participant : ParticipantState) (event : VoiceRemoteEvent)
    (update : VoiceUpdates) :
    (participant.hear event update).connectedScopes
      = event.kind.connects.elim participant.connectedScopes fun on =>
        if update.connected then Function.update participant.connectedScopes event.scope on
        else participant.connectedScopes := by
  unfold ParticipantState.hear
  rcases event.kind <;> dsimp only [connects, Option.elim] <;> split_ifs <;>
    simp [ParticipantState.setConnected, ParticipantState.setAudioAvailable,
      ParticipantState.startSpeaking]

theorem hear_audioAvailableScopes (participant : ParticipantState) (event : VoiceRemoteEvent)
    (update : VoiceUpdates) :
    (participant.hear event update).audioAvailableScopes
      = event.kind.sounds.elim participant.audioAvailableScopes fun on =>
        if update.audio then Function.update participant.audioAvailableScopes event.scope on
        else participant.audioAvailableScopes := by
  unfold ParticipantState.hear
  rcases event.kind <;> dsimp only [sounds, Option.elim] <;> split_ifs <;>
    simp [ParticipantState.setConnected, ParticipantState.setAudioAvailable,
      ParticipantState.startSpeaking]

theorem hear_speakingScope (participant : ParticipantState) (event : VoiceRemoteEvent)
    (update : VoiceUpdates) :
    (participant.hear event update).speakingScope
      = event.kind.speaks.elim participant.speakingScope fun on =>
        if update.speaking then
          if on then some event.scope
          else if participant.speakingScope = some event.scope then none
          else participant.speakingScope
        else participant.speakingScope := by
  unfold ParticipantState.hear
  rcases event.kind <;> dsimp only [speaks, Option.elim] <;> split_ifs <;>
    simp_all [ParticipantState.setConnected, ParticipantState.setAudioAvailable,
      ParticipantState.startSpeaking, ParticipantState.stopSpeaking]

theorem hear_speaking (participant : ParticipantState) (event : VoiceRemoteEvent)
    (update : VoiceUpdates) :
    (participant.hear event update).speaking
      = event.kind.speaks.elim participant.speaking fun on =>
        if update.speaking then
          if on then true
          else if participant.speakingScope = some event.scope then false
          else participant.speaking
        else participant.speaking := by
  unfold ParticipantState.hear
  rcases event.kind <;> dsimp only [speaks, Option.elim] <;> split_ifs <;>
    simp_all [ParticipantState.setConnected, ParticipantState.setAudioAvailable,
      ParticipantState.startSpeaking, ParticipantState.stopSpeaking]

theorem SameVoice.hear {a b : ParticipantState} (h : SameVoice a b) (event : VoiceRemoteEvent)
    (update : VoiceUpdates) : SameVoice (a.hear event update) (b.hear event update) where
  connectedScopes := by rw [hear_connectedScopes, hear_connectedScopes, h.connectedScopes]
  audioAvailableScopes := by
    rw [hear_audioAvailableScopes, hear_audioAvailableScopes, h.audioAvailableScopes]
  speaking := by rw [hear_speaking, hear_speaking, h.speaking, h.speakingScope]
  speakingScope := by rw [hear_speakingScope, hear_speakingScope, h.speakingScope]

theorem hear_noUpdate (participant : ParticipantState) (event : VoiceRemoteEvent) :
    participant.hear event {} = participant := by
  unfold ParticipantState.hear
  rcases event.kind <;> rfl

theorem rowOf_hear_self (h : m.Admits event.participantId) :
    SameVoice ((m.hear event).rowOf event.participantId)
      ((m.rowOf event.participantId).hear event
        ((m.sequencesOf event.participantId).advanced event).1) := by
  by_cases hnew : ((m.sequencesOf event.participantId).advanced event).1 = {}
  · rw [hnew, hear_noUpdate]
    unfold rowOf
    rw [participants_hear_of_old hnew]
    exact ⟨rfl, rfl, rfl, rfl⟩
  · have hrow := participants_hear_of_new hnew h
    rw [show (m.hear event).rowOf event.participantId = _ by
      unfold rowOf
      rw [hrow, Option.getD_some]]
    exact ⟨rfl, rfl, rfl, rfl⟩

theorem rowOf_hear_of_ne (h : event.participantId ≠ id) :
    (m.hear event).rowOf id = m.rowOf id := by
  unfold rowOf
  rw [participants_hear_of_ne h]

/-- The row without what voice events and presence say. -/
def unheard (participant : ParticipantState) : ParticipantState :=
  { participant with
    presence := .unknown
    connectedScopes := fun _ => false
    audioAvailableScopes := fun _ => false
    audioAvailable := false
    speaking := false
    speakingScope := none }

/-- The derived state of the row is up to date. -/
def Refreshed (serverPresence : ServerPresence) (participant : ParticipantState) : Prop :=
  refreshParticipantDerivedState serverPresence participant = participant

theorem refreshed_refresh (serverPresence : ServerPresence) (participant : ParticipantState) :
    Refreshed serverPresence (refreshParticipantDerivedState serverPresence participant) := rfl

theorem row_ext {serverPresence : ServerPresence} {a b : ParticipantState}
    (hunheard : unheard a = unheard b) (hvoice : SameVoice a b) (ha : Refreshed serverPresence a)
    (hb : Refreshed serverPresence b) : a = b := by
  have hrefresh : refreshParticipantDerivedState serverPresence a
      = refreshParticipantDerivedState serverPresence b := by
    obtain ⟨hconnected, haudio, hspeaking, hscope⟩ := hvoice
    rcases a with ⟨⟩
    rcases b with ⟨⟩
    simp only [unheard, ParticipantState.mk.injEq] at hunheard hconnected haudio hspeaking hscope
    obtain ⟨rfl, rfl, rfl, rfl, -, -, -, -, -, -, rfl, rfl, rfl⟩ := hunheard
    subst hconnected haudio hspeaking hscope
    rfl
  exact ha.symm.trans (hrefresh.trans hb)

theorem hear_unheard (participant : ParticipantState) (event : VoiceRemoteEvent)
    (update : VoiceUpdates) :
    unheard (participant.hear event update) = unheard participant := by
  have hstop : ∀ (p : ParticipantState) scope, unheard (p.stopSpeaking scope) = unheard p :=
    fun p scope => by
      unfold ParticipantState.stopSpeaking
      split_ifs <;> rfl
  unfold ParticipantState.hear
  rcases event.kind <;> dsimp only <;> split_ifs <;> first | rfl | rw [hstop] <;> rfl

/-- A row says that its participant speaks exactly if it names a scope. -/
def Consistent (participant : ParticipantState) : Prop :=
  participant.speaking = participant.speakingScope.isSome

theorem Consistent.hear {participant : ParticipantState} (h : Consistent participant)
    (event : VoiceRemoteEvent) (update : VoiceUpdates) :
    Consistent (participant.hear event update) := by
  have hstop : ∀ {p : ParticipantState} {scope}, Consistent p → Consistent (p.stopSpeaking scope) :=
    fun hp => by
      unfold ParticipantState.stopSpeaking
      split_ifs
      · rfl
      · exact hp
  unfold ParticipantState.hear
  rcases event.kind <;> dsimp only <;> split_ifs <;> first | exact h | exact hstop h | rfl

theorem rowOf_hear_unlisted (h : ¬m.Admits event.participantId) :
    (m.hear event).rowOf id = m.rowOf id := by
  unfold rowOf
  rw [participants_hear_unlisted h]

theorem unheard_rowOf_hear (m : DesktopModel) (event : VoiceRemoteEvent) (id : Bytes) :
    unheard ((m.hear event).rowOf id) = unheard (m.rowOf id) := by
  by_cases hid : event.participantId = id
  · subst hid
    by_cases hadmits : m.Admits event.participantId
    · by_cases hnew : ((m.sequencesOf event.participantId).advanced event).1 = {}
      · unfold rowOf
        rw [participants_hear_of_old hnew]
      · rw [show (m.hear event).rowOf event.participantId = _ by
          unfold rowOf
          rw [participants_hear_of_new hnew hadmits, Option.getD_some]]
        exact hear_unheard _ _ _
    · rw [rowOf_hear_unlisted hadmits]
  · rw [rowOf_hear_of_ne hid]

theorem consistent_rowOf_hear (h : Consistent (m.rowOf id)) (event : VoiceRemoteEvent) :
    Consistent ((m.hear event).rowOf id) := by
  by_cases hid : event.participantId = id
  · subst hid
    by_cases hadmits : m.Admits event.participantId
    · have hsame := rowOf_hear_self hadmits
      unfold Consistent
      rw [hsame.speaking, hsame.speakingScope]
      exact h.hear event _
    · rwa [rowOf_hear_unlisted hadmits]
  · rwa [rowOf_hear_of_ne hid]

/-! ## Generations -/

theorem applyVoiceRemoteEvent_current (hgeneration : event.generation = m.voiceGeneration)
    (hid : event.participantId ≠ []) : m.applyVoiceRemoteEvent event = m.hear event := by
  unfold applyVoiceRemoteEvent enterGeneration
  rw [if_neg (not_or.2 ⟨hid, by omega⟩), if_neg (by omega)]

theorem applyVoiceRemoteEvent_ignored
    (h : event.participantId = [] ∨ event.generation < m.voiceGeneration) :
    m.applyVoiceRemoteEvent event = m := by
  unfold applyVoiceRemoteEvent
  exact if_pos h

theorem voiceGeneration_hear (m : DesktopModel) (event : VoiceRemoteEvent) :
    (m.hear event).voiceGeneration = m.voiceGeneration := by
  rw [hear_eq]

theorem serverPresence_hear (m : DesktopModel) (event : VoiceRemoteEvent) :
    (m.hear event).serverPresence = m.serverPresence := by
  rw [hear_eq]

theorem contains_hear (h : m.participants.contains id = true) :
    (m.hear event).participants.contains id = true := by
  rw [Std.ExtTreeMap.contains_eq_isSome_getElem?] at h ⊢
  by_cases hid : event.participantId = id
  · subst hid
    by_cases hnew : ((m.sequencesOf event.participantId).advanced event).1 = {}
    · rwa [participants_hear_of_old hnew]
    · rw [participants_hear_of_new hnew]
      · rfl
      · exact .inl (by rwa [Std.ExtTreeMap.contains_eq_isSome_getElem?])
  · rwa [participants_hear_of_ne hid]

theorem admits_hear (h : m.Admits id) : (m.hear event).Admits id :=
  h.imp contains_hear fun hnone => by rw [hear_eq]; exact hnone

/-- Who has no row and may get none still has none after an event. -/
theorem admits_hear_iff : (m.hear event).Admits id ↔ m.Admits id := by
  refine ⟨fun h => ?_, admits_hear⟩
  by_contra hnot
  have hsame : (m.hear event).participants[id]? = m.participants[id]? := by
    by_cases hid : event.participantId = id
    · subst hid
      rw [participants_hear_unlisted hnot]
    · exact participants_hear_of_ne hid
  refine hnot (h.imp (fun hcontains => ?_) fun hnone => ?_)
  · rwa [Std.ExtTreeMap.contains_eq_isSome_getElem?, hsame,
      ← Std.ExtTreeMap.contains_eq_isSome_getElem?] at hcontains
  · rwa [hear_eq] at hnone

theorem enterGeneration_voiceGeneration {generation : ℕ} (h : m.voiceGeneration ≤ generation) :
    (m.enterGeneration generation).voiceGeneration = generation := by
  unfold enterGeneration
  split_ifs
  · rfl
  · show m.voiceGeneration = generation
    omega

/-- The model in which nobody speaks. -/
def Silent (m : DesktopModel) : Prop := ∀ id, (m.rowOf id).speakingScope = none

theorem rowOf_clear (m : DesktopModel) (id : Bytes) :
    SameVoice (m.clearRemoteTransportState.rowOf id) {} := by
  unfold rowOf clearRemoteTransportState
  simp only [Std.ExtTreeMap.getElem?_map]
  rcases m.participants[id]? with _ | row
  · exact ⟨rfl, rfl, rfl, rfl⟩
  · exact ⟨rfl, rfl, rfl, rfl⟩

/-- Entering a generation keeps the rows or clears what they say of the voice connection. -/
theorem enterGeneration_cases (m : DesktopModel) (generation : ℕ) :
    m.enterGeneration generation = m
      ∨ (∀ id, SameVoice ((m.enterGeneration generation).rowOf id) {})
        ∧ ∀ id, (m.enterGeneration generation).sequencesOf id = {} := by
  unfold enterGeneration
  split_ifs
  · exact .inr ⟨fun id => rowOf_clear m id, fun id => by simp [sequencesOf]⟩
  · exact .inl rfl

theorem contains_enterGeneration (m : DesktopModel) (generation : ℕ) (id : Bytes) :
    (m.enterGeneration generation).participants.contains id = m.participants.contains id := by
  unfold enterGeneration
  split_ifs
  · simp [clearRemoteTransportState]
  · rfl

theorem admits_enterGeneration {generation : ℕ} :
    (m.enterGeneration generation).Admits id ↔ m.Admits id := by
  have hdirectory : (m.enterGeneration generation).directory = m.directory := by
    unfold enterGeneration
    split_ifs <;> rfl
  unfold Admits
  rw [contains_enterGeneration, hdirectory]

end DesktopModel

end Presentation

end VoxTree

import VoxTree.Lib.LastWriter
import VoxTree.Proofs.ParticipantRows

/-!
# Remote events in any order

For each scope of a participant the model keeps two cells, for the connection and for the audio,
that hold what the newest event says, so that their order does not matter. Whether he speaks is one
indicator for all scopes: the order does not matter there as long as a scope in which he stays
speaking is the only one in which he has started to, and otherwise it does
(`applyVoiceRemoteEvents_tolerates`).
-/

namespace VoxTree

namespace Presentation

open Client LastWriter VoiceRemoteEventKind

/-- What an event says about a scope of a participant. -/
def about (kindSays : VoiceRemoteEventKind → Option Bool) (id : Bytes) (scope : VoiceScope)
    (event : VoiceRemoteEvent) : Option Bool :=
  if event.participantId = id ∧ event.scope = scope then kindSays event.kind else none

/-- What an event says about who speaks where. -/
def switches (id : Bytes) (event : VoiceRemoteEvent) : Option (VoiceScope × Bool) :=
  if event.participantId = id then event.kind.speaks.map fun on => (event.scope, on) else none

namespace DesktopModel

variable {m : DesktopModel} {event : VoiceRemoteEvent} {id : Bytes}

def connectedCell (m : DesktopModel) (id : Bytes) (scope : VoiceScope) : Cell Bool :=
  ⟨(m.sequencesOf id).connected scope, (m.rowOf id).connectedScopes scope⟩

def audioCell (m : DesktopModel) (id : Bytes) (scope : VoiceScope) : Cell Bool :=
  ⟨(m.sequencesOf id).audioAvailable scope, (m.rowOf id).audioAvailableScopes scope⟩

def speakingIndicator (m : DesktopModel) (id : Bytes) : Indicator VoiceScope :=
  ⟨(m.sequencesOf id).speaking, (m.rowOf id).speakingScope⟩

/-! ## Cells -/

theorem advanced_eq (sequences : ParticipantVoiceSequences) (event : VoiceRemoteEvent) :
    sequences.advanced event =
      (⟨event.kind.connects.isSome && (advance sequences.connected event).1,
          event.kind.sounds.isSome && (advance sequences.audioAvailable event).1,
          event.kind.speaks.isSome && (advance sequences.speaking event).1⟩,
        ⟨if event.kind.connects.isSome then (advance sequences.connected event).2
            else sequences.connected,
          if event.kind.sounds.isSome then (advance sequences.audioAvailable event).2
            else sequences.audioAvailable,
          if event.kind.speaks.isSome then (advance sequences.speaking event).2
            else sequences.speaking⟩) := by
  unfold ParticipantVoiceSequences.advanced
  rcases event.kind <;> rfl

/-- What `advance` does to the counter of a scope and to the value beside it. -/
theorem take_of_advance {kindSays : VoiceRemoteEventKind → Option Bool}
    (counters : VoiceScope → ℕ) (values : VoiceScope → Bool) (event : VoiceRemoteEvent)
    (scope : VoiceScope) :
    Cell.mk ((if (kindSays event.kind).isSome then (advance counters event).2 else counters) scope)
        ((kindSays event.kind).elim values (fun on =>
          if ((kindSays event.kind).isSome && (advance counters event).1) = true then
            Function.update values event.scope on
          else values) scope)
      = Cell.take VoiceRemoteEvent.sequence (about kindSays event.participantId scope)
          ⟨counters scope, values scope⟩ event := by
  rcases hsays : kindSays event.kind with _ | on
  · rw [Cell.take_none (by simp [about, hsays])]
    rfl
  by_cases hscope : event.scope = scope
  · subst hscope
    have habout : about kindSays event.participantId event.scope event = some on := by
      simp [about, hsays]
    rcases le_or_gt event.sequence (counters event.scope) with hold | hnew
    · rw [Cell.take_old hold]
      simp [advance, hold]
    · rw [Cell.take_new habout hnew]
      simp [advance, not_le.2 hnew]
  · rw [Cell.take_none (by simp [about, hscope])]
    have hne : scope ≠ event.scope := fun heq => hscope heq.symm
    have hcounters : (advance counters event).2 scope = counters scope := by
      rw [advance_snd, Function.update_of_ne hne]
    simp only [Option.isSome_some, if_true, Option.elim_some, hcounters]
    split_ifs
    · rw [Function.update_of_ne hne]
    · rfl

theorem connectedCell_hear (h : m.Admits id) (scope : VoiceScope) :
    (m.hear event).connectedCell id scope = (m.connectedCell id scope).take
      VoiceRemoteEvent.sequence (about connects id scope) event := by
  by_cases hid : event.participantId = id
  · subst hid
    unfold connectedCell
    rw [(rowOf_hear_self h).connectedScopes, hear_connectedScopes, sequencesOf_hear, if_pos rfl,
      advanced_eq, take_of_advance]
  · unfold connectedCell
    rw [rowOf_hear_of_ne hid, sequencesOf_hear, if_neg hid,
      Cell.take_none (by simp [about, hid])]

theorem audioCell_hear (h : m.Admits id) (scope : VoiceScope) :
    (m.hear event).audioCell id scope = (m.audioCell id scope).take
      VoiceRemoteEvent.sequence (about sounds id scope) event := by
  by_cases hid : event.participantId = id
  · subst hid
    unfold audioCell
    rw [(rowOf_hear_self h).audioAvailableScopes, hear_audioAvailableScopes, sequencesOf_hear,
      if_pos rfl, advanced_eq, take_of_advance]
  · unfold audioCell
    rw [rowOf_hear_of_ne hid, sequencesOf_hear, if_neg hid,
      Cell.take_none (by simp [about, hid])]

/-! ## The indicator -/

theorem speakingIndicator_hear (h : m.Admits id) :
    (m.hear event).speakingIndicator id = (m.speakingIndicator id).take
      VoiceRemoteEvent.sequence (switches id) event := by
  by_cases hid : event.participantId = id
  · subst hid
    unfold speakingIndicator
    rw [(rowOf_hear_self h).speakingScope, hear_speakingScope, sequencesOf_hear, if_pos rfl,
      advanced_eq]
    rcases hspeaks : event.kind.speaks with _ | on
    · rw [Indicator.take_none (by simp [switches, hspeaks])]
      rfl
    have hswitches : switches event.participantId event = some (event.scope, on) := by
      simp [switches, hspeaks]
    rcases le_or_gt event.sequence ((m.sequencesOf event.participantId).speaking event.scope)
      with hold | hnew
    · rw [Indicator.take_old hswitches hold]
      simp [advance, hold]
    · rw [Indicator.take_new hswitches hnew]
      simp [advance, not_le.2 hnew]
  · unfold speakingIndicator
    rw [rowOf_hear_of_ne hid, sequencesOf_hear, if_neg hid,
      Indicator.take_none (by simp [switches, hid])]

/-! ## Runs in one generation -/

/-- What is projected out of the model follows the events of its generation, if it follows one. -/
theorem foldl_of_hear {β : Type*} (project : DesktopModel → β) (step : β → VoiceRemoteEvent → β)
    (hid : id ≠ [])
    (hhear : ∀ (m : DesktopModel) (event : VoiceRemoteEvent), m.Admits id →
      project (m.hear event) = step (project m) event)
    (hother : ∀ (b : β) (event : VoiceRemoteEvent), event.participantId ≠ id → step b event = b) :
    ∀ {events : List VoiceRemoteEvent} {m : DesktopModel}, m.Admits id →
      (∀ event ∈ events, event.generation = m.voiceGeneration) →
      project (m.applyVoiceRemoteEvents events) = events.foldl step (project m)
  | [], _, _, _ => rfl
  | event :: events, m, hadmits, hgeneration => by
    have hhead := hgeneration event List.mem_cons_self
    have htail := fun event hevent => hgeneration event (List.mem_cons_of_mem _ hevent)
    unfold applyVoiceRemoteEvents
    rw [List.foldl_cons, List.foldl_cons]
    by_cases hempty : event.participantId = []
    · rw [applyVoiceRemoteEvent_ignored (.inl hempty), hother _ _ (by rw [hempty]; exact hid.symm)]
      exact foldl_of_hear project step hid hhear hother hadmits htail
    · rw [applyVoiceRemoteEvent_current hhead hempty, ← hhear m event hadmits]
      exact foldl_of_hear project step hid hhear hother (admits_hear hadmits) fun e he =>
        (htail e he).trans (voiceGeneration_hear m event).symm

section Run

variable {events : List VoiceRemoteEvent} (hid : id ≠ []) (hadmits : m.Admits id)
  (hgeneration : ∀ event ∈ events, event.generation = m.voiceGeneration)

include hid hadmits hgeneration

theorem connectedCell_run (scope : VoiceScope) :
    (m.applyVoiceRemoteEvents events).connectedCell id scope
      = events.foldl (Cell.take VoiceRemoteEvent.sequence (about connects id scope))
        (m.connectedCell id scope) :=
  foldl_of_hear (connectedCell · id scope) _ hid (fun _ _ h => connectedCell_hear h scope)
    (fun _ _ hne => Cell.take_none (by simp [about, hne])) hadmits hgeneration

theorem audioCell_run (scope : VoiceScope) :
    (m.applyVoiceRemoteEvents events).audioCell id scope
      = events.foldl (Cell.take VoiceRemoteEvent.sequence (about sounds id scope))
        (m.audioCell id scope) :=
  foldl_of_hear (audioCell · id scope) _ hid (fun _ _ h => audioCell_hear h scope)
    (fun _ _ hne => Cell.take_none (by simp [about, hne])) hadmits hgeneration

theorem speakingIndicator_run :
    (m.applyVoiceRemoteEvents events).speakingIndicator id
      = events.foldl (Indicator.take VoiceRemoteEvent.sequence (switches id))
        (m.speakingIndicator id) :=
  foldl_of_hear (speakingIndicator · id) _ hid (fun _ _ h => speakingIndicator_hear h)
    (fun _ _ hne => Indicator.take_none (by simp [switches, hne])) hadmits hgeneration

end Run

/-! ## Rows after a run -/

theorem applyVoiceRemoteEvents_cons (m : DesktopModel) (event : VoiceRemoteEvent)
    (events : List VoiceRemoteEvent) :
    m.applyVoiceRemoteEvents (event :: events)
      = (m.applyVoiceRemoteEvent event).applyVoiceRemoteEvents events := rfl

/-- The event is newer than all that the model has counted. -/
def Newer (m : DesktopModel) (event : VoiceRemoteEvent) : Prop :=
  ∀ id scope, (m.sequencesOf id).connected scope < event.sequence
    ∧ (m.sequencesOf id).audioAvailable scope < event.sequence
    ∧ (m.sequencesOf id).speaking scope < event.sequence

theorem unheard_rowOf_run (id : Bytes) : ∀ {events : List VoiceRemoteEvent} {m : DesktopModel},
    (∀ event ∈ events, event.generation = m.voiceGeneration) →
    unheard ((m.applyVoiceRemoteEvents events).rowOf id) = unheard (m.rowOf id)
      ∧ (Consistent (m.rowOf id) → Consistent ((m.applyVoiceRemoteEvents events).rowOf id))
      ∧ (m.applyVoiceRemoteEvents events).serverPresence = m.serverPresence
  | [], _, _ => ⟨rfl, fun h => h, rfl⟩
  | event :: events, m, hgeneration => by
    have hhead := hgeneration event List.mem_cons_self
    have htail := fun event hevent => hgeneration event (List.mem_cons_of_mem _ hevent)
    rw [applyVoiceRemoteEvents_cons]
    by_cases hempty : event.participantId = []
    · rw [applyVoiceRemoteEvent_ignored (.inl hempty)]
      exact unheard_rowOf_run id htail
    · rw [applyVoiceRemoteEvent_current hhead hempty]
      obtain ⟨hunheard, hconsistent, hpresence⟩ := unheard_rowOf_run id
        fun e he => (htail e he).trans (voiceGeneration_hear m event).symm
      exact ⟨hunheard.trans (unheard_rowOf_hear m event id),
        fun h => hconsistent (consistent_rowOf_hear h event),
        hpresence.trans (serverPresence_hear m event)⟩

/-- A row that is up to date stays so. -/
theorem refreshed_run : ∀ {events : List VoiceRemoteEvent} {m : DesktopModel},
    (∀ event ∈ events, event.generation = m.voiceGeneration) →
    (∃ row, m.participants[id]? = some row ∧ Refreshed m.serverPresence row) →
    ∃ row, (m.applyVoiceRemoteEvents events).participants[id]? = some row
      ∧ Refreshed m.serverPresence row
  | [], _, _, h => h
  | event :: events, m, hgeneration, h => by
    have hhead := hgeneration event List.mem_cons_self
    have htail := fun event hevent => hgeneration event (List.mem_cons_of_mem _ hevent)
    rw [applyVoiceRemoteEvents_cons]
    by_cases hempty : event.participantId = []
    · rw [applyVoiceRemoteEvent_ignored (.inl hempty)]
      exact refreshed_run htail h
    · rw [applyVoiceRemoteEvent_current hhead hempty, ← serverPresence_hear m event]
      refine refreshed_run (fun e he => (htail e he).trans (voiceGeneration_hear m event).symm) ?_
      rw [serverPresence_hear]
      by_cases hid : event.participantId = id
      · subst hid
        by_cases hnew : ((m.sequencesOf event.participantId).advanced event).1 = {}
        · rwa [participants_hear_of_old hnew]
        · obtain ⟨row, hrow, -⟩ := h
          have hcontains := TreeMap.contains_iff.2 ⟨_, hrow⟩
          exact ⟨_, participants_hear_of_new hnew (.inl hcontains), refreshed_refresh _ _⟩
      · rwa [participants_hear_of_ne hid]

/-- A participant whom the events are about has a row that is up to date. -/
theorem exists_row (hid : id ≠ []) : ∀ {events : List VoiceRemoteEvent} {m : DesktopModel},
    m.Admits id → (∀ event ∈ events, event.generation = m.voiceGeneration) →
    (∀ event ∈ events, ∀ scope, (m.sequencesOf id).connected scope < event.sequence
      ∧ (m.sequencesOf id).audioAvailable scope < event.sequence
      ∧ (m.sequencesOf id).speaking scope < event.sequence) →
    (∃ event ∈ events, event.participantId = id) →
    ∃ row, (m.applyVoiceRemoteEvents events).participants[id]? = some row
      ∧ Refreshed m.serverPresence row
  | [], _, _, _, _, h => by simp at h
  | event :: events, m, hadmits, hgeneration, hnewer, h => by
    have hhead := hgeneration event List.mem_cons_self
    have htail := fun event hevent => hgeneration event (List.mem_cons_of_mem _ hevent)
    have hnewerTail := fun event hevent => hnewer event (List.mem_cons_of_mem _ hevent)
    rw [applyVoiceRemoteEvents_cons]
    by_cases hmine : event.participantId = id
    · subst hmine
      obtain ⟨hconnected, haudio, hspeaking⟩ := hnewer event List.mem_cons_self event.scope
      rw [applyVoiceRemoteEvent_current hhead hid, ← serverPresence_hear m event]
      refine refreshed_run (fun e he => (htail e he).trans (voiceGeneration_hear m event).symm) ?_
      rw [serverPresence_hear]
      exact ⟨_, participants_hear_of_new (advanced_fst_ne hconnected haudio hspeaking) hadmits,
        refreshed_refresh _ _⟩
    · have hlater : ∃ e ∈ events, e.participantId = id := by
        obtain ⟨e, he, heid⟩ := h
        rcases List.mem_cons.1 he with rfl | he
        · exact absurd heid hmine
        · exact ⟨e, he, heid⟩
      by_cases hempty : event.participantId = []
      · rw [applyVoiceRemoteEvent_ignored (.inl hempty)]
        exact exists_row hid hadmits htail hnewerTail hlater
      · rw [applyVoiceRemoteEvent_current hhead hempty, ← serverPresence_hear m event]
        refine exists_row hid (admits_hear hadmits)
          (fun e he => (htail e he).trans (voiceGeneration_hear m event).symm) ?_ hlater
        rwa [sequencesOf_hear, if_neg hmine]

/-- A participant whom no event is about, or who gets no row, keeps the one that he has. -/
theorem participants_run_of_unheard : ∀ {events : List VoiceRemoteEvent} {m : DesktopModel},
    (∀ event ∈ events, event.generation = m.voiceGeneration) →
    (∀ event ∈ events, event.participantId = id → id = [] ∨ ¬m.Admits id) →
    (m.applyVoiceRemoteEvents events).participants[id]? = m.participants[id]?
  | [], _, _, _ => rfl
  | event :: events, m, hgeneration, h => by
    have hhead := hgeneration event List.mem_cons_self
    have htail := fun event hevent => hgeneration event (List.mem_cons_of_mem _ hevent)
    have hrest := fun event hevent => h event (List.mem_cons_of_mem _ hevent)
    rw [applyVoiceRemoteEvents_cons]
    by_cases hempty : event.participantId = []
    · rw [applyVoiceRemoteEvent_ignored (.inl hempty)]
      exact participants_run_of_unheard htail hrest
    · have hsame : (m.hear event).participants[id]? = m.participants[id]? := by
        by_cases hid : event.participantId = id
        · subst hid
          rw [participants_hear_unlisted]
          exact (h event List.mem_cons_self rfl).resolve_left hempty
        · exact participants_hear_of_ne hid
      rw [applyVoiceRemoteEvent_current hhead hempty, ← hsame]
      exact participants_run_of_unheard
        (fun e he => (htail e he).trans (voiceGeneration_hear m event).symm)
        fun e he heid => (hrest e he heid).imp_right (mt admits_hear_iff.1)

/-! ## Two orders -/

section Perm

variable {events order : List VoiceRemoteEvent} (hperm : order.Perm events)
  (hdistinct : Distinct VoiceRemoteEvent.sequence events)
  (hgeneration : ∀ event ∈ events, event.generation = m.voiceGeneration)
  (hconsistent : m.AllConsistent)

include hperm hdistinct hgeneration hconsistent in
/-- What is heard of a participant, if the scope shown at the end is the same. -/
theorem sameVoice_perm (hid : id ≠ []) (hadmits : m.Admits id)
    (hshown : (order.foldl (Indicator.take VoiceRemoteEvent.sequence (switches id))
          (m.speakingIndicator id)).shown
        = (events.foldl (Indicator.take VoiceRemoteEvent.sequence (switches id))
          (m.speakingIndicator id)).shown) :
    SameVoice ((m.applyVoiceRemoteEvents order).rowOf id)
      ((m.applyVoiceRemoteEvents events).rowOf id) := by
  have hgeneration' : ∀ event ∈ order, event.generation = m.voiceGeneration :=
    fun event hevent => hgeneration event (hperm.mem_iff.1 hevent)
  have hscope : ((m.applyVoiceRemoteEvents order).speakingIndicator id).shown
      = ((m.applyVoiceRemoteEvents events).speakingIndicator id).shown := by
    rw [speakingIndicator_run hid hadmits hgeneration',
      speakingIndicator_run hid hadmits hgeneration, hshown]
  have hconnected := fun scope => (connectedCell_run hid hadmits hgeneration' scope).trans
    ((Cell.foldl_perm hdistinct hperm.symm _).symm.trans
      (connectedCell_run hid hadmits hgeneration scope).symm)
  have haudio := fun scope => (audioCell_run hid hadmits hgeneration' scope).trans
    ((Cell.foldl_perm hdistinct hperm.symm _).symm.trans
      (audioCell_run hid hadmits hgeneration scope).symm)
  have hspeaking := (unheard_rowOf_run id hgeneration).2.1 (hconsistent id)
  have hspeaking' := (unheard_rowOf_run id hgeneration').2.1 (hconsistent id)
  exact ⟨funext fun scope => congrArg Cell.value (hconnected scope),
    funext fun scope => congrArg Cell.value (haudio scope),
    hspeaking'.trans ((congrArg Option.isSome hscope).trans hspeaking.symm), hscope⟩

include hperm hdistinct hgeneration hconsistent in
theorem participants_perm (hnewer : ∀ event ∈ events, m.Newer event)
    (hshown : ∀ id, id ≠ [] → m.Admits id →
      (order.foldl (Indicator.take VoiceRemoteEvent.sequence (switches id))
          (m.speakingIndicator id)).shown
        = (events.foldl (Indicator.take VoiceRemoteEvent.sequence (switches id))
          (m.speakingIndicator id)).shown) :
    (m.applyVoiceRemoteEvents order).participants
      = (m.applyVoiceRemoteEvents events).participants := by
  have hgeneration' : ∀ event ∈ order, event.generation = m.voiceGeneration :=
    fun event hevent => hgeneration event (hperm.mem_iff.1 hevent)
  refine Std.ExtTreeMap.ext_getElem? fun id => ?_
  by_cases hheard : id ≠ [] ∧ m.Admits id ∧ ∃ event ∈ events, event.participantId = id
  · obtain ⟨hid, hadmits, event, hevent, heid⟩ := hheard
    obtain ⟨a, ha, hafresh⟩ := exists_row hid hadmits hgeneration'
      (fun event hevent => hnewer event (hperm.mem_iff.1 hevent) id)
      ⟨event, hperm.mem_iff.2 hevent, heid⟩
    obtain ⟨b, hb, hbfresh⟩ := exists_row hid hadmits hgeneration
      (fun event hevent => hnewer event hevent id) ⟨event, hevent, heid⟩
    have hunheard := (unheard_rowOf_run id hgeneration').1.trans
      (unheard_rowOf_run id hgeneration).1.symm
    have hvoice := sameVoice_perm hperm hdistinct hgeneration hconsistent hid hadmits
      (hshown id hid hadmits)
    rw [rowOf_eq ha, rowOf_eq hb] at hunheard hvoice
    rw [ha, hb, row_ext hunheard hvoice hafresh hbfresh]
  · have hnone : ∀ event ∈ events, event.participantId = id → id = [] ∨ ¬m.Admits id :=
      fun event hevent heid => by
        by_contra hnot
        rw [not_or, not_not] at hnot
        exact hheard ⟨hnot.1, hnot.2, event, hevent, heid⟩
    rw [participants_run_of_unheard hgeneration hnone, participants_run_of_unheard hgeneration'
      fun event hevent => hnone event (hperm.mem_iff.1 hevent)]

end Perm

/-- The first event that is not ignored enters its generation. -/
theorem applyVoiceRemoteEvents_enter {generation : ℕ} (h : m.voiceGeneration ≤ generation) :
    ∀ {events : List VoiceRemoteEvent}, (∀ event ∈ events, event.generation = generation) →
      (∃ event ∈ events, event.participantId ≠ []) →
      m.applyVoiceRemoteEvents events
        = (m.enterGeneration generation).applyVoiceRemoteEvents events
  | [], _, hsome => by simp at hsome
  | event :: events, hgeneration, hsome => by
    have hhead := hgeneration event List.mem_cons_self
    rw [applyVoiceRemoteEvents_cons, applyVoiceRemoteEvents_cons]
    by_cases hempty : event.participantId = []
    · rw [applyVoiceRemoteEvent_ignored (.inl hempty), applyVoiceRemoteEvent_ignored (.inl hempty)]
      refine applyVoiceRemoteEvents_enter h
        (fun e he => hgeneration e (List.mem_cons_of_mem _ he)) ?_
      obtain ⟨e, he, hne⟩ := hsome
      rcases List.mem_cons.1 he with rfl | he
      · exact absurd hempty hne
      · exact ⟨e, he, hne⟩
    · have hcurrent := enterGeneration_voiceGeneration h
      rw [applyVoiceRemoteEvent_current (hhead.trans hcurrent.symm) hempty]
      unfold applyVoiceRemoteEvent
      rw [if_neg (not_or.2 ⟨hempty, by omega⟩), hhead]

theorem applyVoiceRemoteEvents_ignored : ∀ {events : List VoiceRemoteEvent},
    (∀ event ∈ events, event.participantId = [] ∨ event.generation < m.voiceGeneration) →
    m.applyVoiceRemoteEvents events = m
  | [], _ => rfl
  | event :: events, h => by
    rw [applyVoiceRemoteEvents_cons, applyVoiceRemoteEvent_ignored (h event List.mem_cons_self)]
    exact applyVoiceRemoteEvents_ignored fun e he => h e (List.mem_cons_of_mem _ he)

/-! ## Any starting state -/

theorem Silent.enterGeneration (h : m.Silent) (generation : ℕ) :
    (m.enterGeneration generation).Silent := fun id => by
  rcases enterGeneration_cases m generation with heq | ⟨hcleared, -⟩
  · rw [heq]
    exact h id
  · exact (hcleared id).speakingScope

theorem Silent.speaking (h : m.Silent) (hconsistent : m.AllConsistent) {row : ParticipantState}
    (hrow : m.participants[id]? = some row) : row.speaking = false := by
  have hscope := h id
  have hrowConsistent := hconsistent id
  rw [rowOf_eq hrow] at hscope hrowConsistent
  unfold Consistent at hrowConsistent
  rw [hrowConsistent, hscope]
  rfl

theorem silent_of_speaking (hconsistent : m.AllConsistent)
    (h : ∀ (id : Bytes) (row : ParticipantState), m.participants[id]? = some row →
      row.speaking = false) : m.Silent := fun id => by
  have hrowConsistent := hconsistent id
  rcases hrow : m.participants[id]? with _ | row
  · unfold rowOf
    rw [hrow]
    rfl
  · rw [rowOf_eq hrow] at hrowConsistent ⊢
    unfold Consistent at hrowConsistent
    rw [h id row hrow] at hrowConsistent
    exact Option.not_isSome_iff_eq_none.1 (by simp [← hrowConsistent])

theorem Newer.enterGeneration (h : m.Newer event) (generation : ℕ) :
    (m.enterGeneration generation).Newer event := fun id scope => by
  have hid := h id scope
  rcases enterGeneration_cases m generation with heq | ⟨-, hcleared⟩
  · rwa [heq]
  · have hpositive : 0 < event.sequence := by omega
    rw [hcleared id]
    exact ⟨hpositive, hpositive, hpositive⟩

/-! ## Who speaks -/

/-- The latest event about the participant's speaking in the scope is a `speaker_started`. -/
def Speaks (events : List VoiceRemoteEvent) (id : Bytes) (scope : VoiceScope) : Prop :=
  ∃ event ∈ events, event.participantId = id ∧ event.scope = scope
    ∧ event.kind = .speakerStarted
    ∧ ∀ other ∈ events, other.participantId = id → other.scope = scope →
      other.kind.speaks ≠ none → other.sequence ≤ event.sequence

/-- One of the events is the participant's `speaker_started` in the scope. -/
def Started (events : List VoiceRemoteEvent) (id : Bytes) (scope : VoiceScope) : Prop :=
  ∃ event ∈ events, event.participantId = id ∧ event.scope = scope ∧ event.kind = .speakerStarted

theorem speaks_eq_true {kind : VoiceRemoteEventKind} :
    kind.speaks = some true ↔ kind = .speakerStarted := by
  rcases kind <;> simp [speaks]

theorem switches_eq_some {scope : VoiceScope} {on : Bool} : switches id event = some (scope, on)
    ↔ event.participantId = id ∧ event.scope = scope ∧ event.kind.speaks = some on := by
  unfold switches
  split_ifs with hid
  · rcases event.kind.speaks with _ | on' <;> simp [hid]
  · simp [hid]

theorem live_iff {events : List VoiceRemoteEvent} {scope : VoiceScope} :
    Indicator.Live VoiceRemoteEvent.sequence (switches id) events scope
      ↔ Speaks events id scope := by
  constructor
  · rintro ⟨event, hevent, hswitches, hlast⟩
    obtain ⟨hid, hscope, hspeaks⟩ := switches_eq_some.1 hswitches
    refine ⟨event, hevent, hid, hscope, speaks_eq_true.1 hspeaks,
      fun other hother hoid hos hne => ?_⟩
    obtain ⟨on, hon⟩ := Option.ne_none_iff_exists'.1 hne
    exact hlast other hother on (switches_eq_some.2 ⟨hoid, hos, hon⟩)
  · rintro ⟨event, hevent, hid, hscope, hkind, hlast⟩
    refine ⟨event, hevent, switches_eq_some.2 ⟨hid, hscope, speaks_eq_true.2 hkind⟩,
      fun other hother on hswitches => ?_⟩
    obtain ⟨hoid, hos, hspeaks⟩ := switches_eq_some.1 hswitches
    exact hlast other hother hoid hos (by simp [hspeaks])

theorem Speaks.started {events : List VoiceRemoteEvent} {scope : VoiceScope}
    (h : Speaks events id scope) : Started events id scope := by
  obtain ⟨event, hevent, hid, hscope, hkind, -⟩ := h
  exact ⟨event, hevent, hid, hscope, hkind⟩

theorem started_perm {events order : List VoiceRemoteEvent} {scope : VoiceScope}
    (hperm : order.Perm events) : Started order id scope ↔ Started events id scope := by
  unfold Started
  simp only [hperm.mem_iff]

theorem speaks_perm {events order : List VoiceRemoteEvent} {scope : VoiceScope}
    (hperm : order.Perm events) : Speaks order id scope ↔ Speaks events id scope := by
  unfold Speaks
  simp only [hperm.mem_iff]

/-- In any order the same participants are left, and those speak whose latest event says so. -/
structure Tolerates (m : DesktopModel) (events : List VoiceRemoteEvent) : Prop where
  orders : ∀ order, order.Perm events → (m.applyVoiceRemoteEvents order).participants
    = (m.applyVoiceRemoteEvents events).participants
  speaking : ∀ order, order.Perm events → ∀ id row,
    (m.applyVoiceRemoteEvents order).participants[id]? = some row →
      (row.speaking = true ↔ ∃ scope, Speaks events id scope)

/-- A participant who is left speaking in a scope has started to in no other scope, and the events
about him are not ignored. -/
structure Separate (m : DesktopModel) (generation : ℕ) (events : List VoiceRemoteEvent) :
    Prop where
  taken : ∀ id scope, m.participants.contains id = true → Speaks events id scope →
    id ≠ [] ∧ m.voiceGeneration ≤ generation
  alone : ∀ id scope scope', m.Admits id → id ≠ [] → m.voiceGeneration ≤ generation →
    Speaks events id scope → Started events id scope' → scope' = scope

section Order

variable {events : List VoiceRemoteEvent} {generation : ℕ}
  (hdistinct : Distinct VoiceRemoteEvent.sequence events)
  (hgeneration : ∀ event ∈ events, event.generation = m.voiceGeneration)
  (hnewer : ∀ event ∈ events, m.Newer event) (hsilent : m.Silent)

include hnewer in
theorem above_of_newer (id : Bytes) : Indicator.Above VoiceRemoteEvent.sequence (switches id)
    (m.speakingIndicator id) events :=
  fun event hevent scope _ _ => (hnewer event hevent id scope).2.2

include hdistinct hnewer hsilent in
/-- What the indicator shows at the end, where one scope at most stays speaking and no other one
has started to. -/
theorem shown_iff (halone : ∀ scope scope', Speaks events id scope → Started events id scope' →
    scope' = scope) (scope : VoiceScope) :
    (events.foldl (Indicator.take VoiceRemoteEvent.sequence (switches id))
      (m.speakingIndicator id)).shown = some scope ↔ Speaks events id scope := by
  refine ⟨fun h => live_iff.1 (Indicator.live_of_shown (hsilent id) h), fun h => ?_⟩
  refine Indicator.shown_of_live hdistinct (above_of_newer hnewer id) ?_ (live_iff.2 h)
  intro event hevent scope' hswitches
  obtain ⟨hid, hscope, hspeaks⟩ := switches_eq_some.1 hswitches
  exact halone scope scope' h ⟨event, hevent, hid, hscope, speaks_eq_true.1 hspeaks⟩

include hdistinct hgeneration hnewer hsilent in
/-- The row of a participant whom the events are about speaks if he does. -/
theorem speaking_iff (hconsistent : m.AllConsistent) (hid : id ≠ []) {row : ParticipantState}
    (hrow : (m.applyVoiceRemoteEvents events).participants[id]? = some row)
    (halone : ∀ scope scope', m.Admits id → Speaks events id scope → Started events id scope' →
      scope' = scope) :
    row.speaking = true ↔ ∃ scope, Speaks events id scope := by
  have hspeaking : row.speaking = row.speakingScope.isSome := by
    have hrun := (unheard_rowOf_run id hgeneration).2.1 (hconsistent id)
    rwa [rowOf_eq hrow] at hrun
  by_cases hadmits : m.Admits id
  · have hindicator := congrArg Indicator.shown (speakingIndicator_run hid hadmits hgeneration)
    have hscope : ((m.applyVoiceRemoteEvents events).speakingIndicator id).shown
        = row.speakingScope := congrArg ParticipantState.speakingScope (rowOf_eq hrow)
    rw [hspeaking, ← hscope, hindicator, Option.isSome_iff_exists]
    exact exists_congr fun scope => shown_iff hdistinct hnewer hsilent
      (fun scope scope' => halone scope scope' hadmits) scope
  · -- without a row before, and none to get, there is none after
    rw [participants_run_of_unheard hgeneration fun _ _ _ => .inr hadmits] at hrow
    exact absurd (.inl (TreeMap.contains_iff.2 ⟨row, hrow⟩)) hadmits

/-- A row that speaks neither before nor after is not said to speak. -/
theorem Tolerates.not_speaks (h : m.Tolerates events) (hsilent : m.Silent)
    (hconsistent : m.AllConsistent) (hcontains : m.participants.contains id = true)
    (hkept : (m.applyVoiceRemoteEvents events).participants[id]? = m.participants[id]?)
    {scope : VoiceScope} : ¬Speaks events id scope := by
  intro hspeaks
  obtain ⟨row, hrow⟩ := TreeMap.contains_iff.1 hcontains
  have hspeaking := (h.speaking events (List.Perm.refl _) id row (hkept.trans hrow)).2
    ⟨scope, hspeaks⟩
  simp [hsilent.speaking hconsistent hrow] at hspeaking

include hdistinct hgeneration hnewer in
theorem current_perm {order : List VoiceRemoteEvent} (hperm : order.Perm events) :
    Distinct VoiceRemoteEvent.sequence order
      ∧ (∀ event ∈ order, event.generation = m.voiceGeneration)
      ∧ ∀ event ∈ order, m.Newer event :=
  ⟨hdistinct.perm hperm.symm, fun event hevent => hgeneration event (hperm.mem_iff.1 hevent),
    fun event hevent => hnewer event (hperm.mem_iff.1 hevent)⟩

include hdistinct hgeneration hnewer hsilent in
/-- Who stays speaking and starts elsewhere is shown differently in two orders. -/
theorem Tolerates.separate (hconsistent : m.AllConsistent) (h : m.Tolerates events) :
    m.Separate m.voiceGeneration events where
  taken id scope hcontains hspeaks := by
    refine ⟨fun hempty => ?_, le_rfl⟩
    -- a row without an identifier is not changed
    exact h.not_speaks hsilent hconsistent hcontains
      (participants_run_of_unheard hgeneration fun _ _ _ => .inl hempty) hspeaks
  alone id scope scope' hadmits hid _ hspeaks hstarted := by
    by_contra hne
    obtain ⟨event, hevent, heid, hscope, hkind⟩ := hstarted
    obtain ⟨order, order', horder, horder', hdiffer⟩ := Indicator.exists_perms hdistinct
      (above_of_newer hnewer id) (live_iff.2 hspeaks) hevent
      (switches_eq_some.2 ⟨heid, hscope, speaks_eq_true.2 hkind⟩) hne
    refine hdiffer ?_
    have hsame := (h.orders order horder).trans (h.orders order' horder').symm
    have hcurrent := (current_perm hdistinct hgeneration hnewer horder).2.1
    have hcurrent' := (current_perm hdistinct hgeneration hnewer horder').2.1
    rw [← speakingIndicator_run hid hadmits hcurrent,
      ← speakingIndicator_run hid hadmits hcurrent']
    show ((m.applyVoiceRemoteEvents order).rowOf id).speakingScope
      = ((m.applyVoiceRemoteEvents order').rowOf id).speakingScope
    unfold rowOf
    rw [hsame]

include hdistinct hgeneration hnewer hsilent in
theorem Separate.tolerates (hconsistent : m.AllConsistent)
    (h : m.Separate m.voiceGeneration events) : m.Tolerates events where
  orders order horder := by
    obtain ⟨hdistinct', -, hnewer'⟩ := current_perm hdistinct hgeneration hnewer horder
    refine participants_perm horder hdistinct hgeneration hconsistent hnewer
      fun id hid hadmits => Option.ext fun scope => ?_
    have halone := fun scope scope' => h.alone id scope scope' hadmits hid le_rfl
    rw [shown_iff hdistinct hnewer hsilent halone scope,
      shown_iff hdistinct' hnewer' hsilent (fun scope scope' hspeaks hstarted =>
        halone scope scope' ((speaks_perm horder).1 hspeaks) ((started_perm horder).1 hstarted)),
      speaks_perm horder]
  speaking order horder id row hrow := by
    obtain ⟨hdistinct', hgeneration', hnewer'⟩ :=
      current_perm hdistinct hgeneration hnewer horder
    by_cases hid : id = []
    · rw [participants_run_of_unheard hgeneration' fun _ _ _ => .inl hid] at hrow
      refine ⟨fun hspeaking => ?_, fun ⟨scope, hspeaks⟩ => ?_⟩
      · simp [hsilent.speaking hconsistent hrow] at hspeaking
      · exact absurd hid (h.taken id scope (TreeMap.contains_iff.2 ⟨row, hrow⟩) hspeaks).1
    · rw [speaking_iff hdistinct' hgeneration' hnewer' hsilent hconsistent hid hrow
        fun scope scope' hadmits hspeaks hstarted => h.alone id scope scope' hadmits hid le_rfl
          ((speaks_perm horder).1 hspeaks) ((started_perm horder).1 hstarted)]
      exact exists_congr fun scope => speaks_perm horder

include hdistinct hgeneration hnewer hsilent in
theorem tolerates_current (hconsistent : m.AllConsistent) :
    m.Tolerates events ↔ m.Separate m.voiceGeneration events :=
  ⟨fun h => h.separate hdistinct hgeneration hnewer hsilent hconsistent,
    fun h => h.tolerates hdistinct hgeneration hnewer hsilent hconsistent⟩

end Order

/-- Events that are all ignored. -/
theorem tolerates_ignored {events : List VoiceRemoteEvent} {generation : ℕ} (hsilent : m.Silent)
    (hconsistent : m.AllConsistent) (hgeneration : ∀ event ∈ events, event.generation = generation)
    (hignored : ∀ event ∈ events, event.participantId = [] ∨ event.generation < m.voiceGeneration) :
    m.Tolerates events ↔ m.Separate generation events := by
  have hrun : ∀ {order : List VoiceRemoteEvent}, order.Perm events →
      m.applyVoiceRemoteEvents order = m := fun hperm =>
    applyVoiceRemoteEvents_ignored fun event hevent => hignored event (hperm.mem_iff.1 hevent)
  have hspeaks : ∀ {id scope}, Speaks events id scope →
      id = [] ∨ generation < m.voiceGeneration := by
    rintro id scope ⟨event, hevent, rfl, -⟩
    rw [← hgeneration event hevent]
    exact hignored event hevent
  constructor
  · refine fun h => ⟨fun id scope hcontains hs => ?_, fun id scope _ _ hid hcurrent hs _ => ?_⟩
    · have hkept : (m.applyVoiceRemoteEvents events).participants[id]? = m.participants[id]? := by
        rw [hrun (List.Perm.refl _)]
      exact absurd hs (h.not_speaks hsilent hconsistent hcontains hkept)
    · rcases hspeaks hs with hempty | hold
      · exact absurd hempty hid
      · omega
  · refine fun h => ⟨fun order hperm => by rw [hrun hperm, hrun (List.Perm.refl _)],
      fun order hperm id row hrow => ⟨fun hspeaking => ?_, fun ⟨scope, hs⟩ => ?_⟩⟩
    · rw [hrun hperm] at hrow
      simp [hsilent.speaking hconsistent hrow] at hspeaking
    · rw [hrun hperm] at hrow
      obtain ⟨hid, hcurrent⟩ := h.taken id scope (TreeMap.contains_iff.2 ⟨row, hrow⟩) hs
      rcases hspeaks hs with hempty | hold
      · exact absurd hempty hid
      · omega

theorem Tolerates.congr {m' : DesktopModel} {events : List VoiceRemoteEvent}
    (hrun : ∀ order : List VoiceRemoteEvent, order.Perm events →
      m.applyVoiceRemoteEvents order = m'.applyVoiceRemoteEvents order)
    (h : m.Tolerates events) : m'.Tolerates events where
  orders order hperm := by
    rw [← hrun order hperm, ← hrun events (List.Perm.refl _)]
    exact h.orders order hperm
  speaking order hperm := by
    rw [← hrun order hperm]
    exact h.speaking order hperm

/-- The condition says the same of a model that has entered the generation of the events. -/
theorem separate_enterGeneration {events : List VoiceRemoteEvent} {generation : ℕ}
    (hle : m.voiceGeneration ≤ generation) :
    (m.enterGeneration generation).Separate generation events ↔ m.Separate generation events := by
  have hcurrent := enterGeneration_voiceGeneration hle
  refine ⟨fun h => ⟨fun id scope hcontains hs => ?_, fun id scope scope' hadmits hne _ => ?_⟩,
    fun h => ⟨fun id scope hcontains hs => ?_, fun id scope scope' hadmits hne _ => ?_⟩⟩
  · rw [← contains_enterGeneration m generation] at hcontains
    exact ⟨(h.taken id scope hcontains hs).1, hle⟩
  · exact h.alone id scope scope' (admits_enterGeneration.2 hadmits) hne hcurrent.le
  · rw [contains_enterGeneration m generation] at hcontains
    exact ⟨(h.taken id scope hcontains hs).1, hcurrent.le⟩
  · exact h.alone id scope scope' (admits_enterGeneration.1 hadmits) hne hle

/-- In whatever state the model is, as long as nobody speaks: newer events of one generation may
come in any order exactly if they keep to the condition. -/
theorem applyVoiceRemoteEvents_tolerates (operations : List Operation)
    {events : List VoiceRemoteEvent} {generation : ℕ}
    (hsilent : ∀ (id : Bytes) (row : ParticipantState),
      (after operations).participants[id]? = some row → row.speaking = false)
    (hgeneration : ∀ event ∈ events, event.generation = generation)
    (hascending : events.Pairwise fun a b => a.sequence < b.sequence)
    (hnewer : ∀ event ∈ events, (after operations).Newer event) :
    (after operations).Tolerates events ↔ (after operations).Separate generation events := by
  have hconsistent := consistent_after operations
  generalize after operations = m at hsilent hnewer hconsistent ⊢
  have hsilent := silent_of_speaking hconsistent hsilent
  have hdistinct : Distinct VoiceRemoteEvent.sequence events :=
    List.pairwise_map.2 (hascending.imp fun hlt => hlt.ne)
  by_cases htaken : m.voiceGeneration ≤ generation ∧ ∃ event ∈ events, event.participantId ≠ []
  · obtain ⟨hle, event, hevent, hid⟩ := htaken
    have hcurrent := enterGeneration_voiceGeneration hle
    have hrun : ∀ order : List VoiceRemoteEvent, order.Perm events → m.applyVoiceRemoteEvents order
        = (m.enterGeneration generation).applyVoiceRemoteEvents order := fun order hperm =>
      applyVoiceRemoteEvents_enter hle (fun e he => hgeneration e (hperm.mem_iff.1 he))
        ⟨event, hperm.mem_iff.2 hevent, hid⟩
    have hentered := tolerates_current hdistinct
      (fun e he => (hgeneration e he).trans hcurrent.symm)
      (fun e he => (hnewer e he).enterGeneration generation) (hsilent.enterGeneration generation)
      (allConsistent_enterGeneration hconsistent generation)
    have htolerates : m.Tolerates events ↔ (m.enterGeneration generation).Tolerates events :=
      ⟨.congr hrun, .congr fun order hperm => (hrun order hperm).symm⟩
    rw [htolerates, hentered, hcurrent, separate_enterGeneration hle]
  · refine tolerates_ignored hsilent hconsistent hgeneration fun event hevent => ?_
    by_contra hnot
    rw [not_or, hgeneration event hevent] at hnot
    exact htaken ⟨by omega, event, hevent, hnot.1⟩

/-! ## One scope and two -/

section Samples

def aliceSpeech (kind : VoiceRemoteEventKind) (scope : VoiceScope) (sequence : ℕ) :
    VoiceRemoteEvent :=
  ⟨kind, scope, bytes "alice", 1, sequence⟩

/-- What stops in another scope than the one that has started does not matter. -/
def oneScope : List VoiceRemoteEvent :=
  [aliceSpeech .speakerStarted .team 1, aliceSpeech .speakerStopped .group 2]

def twoScopes : List VoiceRemoteEvent :=
  [aliceSpeech .speakerStarted .team 1, aliceSpeech .speakerStarted .group 2]

end Samples

theorem oneScope_tolerates : (after [.beginConnect]).Tolerates oneScope := by
  have hstarted : ∀ {id scope}, Started oneScope id scope → scope = .team := by
    rintro id scope ⟨event, hevent, -, rfl, hkind⟩
    simp only [oneScope, List.mem_cons, List.not_mem_nil, or_false] at hevent
    rcases hevent with rfl | rfl
    · rfl
    · cases hkind
  refine (@applyVoiceRemoteEvents_tolerates [.beginConnect] oneScope 1
    (fun id row hrow => ?_) ?_ ?_ ?_).2 ⟨fun id scope hcontains => ?_,
      fun id scope scope' _ _ _ hs hs' => (hstarted hs').trans (hstarted hs.started).symm⟩
  · have hnone : (∅ : Participants)[id]? = some row := hrow
    simp at hnone
  · decide
  · decide
  · intro event hevent id scope
    have hpositive : 0 < event.sequence := by
      revert event
      decide
    have huncounted : (after [.beginConnect]).sequencesOf id = {} := by
      show Option.getD (∅ : Std.ExtTreeMap Bytes ParticipantVoiceSequences)[id]? _ = _
      simp
    rw [huncounted]
    exact ⟨hpositive, hpositive, hpositive⟩
  · have hnone : (∅ : Participants).contains id = true := hcontains
    simp at hnone

/-- Who has started in two scopes is shown in the one whose event came last. -/
theorem twoScopes_differ : ¬(after [.beginConnect]).Tolerates twoScopes := by
  intro h
  have horders := h.orders twoScopes.reverse (List.reverse_perm _)
  have hteam : (((after [.beginConnect]).applyVoiceRemoteEvents twoScopes.reverse).rowOf
      (bytes "alice")).speakingScope = some .team := by decide +kernel
  have hgroup : (((after [.beginConnect]).applyVoiceRemoteEvents twoScopes).rowOf
      (bytes "alice")).speakingScope = some .group := by decide +kernel
  unfold rowOf at hteam hgroup
  rw [horders, hgroup] at hteam
  cases hteam

end DesktopModel

end Presentation

end VoxTree

import Mathlib.Data.List.Induction
import VoxTree.Proofs.DesktopModel
import VoxTree.Proofs.VoiceEvents

/-!
# The rows of the participants

What the operations that are not about voice do to the rows: a directory takes over what the model
has of the participants that it lists, and the others leave what voice events have said as it is,
or clear it. So a row always says that its participant speaks exactly if it names a scope
(`consistent_after`).
-/

namespace VoxTree

namespace Presentation

open Client

namespace DesktopModel

variable {m : DesktopModel} {id : Bytes}

/-! ## The rows of a directory -/

theorem getElem?_foldl_insertIfNew (row : DirectoryParticipantView → ParticipantState)
    (listed : List DirectoryParticipantView) : ∀ (rows : Participants) (id : Bytes),
    (listed.foldl (fun rows source => rows.insertIfNew source.playerId (row source)) rows)[id]?
      = (rows[id]?).or ((listed.find? fun source => source.playerId = id).map row) := by
  induction listed with
  | nil => simp
  | cons source rest ih =>
    intro rows id
    rw [List.foldl_cons, ih, Std.ExtTreeMap.getElem?_insertIfNew, List.find?_cons]
    by_cases hid : source.playerId = id
    · subst hid
      rcases hrow : rows[source.playerId]? with _ | existing
      · have hnew : source.playerId ∉ rows := by
          rw [Std.ExtTreeMap.mem_iff_isSome_getElem?, hrow]
          simp
        simp [hnew]
      · have hold : source.playerId ∈ rows := by
          rw [Std.ExtTreeMap.mem_iff_isSome_getElem?, hrow]
          rfl
        simp [hold]
    · have hcompare : ¬compare source.playerId id = .eq := fun heq =>
        hid (Std.LawfulEqCmp.compare_eq_iff_eq.1 heq)
      simp [hid, hcompare]

theorem getElem?_rowsFor (m : DesktopModel) (listed : List DirectoryParticipantView) (id : Bytes) :
    (m.rowsFor listed)[id]? = (listed.find? fun source => source.playerId = id).map m.rowFor := by
  unfold rowsFor
  rw [getElem?_foldl_insertIfNew]
  simp

theorem rowFor_sameVoice {source : DirectoryParticipantView} (h : source.playerId = id) :
    SameVoice (m.rowFor source) (m.rowOf id) := by
  subst h
  unfold rowFor rowOf
  rcases m.participants[source.playerId]? with _ | row
  · exact ⟨rfl, rfl, rfl, rfl⟩
  · exact ⟨rfl, rfl, rfl, rfl⟩

theorem rowOf_refreshParticipants {rows : Participants} {serverPresence : ServerPresence}
    {m' : DesktopModel} (h : m'.participants = refreshParticipants serverPresence rows) :
    SameVoice (m'.rowOf id) ((rows[id]?).getD (.placeholder id)) := by
  unfold rowOf refreshParticipants at *
  rw [h, Std.ExtTreeMap.getElem?_map]
  rcases rows[id]? with _ | row <;> exact ⟨rfl, rfl, rfl, rfl⟩

/-! ## Consistent rows -/

theorem SameVoice.consistent {a b : ParticipantState} (h : SameVoice a b) (hb : Consistent b) :
    Consistent a := by
  unfold Consistent
  rw [h.speaking, h.speakingScope]
  exact hb

/-- All rows are consistent. -/
def AllConsistent (m : DesktopModel) : Prop := ∀ id, Consistent (m.rowOf id)

theorem AllConsistent.of_participants {m' : DesktopModel} (h : m.AllConsistent)
    (hsame : m'.participants = m.participants) : m'.AllConsistent := fun id => by
  unfold rowOf
  rw [hsame]
  exact h id

theorem allConsistent_of_empty (h : m.participants = ∅) : m.AllConsistent := fun id => by
  unfold rowOf
  rw [h]
  exact (rfl : Consistent (.placeholder id))

theorem allConsistent_enterGeneration (h : m.AllConsistent) (generation : ℕ) :
    (m.enterGeneration generation).AllConsistent := by
  unfold enterGeneration
  split_ifs
  · exact fun id => (rowOf_clear m id).consistent rfl
  · exact h

theorem allConsistent_applyMembership (h : m.AllConsistent) (membership : MembershipView) :
    (m.applyMembership membership).AllConsistent := by
  unfold applyMembership
  dsimp only
  split_ifs
  · exact allConsistent_of_empty (by simp [clearGroup, clearRemoteTransportState])
  · exact h.of_participants rfl

theorem allConsistent_modifyParticipant (h : m.AllConsistent) (participantId : Bytes)
    {change : ParticipantState → ParticipantState}
    (hchange : ∀ row, Consistent row → Consistent (change row)) :
    (m.modifyParticipant participantId change).AllConsistent := fun id => by
  have hrow := h id
  unfold rowOf modifyParticipant at *
  rw [Std.ExtTreeMap.getElem?_modify]
  split_ifs with hid
  · obtain rfl := Std.LawfulEqCmp.compare_eq_iff_eq.1 hid
    rcases hget : m.participants[participantId]? with _ | row
    · exact (rfl : Consistent (.placeholder participantId))
    · rw [hget] at hrow
      exact hchange row hrow
  · exact hrow

theorem allConsistent_applyDirectory (h : m.AllConsistent) (directory : DirectoryView) :
    (m.applyDirectory directory).2.AllConsistent := by
  unfold applyDirectory
  split
  · exact h
  split_ifs
  · exact h
  · exact h
  · intro id
    refine (rowOf_refreshParticipants rfl).consistent ?_
    rw [getElem?_rowsFor]
    generalize hfind : List.find? _ directory.participants = found
    rcases found with _ | source
    · exact (rfl : Consistent (.placeholder id))
    · have hid : source.playerId = id := by simpa using List.find?_some hfind
      exact (rowFor_sameVoice hid).consistent (h id)

theorem allConsistent_applyPresence (h : m.AllConsistent) (presence : DirectoryPresenceView) :
    (m.applyPresence presence).2.AllConsistent := by
  unfold applyPresence
  split_ifs
  · exact h
  · exact h
  · exact h
  all_goals exact fun id => (rowOf_refreshParticipants rfl).consistent (h id)

theorem allConsistent_applyVoiceRemoteEvent (h : m.AllConsistent) (event : VoiceRemoteEvent) :
    (m.applyVoiceRemoteEvent event).AllConsistent := by
  unfold applyVoiceRemoteEvent
  split_ifs
  · exact h
  · have hentered := allConsistent_enterGeneration h event.generation
    exact fun id => consistent_rowOf_hear (hentered id) event

theorem allConsistent_updateVoiceState (h : m.AllConsistent) (event : VoiceConnectionEvent) :
    (m.updateVoiceState event).AllConsistent := by
  have henter := allConsistent_enterGeneration h event.generation
  unfold updateVoiceState
  dsimp only
  split_ifs
  · exact h
  · exact henter
  · refine henter.of_participants ?_
    rcases event.state <;> rfl

theorem allConsistent_apply (h : m.AllConsistent) : ∀ operation, (m.apply operation).AllConsistent
  | .beginConnect => by
    simp only [apply, beginConnect]
    split_ifs
    · exact allConsistent_of_empty rfl
    · exact h
  | .connectionSucceeded membership => by
    simp only [apply, connectionSucceeded]
    split_ifs
    · exact h
    · exact h
    · exact (allConsistent_applyMembership h membership).of_participants rfl
  | .connectionFailed .. => allConsistent_of_empty rfl
  | .beginDisconnect => by
    simp only [apply, beginDisconnect]
    split_ifs
    · exact h.of_participants rfl
    · exact h
  | .disconnected => allConsistent_of_empty rfl
  | .updateVoiceState event => allConsistent_updateVoiceState h event
  | .updateMembership membership => by
    simp only [apply, updateMembership]
    split
    · exact h
    · split_ifs
      · exact h
      · exact allConsistent_applyMembership h membership
  | .selectChannel selection => by
    simp only [apply, selectChannel]
    split_ifs
    · exact h.of_participants rfl
    · exact h
  | .applyDirectory directory => allConsistent_applyDirectory h directory
  | .applyPresence presence => allConsistent_applyPresence h presence
  | .applyVoiceRemoteEvent event => allConsistent_applyVoiceRemoteEvent h event
  | .transmissionStarted _ | .transmissionStopped | .recordError .. => h.of_participants rfl
  | .replaceSettings => h
  | .setParticipantVolume participantId volume => by
    simp only [apply, setParticipantVolume]
    split_ifs
    · exact allConsistent_modifyParticipant h participantId fun _ hrow => hrow
    · exact h
  | .setParticipantMuted participantId muted => by
    simp only [apply, setParticipantMuted]
    split_ifs
    · exact allConsistent_modifyParticipant h participantId fun _ hrow => hrow
    · exact h

theorem consistent_after (operations : List Operation) : (after operations).AllConsistent := by
  induction operations using List.reverseRecOn with
  | nil => exact allConsistent_of_empty rfl
  | append_singleton operations operation ih =>
    unfold after at ih ⊢
    rw [List.foldl_append, List.foldl_cons, List.foldl_nil]
    exact allConsistent_apply ih operation

end DesktopModel

end Presentation

end VoxTree

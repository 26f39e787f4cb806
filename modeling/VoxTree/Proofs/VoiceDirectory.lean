import VoxTree.Proofs.DesktopPhases
import VoxTree.Proofs.ParticipantRows

/-!
# Remote events and a new directory

A model that has taken over a new directory hears the same events as the model before: the counters
are the same and the rows agree, as far as the model before has a row for a listed participant or
may get one (`Alike`). So it does not matter for those whether the events or the directory come
first. A participant whom the directory before does not list loses what is heard of him.
-/

namespace VoxTree

namespace Presentation

open Client

namespace DesktopModel

variable {m m' : DesktopModel} {id : Bytes} {event : VoiceRemoteEvent}

/-! ## Two models that hear the same -/

/-- The audio is available if it is in some scope. -/
def Derived (participant : ParticipantState) : Prop :=
  participant.audioAvailable = scopes.any participant.audioAvailableScopes

/-- The model `m'` lists the participants `listed`. It has counted what `m` has, and its rows agree
with those that `m` has or may get. -/
structure Alike (listed : Bytes → Prop) (m m' : DesktopModel) : Prop where
  voiceGeneration : m'.voiceGeneration = m.voiceGeneration
  sequences : ∀ id, m'.sequencesOf id = m.sequencesOf id
  contains : ∀ id, listed id → m'.participants.contains id = true
  rows : ∀ id, listed id → m.Admits id → SameVoice (m.rowOf id) (m'.rowOf id)
  derived : ∀ id, listed id → Derived (m'.rowOf id)

variable {listed : Bytes → Prop}

theorem derived_rowOf_hear (h : Derived (m.rowOf id))
    (hcontains : m.participants.contains id = true) :
    Derived ((m.hear event).rowOf id) := by
  by_cases hid : event.participantId = id
  · subst hid
    by_cases hnew : ((m.sequencesOf event.participantId).advanced event).1 = {}
    · unfold rowOf
      rwa [participants_hear_of_old hnew]
    · rw [rowOf_eq (participants_hear_of_new hnew (.inl hcontains))]
      exact (rfl : Derived (refreshParticipantDerivedState _ _))
  · rwa [rowOf_hear_of_ne hid]

theorem Alike.enterGeneration (h : Alike listed m m') (generation : ℕ) :
    Alike listed (m.enterGeneration generation) (m'.enterGeneration generation) := by
  by_cases hnewer : m.voiceGeneration < generation
  · have hcleared : ∀ (m : DesktopModel) (id : Bytes), m.participants.contains id = true →
        Derived (m.clearRemoteTransportState.rowOf id) := fun m id hcontains => by
      obtain ⟨row, hrow⟩ := TreeMap.contains_iff.1 hcontains
      unfold rowOf clearRemoteTransportState
      rw [Std.ExtTreeMap.getElem?_map, hrow]
      exact (rfl : Derived (refreshParticipantDerivedState _ _))
    have heq : ∀ {m : DesktopModel}, m.voiceGeneration < generation →
        m.enterGeneration generation = { m.clearRemoteTransportState with
          voiceGeneration := generation
          participantVoiceSequences := ∅
          lastConnectionSequence := 0 } := fun hlt => if_pos hlt
    have hrows : ∀ id, SameVoice (m.clearRemoteTransportState.rowOf id)
        (m'.clearRemoteTransportState.rowOf id) := fun id =>
      (rowOf_clear m id).trans (rowOf_clear m' id).symm
    rw [heq hnewer, heq (h.voiceGeneration.symm ▸ hnewer)]
    exact {
      voiceGeneration := rfl
      sequences := fun _ => rfl
      contains := fun id hid => by
        simpa [clearRemoteTransportState] using h.contains id hid
      rows := fun id _ _ => hrows id
      derived := fun id hid => hcleared m' id (h.contains id hid) }
  · have heq : ∀ {m : DesktopModel}, ¬m.voiceGeneration < generation →
        m.enterGeneration generation = m := fun hnot => if_neg hnot
    rwa [heq hnewer, heq (h.voiceGeneration.symm ▸ hnewer)]

theorem Alike.hear (h : Alike listed m m') (event : VoiceRemoteEvent) :
    Alike listed (m.hear event) (m'.hear event) where
  voiceGeneration := by rw [voiceGeneration_hear, voiceGeneration_hear, h.voiceGeneration]
  sequences id := by rw [sequencesOf_hear, sequencesOf_hear, h.sequences]
  contains id hid := contains_hear (h.contains id hid)
  rows id hid hadmits := by
    have hbefore := h.rows id hid (admits_hear_iff.1 hadmits)
    by_cases hmine : event.participantId = id
    · subst hmine
      have hleft := rowOf_hear_self (admits_hear_iff.1 hadmits)
      have hright := rowOf_hear_self (m := m') (.inl (h.contains _ hid))
      rw [h.sequences] at hright
      exact hleft.trans ((hbefore.hear event _).trans hright.symm)
    · rwa [rowOf_hear_of_ne hmine, rowOf_hear_of_ne hmine]
  derived id hid := derived_rowOf_hear (h.derived id hid) (h.contains id hid)

theorem Alike.applyVoiceRemoteEvents : ∀ (events : List VoiceRemoteEvent) {m m' : DesktopModel},
    Alike listed m m' →
      Alike listed (m.applyVoiceRemoteEvents events) (m'.applyVoiceRemoteEvents events)
  | [], _, _, h => h
  | event :: events, m, m', h => by
    refine Alike.applyVoiceRemoteEvents events ?_
    unfold applyVoiceRemoteEvent
    rw [h.voiceGeneration]
    split_ifs
    · exact h
    · exact (h.enterGeneration event.generation).hear event

/-! ## The directory -/

/-- What a directory that is taken over leaves. -/
theorem applyDirectory_ok {directory : DirectoryView}
    (hok : (m.applyDirectory directory).1.ok = true) :
    (m.applyDirectory directory).2 = { m with
      participants := refreshParticipants ∅ (m.rowsFor directory.participants)
      directory := some directory
      presenceVersion := none
      presenceObservedAt := none
      serverPresence := ∅ } := by
  unfold applyDirectory at hok ⊢
  split at hok
  · cases hok
  · split_ifs at hok ⊢
    · cases hok
    · cases hok
    · rfl

theorem sameVoice_refresh (serverPresence : ServerPresence) (participant : ParticipantState) :
    SameVoice (refreshParticipantDerivedState serverPresence participant) participant :=
  ⟨rfl, rfl, rfl, rfl⟩

/-- A participant that is listed has a row. -/
theorem exists_row_applyDirectory {directory : DirectoryView}
    (hok : (m.applyDirectory directory).1.ok = true) {source : DirectoryParticipantView}
    (hsource : source ∈ directory.participants) :
    ∃ row, (m.applyDirectory directory).2.participants[source.playerId]? = some row
      ∧ SameVoice row (m.rowOf source.playerId) ∧ Derived row := by
  rw [applyDirectory_ok hok]
  unfold refreshParticipants
  rw [Std.ExtTreeMap.getElem?_map, getElem?_rowsFor]
  generalize hfind : List.find? _ directory.participants = found
  rcases found with _ | first
  · have hnone := List.find?_eq_none.1 hfind source hsource
    simp at hnone
  · have hid : first.playerId = source.playerId := by simpa using List.find?_some hfind
    exact ⟨_, rfl, (sameVoice_refresh ∅ (m.rowFor first)).trans (rowFor_sameVoice hid), rfl⟩

theorem alike_applyDirectory {directory : DirectoryView}
    (hok : (m.applyDirectory directory).1.ok = true) :
    Alike (fun id => ∃ source ∈ directory.participants, source.playerId = id) m
      (m.applyDirectory directory).2 where
  voiceGeneration := by rw [applyDirectory_ok hok]
  sequences id := by
    rw [applyDirectory_ok hok]
    rfl
  contains := by
    rintro id ⟨source, hsource, rfl⟩
    obtain ⟨row, hrow, -⟩ := exists_row_applyDirectory hok hsource
    exact TreeMap.contains_iff.2 ⟨row, hrow⟩
  rows := by
    rintro id ⟨source, hsource, rfl⟩ -
    obtain ⟨row, hrow, hvoice, -⟩ := exists_row_applyDirectory hok hsource
    rw [rowOf_eq hrow]
    exact hvoice.symm
  derived := by
    rintro id ⟨source, hsource, rfl⟩
    obtain ⟨row, hrow, -, hderived⟩ := exists_row_applyDirectory hok hsource
    rwa [rowOf_eq hrow]

theorem applyVoiceRemoteEvent_session (m : DesktopModel) (event : VoiceRemoteEvent) :
    (m.applyVoiceRemoteEvent event).membership = m.membership
      ∧ (m.applyVoiceRemoteEvent event).directory = m.directory
      ∧ ∀ id, (m.applyVoiceRemoteEvent event).Admits id ↔ m.Admits id := by
  have henter : (m.enterGeneration event.generation).membership = m.membership
      ∧ (m.enterGeneration event.generation).directory = m.directory := by
    unfold enterGeneration
    split_ifs <;> exact ⟨rfl, rfl⟩
  unfold applyVoiceRemoteEvent
  split_ifs
  · exact ⟨rfl, rfl, fun _ => Iff.rfl⟩
  · refine ⟨?_, ?_, fun id => admits_hear_iff.trans admits_enterGeneration⟩
    · rw [hear_eq]
      exact henter.1
    · rw [hear_eq]
      exact henter.2

theorem applyVoiceRemoteEvents_session : ∀ (events : List VoiceRemoteEvent) (m : DesktopModel),
    (m.applyVoiceRemoteEvents events).membership = m.membership
      ∧ (m.applyVoiceRemoteEvents events).directory = m.directory
      ∧ ∀ id, (m.applyVoiceRemoteEvents events).Admits id ↔ m.Admits id
  | [], _ => ⟨rfl, rfl, fun _ => Iff.rfl⟩
  | event :: events, m => by
    obtain ⟨hmembership, hdirectory, hadmits⟩ := applyVoiceRemoteEvent_session m event
    obtain ⟨hmembership', hdirectory', hadmits'⟩ :=
      applyVoiceRemoteEvents_session events (m.applyVoiceRemoteEvent event)
    exact ⟨hmembership'.trans hmembership, hdirectory'.trans hdirectory,
      fun id => (hadmits' id).trans (hadmits id)⟩

theorem applyDirectory_fst_congr {directory : DirectoryView}
    (hmembership : m'.membership = m.membership) (hdirectory : m'.directory = m.directory) :
    (m'.applyDirectory directory).1 = (m.applyDirectory directory).1 := by
  unfold applyDirectory
  rw [hmembership, hdirectory]
  split
  · rfl
  · split_ifs <;> rfl

/-! ## Both orders -/

/-- The models show the participant with the same connected, audio and speaking state. -/
def ShowAlike (m m' : DesktopModel) (id : Bytes) : Prop :=
  ∃ a b, m.participants[id]? = some a ∧ m'.participants[id]? = some b ∧ SameVoice a b
    ∧ a.audioAvailable = b.audioAvailable

/-- The model shows the participant, but nothing that has been heard of him. -/
def ShowsUnheard (m : DesktopModel) (id : Bytes) : Prop :=
  ∃ row, m.participants[id]? = some row ∧ SameVoice row {} ∧ row.audioAvailable = false

/-- Remote events and a directory that is accepted may come in either order for a participant who
has a row or may get one; any other one has lost the events that came before the directory. -/
theorem events_directory_commute {directory : DirectoryView} {events : List VoiceRemoteEvent}
    (hok : (m.applyDirectory directory).1.ok = true) :
    ((m.applyVoiceRemoteEvents events).applyDirectory directory).1.ok = true
      ∧ ∀ source ∈ directory.participants,
        (m.Admits source.playerId →
          ShowAlike ((m.applyVoiceRemoteEvents events).applyDirectory directory).2
            ((m.applyDirectory directory).2.applyVoiceRemoteEvents events) source.playerId)
        ∧ (¬m.Admits source.playerId →
          ShowsUnheard ((m.applyVoiceRemoteEvents events).applyDirectory directory).2
            source.playerId) := by
  obtain ⟨hmembership, hdirectory, hadmits⟩ := applyVoiceRemoteEvents_session events m
  have hok' : ((m.applyVoiceRemoteEvents events).applyDirectory directory).1.ok = true := by
    rwa [applyDirectory_fst_congr hmembership hdirectory]
  refine ⟨hok', fun source hsource => ?_⟩
  obtain ⟨a, ha, hvoice, hderived⟩ := exists_row_applyDirectory hok' hsource
  constructor
  · intro hadmitted
    have halike := Alike.applyVoiceRemoteEvents events (alike_applyDirectory hok)
    have hlisted : ∃ s ∈ directory.participants, s.playerId = source.playerId :=
      ⟨source, hsource, rfl⟩
    obtain ⟨b, hb⟩ := TreeMap.contains_iff.1 (halike.contains _ hlisted)
    have hrows := hvoice.trans (halike.rows _ hlisted ((hadmits _).2 hadmitted))
    have hderived' := halike.derived _ hlisted
    rw [rowOf_eq hb] at hrows hderived'
    refine ⟨a, b, ha, hb, hrows, ?_⟩
    rw [show a.audioAvailable = _ from hderived, hrows.audioAvailableScopes]
    exact hderived'.symm
  · intro hnot
    have hnone : (m.applyVoiceRemoteEvents events).participants[source.playerId]? = none :=
      TreeMap.getElem?_eq_none_iff.2 fun hcontains => hnot ((hadmits _).1 (.inl hcontains))
    unfold rowOf at hvoice
    rw [hnone] at hvoice
    have hblank : SameVoice a {} := hvoice.trans ⟨rfl, rfl, rfl, rfl⟩
    refine ⟨a, ha, hblank, ?_⟩
    rw [show a.audioAvailable = _ from hderived, hblank.audioAvailableScopes]
    rfl

/-! ## A participant whom the first directory does not list -/

section Samples

def bobView : DirectoryParticipantView := ⟨bytes "bob", bytes "Bob", bytes "team", []⟩

def groupDirectory (version : ℕ) (participants : List DirectoryParticipantView) : DirectoryView :=
  ⟨version, bytes "group", [], [], participants⟩

def signedIn : List Operation := [.beginConnect, .connectionSucceeded signedInMembership]

def bobConnects : List VoiceRemoteEvent := [⟨.participantConnected, .team, bytes "bob", 1, 1⟩]

end Samples

/-- Before any directory the order does not matter. -/
theorem bobConnects_commutes :
    ShowAlike (((after signedIn).applyVoiceRemoteEvents bobConnects).applyDirectory
        (groupDirectory 1 [bobView])).2
      (((after signedIn).applyDirectory (groupDirectory 1 [bobView])).2.applyVoiceRemoteEvents
        bobConnects) (bytes "bob") :=
  ((events_directory_commute (by decide +kernel)).2 bobView (by simp [groupDirectory])).1 (.inr rfl)

/-- Under a directory that does not list him, he comes into the next one as if he had not
connected. -/
theorem bobConnects_lost :
    let m := after (signedIn ++ [.applyDirectory (groupDirectory 1 [])])
    (m.applyDirectory (groupDirectory 2 [bobView])).1.ok = true
      ∧ ¬ShowAlike ((m.applyVoiceRemoteEvents bobConnects).applyDirectory
          (groupDirectory 2 [bobView])).2
        ((m.applyDirectory (groupDirectory 2 [bobView])).2.applyVoiceRemoteEvents bobConnects)
        (bytes "bob") := by
  intro m
  refine ⟨by decide +kernel, ?_⟩
  rintro ⟨a, b, ha, hb, hvoice, -⟩
  have hleft : (((m.applyVoiceRemoteEvents bobConnects).applyDirectory
      (groupDirectory 2 [bobView])).2.rowOf (bytes "bob")).connectedScopes .team = false := by
    decide +kernel
  have hright : (((m.applyDirectory (groupDirectory 2 [bobView])).2.applyVoiceRemoteEvents
      bobConnects).rowOf (bytes "bob")).connectedScopes .team = true := by
    decide +kernel
  rw [rowOf_eq ha] at hleft
  rw [rowOf_eq hb, ← hvoice.connectedScopes, hleft] at hright
  cases hright

end DesktopModel

end Presentation

end VoxTree

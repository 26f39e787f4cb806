import VoxTree.DesktopModel

/-!
# What the desktop model takes over

A directory is taken over whole or not at all, presence is recorded for the participants of the
directory, and a membership of another group empties the model.
-/

namespace VoxTree

namespace Presentation

open Client

namespace DesktopModel

variable {m : DesktopModel}

/-! ## Reports -/

section Noted

variable (u : ValidationResult × DesktopModel)

@[simp] theorem noted_membership : (noted u).membership = u.2.membership := by
  unfold noted
  split <;> rfl

@[simp] theorem noted_directory : (noted u).directory = u.2.directory := by
  unfold noted
  split <;> rfl

@[simp] theorem noted_presenceVersion : (noted u).presenceVersion = u.2.presenceVersion := by
  unfold noted
  split <;> rfl

@[simp] theorem noted_serverPresence : (noted u).serverPresence = u.2.serverPresence := by
  unfold noted
  split <;> rfl

@[simp] theorem noted_participants : (noted u).participants = u.2.participants := by
  unfold noted
  split <;> rfl

end Noted

/-! ## Participants -/

/-- All listed participants have a row. -/
def Lists (m : DesktopModel) (directory : DirectoryView) : Prop :=
  ∀ participant ∈ directory.participants, m.participants.contains participant.playerId = true

@[simp] theorem contains_refreshParticipants {serverPresence : ServerPresence}
    {participants : Participants} {id : Bytes} :
    (refreshParticipants serverPresence participants).contains id = participants.contains id := by
  unfold refreshParticipants
  rw [Std.ExtTreeMap.contains_map]

theorem contains_foldl_insertIfNew (row : DirectoryParticipantView → ParticipantState)
    (listed : List DirectoryParticipantView) : ∀ (rows : Participants) (id : Bytes),
    rows.contains id = true ∨ (∃ source ∈ listed, source.playerId = id) →
      (listed.foldl (fun rows source => rows.insertIfNew source.playerId (row source))
        rows).contains id = true := by
  induction listed with
  | nil =>
    rintro rows id (h | ⟨source, hsource, -⟩)
    · exact h
    · cases hsource
  | cons source rest ih =>
    intro rows id h
    refine ih _ id ?_
    rw [Std.ExtTreeMap.contains_insertIfNew, Bool.or_eq_true, beq_iff_eq]
    rcases h with h | ⟨other, hother, rfl⟩
    · exact .inl (.inr h)
    · rcases List.mem_cons.1 hother with rfl | hrest
      · exact .inl (.inl Std.ReflCmp.compare_self)
      · exact .inr ⟨other, hrest, rfl⟩

/-! ## Directory -/

/-- The model is for the directory's group and has no directory of its version or a later one. -/
structure Accepts (m : DesktopModel) (directory : DirectoryView) : Prop where
  group : ∃ membership, m.membership = some membership
    ∧ directory.groupId = membership.groupId.value
  positive : directory.version ≠ 0
  newer : ∀ current, m.directory = some current → current.version < directory.version

/-- The model `m'` is `m` with a directory that it has taken over. -/
structure Shows (m m' : DesktopModel) (shown : DirectoryView) : Prop where
  membership : m'.membership = m.membership
  directory : m'.directory = some shown
  presenceVersion : m'.presenceVersion = none
  lists : m'.Lists shown

theorem applyDirectory_cases (m : DesktopModel) (directory : DirectoryView) :
    m.Accepts directory ∧ (m.applyDirectory directory).1.ok = true
        ∧ m.Shows (m.applyDirectory directory).2 directory
      ∨ ¬m.Accepts directory ∧ (m.applyDirectory directory).1.ok = false
        ∧ (m.applyDirectory directory).2 = m := by
  unfold applyDirectory
  rcases hmembership : m.membership with _ | membership
  · refine .inr ⟨fun h => ?_, rfl, rfl⟩
    obtain ⟨membership, hsome, -⟩ := h.group
    simp [hmembership] at hsome
  dsimp only
  split_ifs with hgroup hstale
  · refine .inr ⟨fun h => ?_, rfl, rfl⟩
    obtain ⟨membership', hsome, heq⟩ := h.group
    rw [hmembership, Option.some.injEq] at hsome
    exact hgroup (hsome ▸ heq)
  · refine .inr ⟨fun h => ?_, rfl, rfl⟩
    rcases hstale with hzero | hold
    · exact h.positive hzero
    · rcases hcurrent : m.directory with _ | current
      · simp [hcurrent] at hold
      · have hnewer := h.newer current hcurrent
        rw [hcurrent, Option.any_some, decide_eq_true_eq] at hold
        omega
  · rw [not_or, Bool.not_eq_true] at hstale
    have haccepts : m.Accepts directory := by
      refine ⟨⟨membership, hmembership, not_not.1 hgroup⟩, hstale.1, fun current hcurrent => ?_⟩
      have hnewer := hstale.2
      rw [hcurrent, Option.any_some, decide_eq_false_iff_not] at hnewer
      omega
    refine .inl ⟨haccepts, rfl, hmembership.symm, rfl, rfl, fun participant hparticipant => ?_⟩
    rw [contains_refreshParticipants, rowsFor]
    exact contains_foldl_insertIfNew _ _ _ _ (.inr ⟨participant, hparticipant, rfl⟩)

/-! ## Presence -/

/-- The model has a directory and no presence of this version or a later one, and a delta has a
base. -/
structure Takes (m : DesktopModel) (presence : DirectoryPresenceView) : Prop where
  directory : m.directory ≠ none
  positive : presence.version ≠ 0
  newer : ∀ current, m.presenceVersion = some current → current < presence.version
  base : presence.mode = .delta → m.presenceVersion ≠ none

/-- The model `m'` is `m` with a presence that it has recorded. -/
structure Records (m m' : DesktopModel) (presence : DirectoryPresenceView) : Prop where
  membership : m'.membership = m.membership
  directory : m'.directory = m.directory
  presenceVersion : m'.presenceVersion = some presence.version
  serverPresence : m'.serverPresence
    = m.recordPresence (if presence.mode = .snapshot then ∅ else m.serverPresence) presence.entries
  participants : ∀ id, m'.participants.contains id = m.participants.contains id

theorem applyPresence_cases (m : DesktopModel) (presence : DirectoryPresenceView) :
    m.Takes presence ∧ (m.applyPresence presence).1.ok = true
        ∧ m.Records (m.applyPresence presence).2 presence
      ∨ ¬m.Takes presence ∧ (m.applyPresence presence).1.ok = false
        ∧ (m.applyPresence presence).2 = m := by
  unfold applyPresence
  by_cases hdirectory : m.directory.isNone = true
  · rw [if_pos hdirectory]
    exact .inr ⟨fun h => h.directory (by simpa using hdirectory), rfl, rfl⟩
  rw [if_neg hdirectory]
  by_cases hstale : presence.version = 0
      ∨ (m.presenceVersion.any fun current => presence.version ≤ current) = true
  · rw [if_pos hstale]
    refine .inr ⟨fun h => ?_, rfl, rfl⟩
    rcases hstale with hzero | hold
    · exact h.positive hzero
    · rcases hcurrent : m.presenceVersion with _ | current
      · simp [hcurrent] at hold
      · have hnewer := h.newer current hcurrent
        rw [hcurrent, Option.any_some, decide_eq_true_eq] at hold
        omega
  rw [if_neg hstale]
  by_cases hmode : presence.mode = .delta ∧ m.presenceVersion.isNone = true
  · rw [if_pos hmode]
    exact .inr ⟨fun h => h.base hmode.1 (by simpa using hmode.2), rfl, rfl⟩
  rw [if_neg hmode]
  rw [not_or, Bool.not_eq_true] at hstale
  refine .inl ⟨⟨by simpa using hdirectory, hstale.1, fun current hcurrent => ?_, fun hdelta => ?_⟩,
    rfl, rfl, rfl, rfl, rfl, fun id => contains_refreshParticipants⟩
  · have hnewer := hstale.2
    rw [hcurrent, Option.any_some, decide_eq_false_iff_not] at hnewer
    omega
  · exact fun hnone => hmode ⟨hdelta, by simp [hnone]⟩

/-- Presence leaves the membership, the directory and the listed participants as they are. -/
theorem applyPresence_rest (m : DesktopModel) (presence : DirectoryPresenceView) :
    (m.applyPresence presence).2.membership = m.membership
      ∧ (m.applyPresence presence).2.directory = m.directory
      ∧ ∀ id,
        (m.applyPresence presence).2.participants.contains id = m.participants.contains id := by
  rcases applyPresence_cases m presence with ⟨-, -, hrecords⟩ | ⟨-, -, hsame⟩
  · exact ⟨hrecords.membership, hrecords.directory, hrecords.participants⟩
  · rw [hsame]
    exact ⟨rfl, rfl, fun _ => rfl⟩

theorem applyPresence_unread {presence : DirectoryPresenceView} (h : m.directory = none) :
    (m.applyPresence presence).2 = m := by
  rcases applyPresence_cases m presence with ⟨htakes, -⟩ | ⟨-, -, hsame⟩
  · exact absurd h htakes.directory
  · exact hsame

/-! ## Membership -/

theorem updateMembership_newer {current membership : MembershipView}
    (hcurrent : m.membership = some current) (hversion : current.version < membership.version) :
    (m.updateMembership membership).2 = m.applyMembership membership := by
  unfold updateMembership
  rw [hcurrent]
  dsimp only
  rw [if_neg (by omega)]

theorem applyMembership_membership (membership : MembershipView) :
    (m.applyMembership membership).membership = some membership := rfl

theorem applyMembership_same (m : DesktopModel) (membership : MembershipView)
    (h : ∀ current, m.membership = some current →
      current.groupId.value = membership.groupId.value) :
    (m.applyMembership membership).directory = m.directory
      ∧ (m.applyMembership membership).presenceVersion = m.presenceVersion
      ∧ (m.applyMembership membership).serverPresence = m.serverPresence
      ∧ (m.applyMembership membership).participants = m.participants := by
  have hsame : (m.membership.any fun current =>
      decide (current.groupId.value ≠ membership.groupId.value)) = false := by
    rcases hm : m.membership with _ | current
    · rfl
    · simp [h current hm]
  unfold applyMembership
  dsimp only
  rw [hsame]
  exact ⟨rfl, rfl, rfl, rfl⟩

theorem applyMembership_other {current membership : MembershipView}
    (hcurrent : m.membership = some current)
    (hgroup : current.groupId.value ≠ membership.groupId.value) :
    (m.applyMembership membership).directory = none
      ∧ (m.applyMembership membership).presenceVersion = none := by
  unfold applyMembership
  simp [hcurrent, hgroup, clearGroup, clearRemoteTransportState]

/-- A model without a membership takes one over when it connects. -/
theorem connectionSucceeded_ok {membership : MembershipView} (hnone : m.membership = none)
    (hok : (m.connectionSucceeded membership).1.ok = true) :
    (m.connectionSucceeded membership).2.membership = some membership
      ∧ (m.connectionSucceeded membership).2.directory = m.directory
      ∧ (m.connectionSucceeded membership).2.presenceVersion = m.presenceVersion := by
  have hsame := applyMembership_same m membership fun current hcurrent => by
    cases hnone.symm.trans hcurrent
  unfold connectionSucceeded at hok ⊢
  split_ifs at hok ⊢
  · cases hok
  · cases hok
  · exact ⟨rfl, hsame.1, hsame.2.1⟩

end DesktopModel

end Presentation

end VoxTree

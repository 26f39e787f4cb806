import Mathlib.Data.List.Induction
import VoxTree.Publication
import VoxTree.Proofs.Store

/-!
# When publishing rights fail closed

A withdrawn right is always withdrawn, so a right outlives its transmission in one way only: a
start whose grant took effect but was not answered with success is rolled back in the store and
nowhere else. The rights of a run fail closed after every operation exactly when no activation is
answered so (`rights_fail_closed_iff`).
-/

namespace VoxTree

open Store LiveKitPublicationController

/-! ## The controller -/

@[simp] theorem countFailure_permission (s : RoomService) :
    (countFailure s).permission = s.permission := rfl

theorem update_permission (t : ActiveTransmission) (canPublish : Bool) (s : RoomService)
    (room identity : Bytes) :
    ((update t canPublish s).2.permission room identity)
      = if (s.next.applied || !canPublish) = true ∧ room = publicationRoom t
          ∧ identity = t.authorization.senderPlayerId.value then ⟨canPublish, t.scopeCanSubscribe⟩
        else s.permission room identity := by
  have h : (update t canPublish s).2.permission
      = (if s.next.applied || !canPublish then s.apply
          ⟨publicationRoom t, t.authorization.senderPlayerId.value,
            ⟨canPublish, t.scopeCanSubscribe⟩⟩ else s).permission := by
    simp only [update, updateParticipant]
    split <;> rfl
  rw [h]
  by_cases ha : (s.next.applied || !canPublish) = true
  · simp only [ha, if_true, RoomService.apply, true_and]
  · simp only [ha, if_false, false_and, Bool.false_eq_true]

theorem onStarted_permission (t : ActiveTransmission) (s : RoomService) :
    (onStarted t s).2.permission = (update t true s).2.permission := by
  unfold onStarted
  split <;> rename_i h <;> simp [h]

theorem onEnded_permission (e : EndedTransmission) (s : RoomService) :
    (onEnded e s).permission = (update e.transmission false s).2.permission := by
  unfold onEnded
  split <;> rename_i h <;> simp [h]

/-- The controller reports a start exactly when the answer confirms it. -/
theorem onStarted_iff (t : ActiveTransmission) (s : RoomService) :
    (onStarted t s).1 = true ↔ ∃ chunk, s.next.reply = .received chunk ∧ confirms chunk = true := by
  unfold onStarted update updateParticipant
  rcases hr : s.next.reply with _ | chunk
  · simp
  · rcases hc : confirms chunk <;> simp [hc]

/-- The end of a transmission withdraws the right of its sender in its room and no other. -/
theorem onEnded_canPublish (e : EndedTransmission) (s : RoomService) (room identity : Bytes) :
    ((onEnded e s).permission room identity).canPublish = true
      ↔ (s.permission room identity).canPublish = true
        ∧ ¬ (room = publicationRoom e.transmission
          ∧ identity = e.transmission.authorization.senderPlayerId.value) := by
  rw [onEnded_permission, update_permission]
  simp only [Bool.not_false, Bool.or_true, true_and]
  split <;> simp_all

theorem notifyEnded_canPublish (room identity : Bytes) :
    ∀ (ended : List EndedTransmission) (s : RoomService),
      ((notifyEnded publicationController ended s).permission room identity).canPublish = true
        ↔ (s.permission room identity).canPublish = true
          ∧ ∀ e ∈ ended, ¬ (room = publicationRoom e.transmission
            ∧ identity = e.transmission.authorization.senderPlayerId.value)
  | [], s => by simp [notifyEnded]
  | e :: ended, s => by
    have ih := notifyEnded_canPublish room identity ended (onEnded e s)
    simp only [notifyEnded, List.foldl_cons, publicationController] at ih ⊢
    rw [ih, onEnded_canPublish, List.forall_mem_cons, and_assoc]

/-! ## One operation -/

variable {c : Store × RoomService} {op : StoreOp}

theorem grantConfirmed_iff : GrantConfirmed c op ↔ ∀ entry, op.activation c.1 = some entry →
    c.2.next.applied = true → (onStarted entry c.2).1 = true := by
  simp only [GrantConfirmed, onStarted_iff]

/-- A refused start whose grant was not lost leaves every right as it was. -/
theorem onStarted_refused {entry : ActiveTransmission} {s : RoomService}
    (hrefused : (onStarted entry s).1 = false)
    (hconf : s.next.applied = true → (onStarted entry s).1 = true) :
    (onStarted entry s).2.permission = s.permission := by
  have happlied : s.next.applied = false := by
    rcases ha : s.next.applied
    · rfl
    · simp [hconf ha] at hrefused
  funext room identity
  rw [onStarted_permission, update_permission]
  simp [happlied]

theorem call_failsClosed (hc : FailsClosed c)
    (hG : GrantConfirmed c op) : FailsClosed (op.call publicationController c) := by
  have heff := locked_effect publicationController op c.1 c.2
  simp only [StoreOp.call]
  generalize op.locked publicationController c.1 c.2 = r at heff ⊢
  obtain ⟨ended, s', w'⟩ := r
  simp only at heff ⊢
  intro room identity hright
  rw [notifyEnded_canPublish] at hright
  obtain ⟨hright, hended⟩ := hright
  cases heff with
  | quiet _ ha =>
    obtain ⟨id, t, ht, hroom, hsender⟩ := hc room identity hright
    exact ⟨id, t, ha ▸ ht, hroom, hsender⟩
  | interrupted s₀ stops reason endedAt correlationId ha _ =>
    obtain ⟨id, t, ht, hroom, hsender⟩ := hc room identity hright
    refine ⟨id, t, ?_, hroom, hsender⟩
    rw [getElem?_interruptWhere_eq_some]
    -- Had it been stopped, its end would have withdrawn the right.
    rcases hstop : stops t
    · exact ⟨ha ▸ ht, rfl⟩
    · have hmem : (⟨t, reason, endedAt, correlationId⟩ : EndedTransmission)
          ∈ (s₀.interruptWhere stops reason endedAt correlationId).1 :=
        mem_interruptWhere.2 ⟨id, ha ▸ ht, hstop, rfl⟩
      exact absurd ⟨hroom.symm, hsender.symm⟩ (hended _ hmem)
  | ended id entry stopReason endedAt correlationId hentry =>
    simp only [publicationController] at hright
    rw [onEnded_canPublish] at hright
    obtain ⟨id', t, ht, hroom, hsender⟩ := hc room identity hright.1
    refine ⟨id', t, ?_, hroom, hsender⟩
    rw [getElem?_eraseTransmission, if_neg, ht]
    rintro rfl
    rw [hentry] at ht
    obtain rfl := Option.some.inj ht
    exact hright.2 ⟨hroom.symm, hsender.symm⟩
  | accepted entry hact hstarted =>
    have hfresh := (activated_of_activation hact).fresh
    simp only [publicationController, onStarted_permission, update_permission] at hright
    split_ifs at hright with hown
    · exact ⟨_, entry, by rw [getElem?_emplace, if_pos rfl], hown.2.1.symm, hown.2.2.symm⟩
    · obtain ⟨id, t, ht, hroom, hsender⟩ := hc room identity hright
      refine ⟨id, t, ?_, hroom, hsender⟩
      rw [getElem?_emplace, if_neg, ht]
      rintro rfl
      rw [hfresh] at ht
      cases ht
  | refused entry hact hrefused =>
    have hfresh := (activated_of_activation hact).fresh
    rw [show (publicationController.onStarted entry c.2).2.permission = c.2.permission from
      onStarted_refused hrefused (grantConfirmed_iff.1 hG entry hact)] at hright
    obtain ⟨id, t, ht, hroom, hsender⟩ := hc room identity hright
    refine ⟨id, t, ?_, hroom, hsender⟩
    rw [getElem?_eraseTransmission, getElem?_emplace, if_neg, if_neg, ht] <;>
    · rintro rfl
      rw [hfresh] at ht
      cases ht

/-- A granted right whose confirmation was lost stays behind without a transmission. -/
theorem grantConfirmed_of_call (h : FailsClosed (op.call publicationController c)) :
    GrantConfirmed c op := by
  rw [grantConfirmed_iff]
  intro entry hact happlied
  by_contra hlost
  rw [Bool.not_eq_true] at hlost
  have hcall : op.call publicationController c
      = ((c.1.emplace entry).eraseTransmission entry.authorization.transmissionId,
        (onStarted entry c.2).2) := call_of_refused hact hlost
  obtain ⟨id, t, ht, -, hsender⟩ := h (publicationRoom entry)
    entry.authorization.senderPlayerId.value (by
      rw [hcall]
      simp [onStarted_permission, update_permission, happlied])
  rw [hcall, getElem?_eraseTransmission, getElem?_emplace] at ht
  split_ifs at ht
  exact (activated_of_activation hact).sender_idle id t ht (StrongId.ext hsender)

/-! ## Whole runs -/

theorem publicationRun_concat (answers : ℕ → Outcome) (ops : List StoreOp) (op : StoreOp) :
    publicationRun answers (ops ++ [op])
      = op.call publicationController (publicationRun answers ops) := by
  simp only [publicationRun, StoreOp.calls, List.foldl_append, List.foldl_cons, List.foldl_nil]

/-- After each operation of a run only senders with an active transmission may publish in its room,
if and only if every grant that took effect during the run was answered with success. -/
theorem rights_fail_closed_iff (answers : ℕ → Outcome) (ops : List StoreOp) :
    (∀ before, before <+: ops → FailsClosed (publicationRun answers before))
      ↔ ∀ before op, before ++ [op] <+: ops →
        GrantConfirmed (publicationRun answers before) op := by
  constructor
  · intro h before op hbefore
    have := h (before ++ [op]) hbefore
    rw [publicationRun_concat] at this
    exact grantConfirmed_of_call this
  · intro h before
    induction before using List.reverseRecOn with
    | nil =>
      intro _ room identity hright
      simp [publicationRun, StoreOp.calls] at hright
    | append_singleton before op ih =>
      intro hbefore
      rw [publicationRun_concat]
      exact call_failsClosed
        (ih ((List.prefix_append before [op]).trans hbefore)) (h before op hbefore)

section Runs

open Sample

/-- Every request takes effect, and no answer to it arrives. -/
def silent : ℕ → Outcome := fun _ => ⟨true, .received []⟩

def joined : List StoreOp := [.upsertSession authenticated, join]

/-- A start rejected with `voice_control_failed` leaves the right to publish behind. -/
theorem refused_start_keeps_right :
    let before := publicationRun silent joined
    let after := publicationRun silent (joined ++ [startOf first])
    (before.1.activate publicationController (transmission first) session device 0 before.2).1
        = .error .voiceControlFailed
      ∧ (after.2.permission (publicationRoom (entryOf first)) alice.value).canPublish = true
      ∧ ¬ FailsClosed after := by
  intro before after
  refine ⟨by decide +kernel, by decide +kernel, fun h => ?_⟩
  have hact : (startOf first).activation before.1 = some (entryOf first) := by decide +kernel
  have hnext : before.2.next = ⟨true, .received []⟩ := by decide +kernel
  simp only [after, publicationRun_concat] at h
  obtain ⟨chunk, hreply, hconfirms⟩ := grantConfirmed_of_call h _ hact (by rw [hnext])
  rw [hnext, Reply.received.injEq] at hreply
  simp [← hreply, confirms] at hconfirms

end Runs

end VoxTree

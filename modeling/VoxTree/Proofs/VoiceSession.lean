import Mathlib.Data.List.Perm.Basic
import VoxTree.Proofs.Store
import VoxTree.VoiceSession

/-!
# One publication, one owner

Between the start of a publication and its end one thread owns it: the press, until the microphone
is on, and later the release that took the held transmission. Every step of a thread is one of
eight moves (`resume_move`), of which only three concern an owner. The owner is unique, of the
current generation, and its own steps run out at the idle state (`OwnerInv`); what the client
still owes the server is accounted for as long as `endInterruptedTransmission` ends nothing under
an owner or an active publication (`Accounted`).
-/

namespace VoxTree.VoiceSession

open Machine

/-! ## Ownership -/

/-- What a thread that owns the publication has to do: `owed` is the transmission it has still to
end, `held` what it left in the client, `remaining` bounds the steps it has still to take. -/
structure Ownership where
  generation : UInt64
  held : Option StartedTransmission
  owed : List TransmissionId
  remaining : ℕ

def owedAfter (started : StartedTransmission) (ended : ControlPlaneResult EndedTransmissionView) :
    List TransmissionId :=
  if ended.isOk then [] else [started.transmissionId]

def Pc.owner : Pc → Option Ownership
  | .pressStart _ generation _ => some ⟨generation, none, [], 8⟩
  | .pressStartFailed generation _ => some ⟨generation, none, [], 1⟩
  | .pressStarted _ generation started => some ⟨generation, none, [started.transmissionId], 7⟩
  | .pressMicrophone _ generation started =>
    some ⟨generation, some started, [started.transmissionId], 6⟩
  | .pressMicrophoneDone _ generation started _ =>
    some ⟨generation, some started, [started.transmissionId], 5⟩
  | .pressActivate _ generation started =>
    some ⟨generation, some started, [started.transmissionId], 4⟩
  | .pressStopVoice _ generation started =>
    some ⟨generation, some started, [started.transmissionId], 3⟩
  | .pressEnd _ generation started _ =>
    some ⟨generation, some started, [started.transmissionId], 2⟩
  | .pressFinish _ generation started _ ended =>
    some ⟨generation, some started, owedAfter started ended, 1⟩
  | .releaseStopVoice _ generation transmission =>
    some ⟨generation, some transmission, [transmission.transmissionId], 3⟩
  | .releaseEnd _ generation transmission _ =>
    some ⟨generation, some transmission, [transmission.transmissionId], 2⟩
  | .releaseFinish _ generation transmission _ ended =>
    some ⟨generation, some transmission, owedAfter transmission ended, 1⟩
  | _ => none

@[simp] theorem owner_finished (result : VoiceSessionResult) : (finished result).owner = none := rfl

@[simp] theorem owner_entry (op : Op) : op.entry.owner = none := by cases op <;> rfl

@[simp] theorem owner_afterRelease (caller : Caller) (result : VoiceSessionResult) :
    (caller.afterRelease result).owner = none := by
  cases caller <;> simp only [Caller.afterRelease] <;> try split
  all_goals rfl

@[simp] theorem owner_afterEndInterrupted (caller : Caller) (result : VoiceSessionResult) :
    (caller.afterEndInterrupted result).owner = none := by
  cases caller <;> simp only [Caller.afterEndInterrupted] <;> try split
  all_goals rfl

/-- The identifiers of what the client holds. -/
def Client.heldIds (c : Client) : List TransmissionId :=
  c.activeTransmission.toList.map StartedTransmission.transmissionId

def Event.startedIds : Event → List TransmissionId
  | .started id => [id]
  | _ => []

def Event.endedIds : Event → List TransmissionId
  | .ended id => [id]
  | _ => []

/-! ## Moves -/

/-- The publication is as it was. -/
structure SamePublication (c c' : Client) : Prop where
  state : c'.publicationState = c.publicationState
  generation : c'.publicationGeneration = c.publicationGeneration
  held : c'.activeTransmission = c.activeTransmission

/-- What one step of a thread can do to the publication and its ownership. -/
inductive Move (c : Client) (pc : Pc) (answer : Answer) (c' : Client) (pc' : Pc) : Event → Prop
  | quiet : pc.owner = none → pc'.owner = none → SamePublication c c' →
      Move c pc answer c' pc' .none
  | begins (remaining : ℕ) : pc.owner = none → c.publicationState = .idle →
      c.activeTransmission = none → c'.publicationState = .starting →
      c'.activeTransmission = none →
      pc'.owner = some ⟨c'.publicationGeneration, none, [], remaining⟩ →
      Move c pc answer c' pc' .none
  | works {e : Event} (o o' : Ownership) : pc.owner = some o → pc'.owner = some o' →
      o'.generation = o.generation → o'.remaining < o.remaining →
      c'.publicationState = c.publicationState →
      c'.publicationGeneration = c.publicationGeneration →
      (c'.activeTransmission = c.activeTransmission ∧ o'.held = o.held
        ∨ c'.activeTransmission = o'.held ∧ o.held = none
        ∨ c'.activeTransmission = c.activeTransmission ∧ o.generation ≠ c.publicationGeneration) →
      (∀ started, o'.held = some started →
        o.held = some started ∨ o.owed = [started.transmissionId]) →
      (o.owed ++ e.startedIds).Perm (e.endedIds ++ o'.owed) →
      Move c pc answer c' pc' e
  | givesUp (o : Ownership) : pc.owner = some o → pc'.owner = none →
      c'.publicationGeneration = c.publicationGeneration →
      (o.generation = c.publicationGeneration → c'.publicationState = .idle
        ∧ (c'.activeTransmission = none ∨ c'.activeTransmission = c.activeTransmission)
        ∧ (c.activeTransmission = o.held → c'.heldIds = o.owed)) →
      (o.generation ≠ c.publicationGeneration → c' = c) →
      Move c pc answer c' pc' .none
  | activates (o : Ownership) (started : StartedTransmission) : pc.owner = some o →
      pc'.owner = none → o.held = some started → o.owed = [started.transmissionId] →
      c.publicationState = .starting → c'.publicationState = .active →
      c'.publicationGeneration = c.publicationGeneration →
      c'.activeTransmission = c.activeTransmission →
      Move c pc answer c' pc' .none
  | takes (started : StartedTransmission) (remaining : ℕ) : pc.owner = none →
      c.publicationState = .active → c.activeTransmission = some started →
      c'.publicationState = .stopping →
      c'.publicationGeneration = c.publicationGeneration →
      c'.activeTransmission = c.activeTransmission →
      pc'.owner = some ⟨c.publicationGeneration, some started, [started.transmissionId], remaining⟩ →
      Move c pc answer c' pc' .none
  | cancels : pc.owner = none → pc'.owner = none →
      c.publicationState = .starting ∨ c.publicationState = .active ∧ c.activeTransmission = none →
      c'.publicationState = .stopping →
      c'.publicationGeneration = c.publicationGeneration →
      c'.activeTransmission = c.activeTransmission →
      Move c pc answer c' pc' .none
  | endsInterrupted (caller : Caller) (started : StartedTransmission)
      (view : EndedTransmissionView) : pc = .endInterrupted caller → answer = .ended (.ok view) →
      pc'.owner = none → c.activeTransmission = some started →
      c'.publicationState = c.publicationState →
      c'.publicationGeneration = c.publicationGeneration → c'.activeTransmission = none →
      Move c pc answer c' pc' (.ended started.transmissionId)

theorem samePublication_refl (c : Client) : SamePublication c c := ⟨rfl, rfl, rfl⟩

theorem endedEvent_perm (started : StartedTransmission)
    (ended : ControlPlaneResult EndedTransmissionView) :
    ([started.transmissionId] ++ (endedEvent started.transmissionId ended).startedIds).Perm
      ((endedEvent started.transmissionId ended).endedIds ++ owedAfter started ended) := by
  cases ended <;> simp [endedEvent, Event.startedIds, Event.endedIds, owedAfter, Except.isOk,
    Except.toBool]

theorem none_perm (owed : List TransmissionId) :
    (owed ++ Event.none.startedIds).Perm (Event.none.endedIds ++ owed) := by
  simp [Event.startedIds, Event.endedIds]

/-- A step of the owner that leaves the publication and what is owed alone. -/
theorem Move.proceeds {c c' : Client} {pc pc' : Pc} {answer : Answer} (o o' : Ownership)
    (hpc : pc.owner = some o) (hpc' : pc'.owner = some o') (hgen : o'.generation = o.generation)
    (hremaining : o'.remaining < o.remaining) (hsame : SamePublication c c')
    (hheld : o'.held = o.held) (howed : o'.owed = o.owed) : Move c pc answer c' pc' .none :=
  .works o o' hpc hpc' hgen hremaining hsame.state hsame.generation (.inl ⟨hsame.held, hheld⟩)
    (fun started h => .inl (hheld ▸ h)) (by rw [howed]; exact none_perm _)

/-- The region that gives a publication up. -/
theorem giveUp_move {c : Client} {pc pc' : Pc} {answer : Answer} {generation : UInt64}
    {started : StartedTransmission} {ended : ControlPlaneResult EndedTransmissionView}
    {remaining : ℕ} (releaseResult : VoiceSessionResult)
    (hpc : pc.owner = some ⟨generation, some started, owedAfter started ended, remaining⟩)
    (hpc' : pc'.owner = none) :
    Move c pc answer (giveUp c generation ended releaseResult) pc' .none := by
  refine .givesUp _ hpc hpc' ?_ (fun hgen => ?_) fun hgen => ?_
  · unfold giveUp
    split <;> rfl
  · rw [giveUp, if_pos hgen]
    cases ended with
    | ok view => exact ⟨rfl, .inl rfl, fun _ => rfl⟩
    | error e =>
      refine ⟨rfl, .inr rfl, fun hheld => ?_⟩
      change (c.activeTransmission.toList.map _) = _
      rw [hheld]
      rfl
  · rw [giveUp, if_neg hgen]

theorem pressStep_move {c c' : Client} {pc pc' : Pc} {answer : Answer} {e : Event}
    (h : pressStep c pc answer = some (c', pc', e)) : Move c pc answer c' pc' e := by
  unfold pressStep at h
  split at h
  · -- `pressBegin`
    split at h
    · split_ifs at h with hready hfree
      · cases h
        exact .quiet rfl rfl (samePublication_refl c)
      · cases h
        exact .quiet rfl rfl (samePublication_refl c)
      · cases h
        simp only [Bool.or_eq_true, decide_eq_true_eq, not_or, ne_eq, not_not,
          Bool.not_eq_true, Option.isSome_eq_false_iff, Option.isNone_iff_eq_none] at hfree
        exact .begins 8 rfl hfree.1 hfree.2 rfl hfree.2 rfl
    · cases h
      exact .quiet rfl rfl (samePublication_refl c)
  · -- `pressStart`
    split at h <;> cases h
    · exact .works _ _ rfl rfl rfl (by simp) rfl rfl (.inl ⟨rfl, rfl⟩) (by simp) (.refl _)
    · exact .proceeds _ _ rfl rfl rfl (by simp) (samePublication_refl c) rfl rfl
  · -- `pressStartFailed`
    cases h
    refine .givesUp _ rfl rfl ?_ (fun hgen => ?_) fun hgen => ?_
    · split <;> rfl
    · rw [if_pos hgen]
      refine ⟨rfl, .inr rfl, fun hheld => ?_⟩
      change (c.activeTransmission.toList.map _) = _
      rw [hheld]
      rfl
    · rw [if_neg hgen]
  · -- `pressStarted`
    split at h
    · rename_i hgen
      cases h
      exact .works _ _ rfl rfl rfl (by simp) rfl rfl (.inr (.inr ⟨rfl, hgen⟩)) (by simp)
        (.refl _)
    · cases h
      split
      · exact .works _ _ rfl rfl rfl (by simp) rfl rfl (.inr (.inl ⟨rfl, rfl⟩)) (by simp)
          (.refl _)
      · exact .works _ _ rfl rfl rfl (by simp) rfl rfl (.inr (.inl ⟨rfl, rfl⟩)) (by simp)
          (.refl _)
  · -- `pressMicrophone`
    cases h
    exact .proceeds _ _ rfl rfl rfl (by simp) (samePublication_refl c) rfl rfl
  · -- `pressMicrophoneDone`
    cases h
    split
    · exact .proceeds _ _ rfl rfl rfl (by simp) ⟨rfl, rfl, rfl⟩ rfl rfl
    · exact .proceeds _ _ rfl rfl rfl (by simp) ⟨rfl, rfl, rfl⟩ rfl rfl
  · -- `pressActivate`
    split at h <;> cases h
    · rename_i hstart
      exact .activates _ _ rfl rfl rfl rfl hstart.2 rfl rfl rfl
    · exact .proceeds _ _ rfl rfl rfl (by simp) (samePublication_refl c) rfl rfl
  · -- `pressStopVoice`
    cases h
    exact .proceeds _ _ rfl rfl rfl (by simp) (samePublication_refl c) rfl rfl
  · -- `pressEnd`
    cases h
    exact .works _ _ rfl rfl rfl (by simp) rfl rfl (.inl ⟨rfl, rfl⟩) (fun _ => .inl)
      (endedEvent_perm _ _)
  · -- `pressFinish`
    cases h
    exact giveUp_move _ rfl rfl
  · cases h

theorem releaseStep_move {c c' : Client} {pc pc' : Pc} {answer : Answer} {e : Event}
    (h : releaseStep c pc answer = some (c', pc', e)) : Move c pc answer c' pc' e := by
  unfold releaseStep at h
  split at h
  · -- `releaseBegin`
    split at h
    · cases h
      exact .quiet rfl (owner_afterRelease _ _) (samePublication_refl c)
    · cases h
      exact .quiet rfl rfl (samePublication_refl c)
    · rename_i hstate
      cases h
      exact .cancels rfl (by split <;> rfl) (.inl hstate) rfl rfl rfl
    · rename_i hstate
      cases h
      split
      · rename_i transmission hheld
        exact .takes transmission 3 rfl hstate hheld rfl rfl rfl rfl
      · rename_i hheld
        exact .cancels rfl rfl (.inr ⟨hstate, hheld⟩) rfl rfl rfl
  · -- `releaseCancelStart`
    cases h
    exact .quiet rfl rfl (samePublication_refl c)
  · -- `releaseWait`
    split at h
    · cases h
      exact .quiet rfl (owner_afterRelease _ _) (samePublication_refl c)
    · cases h
  · -- `releaseStopVoice`
    cases h
    exact .proceeds _ _ rfl rfl rfl (by simp) (samePublication_refl c) rfl rfl
  · -- `releaseEnd`
    cases h
    exact .works _ _ rfl rfl rfl (by simp) rfl rfl (.inl ⟨rfl, rfl⟩) (fun _ => .inl)
      (endedEvent_perm _ _)
  · -- `releaseFinish`
    cases h
    exact giveUp_move _ rfl (owner_afterRelease _ _)
  · cases h

theorem connectStep_same (c : Client) (state : VoiceTransportState)
    (session : ControlPlaneResult Unit) (membership : ControlPlaneResult MembershipView)
    (grants : ControlPlaneResult VoiceGrantSet) (connected : VoiceTransportResult) :
    SamePublication c (connectStep c state session membership grants connected).1 := by
  unfold connectStep
  split
  · exact samePublication_refl c
  · split
    any_goals exact samePublication_refl c
    split_ifs <;> exact ⟨rfl, rfl, rfl⟩

theorem switchOff_owner (c : Client) (caller : Caller) : (switchOff c caller).2.owner = none := by
  unfold switchOff
  simp only
  split <;> rfl

theorem sessionStep_move {c c' : Client} {pc pc' : Pc} {answer : Answer} {e : Event}
    (h : sessionStep c pc answer = some (c', pc', e)) : Move c pc answer c' pc' e := by
  unfold sessionStep at h
  split at h
  · -- `connecting`
    cases h
    exact .quiet rfl rfl (connectStep_same ..)
  · -- `endInterrupted`
    split at h
    · cases h
      exact .quiet rfl (owner_afterEndInterrupted _ _) (samePublication_refl c)
    · rename_i transmission result hheld
      cases h
      cases result with
      | ok view =>
        exact .endsInterrupted _ transmission view rfl rfl (owner_afterEndInterrupted _ _) hheld
          rfl rfl rfl
      | error e => exact .quiet rfl (owner_afterEndInterrupted _ _) (samePublication_refl c)
    · cases h
  · -- `disconnectBegin`
    cases h
    exact .quiet rfl (switchOff_owner _ _) ⟨rfl, rfl, rfl⟩
  · -- `disconnectVoice`
    cases h
    exact .quiet rfl (by split <;> rfl) (samePublication_refl c)
  · -- `disconnectReset`
    cases h
    exact .quiet rfl rfl ⟨rfl, rfl, rfl⟩
  · -- `disconnectClearSession`
    cases h
    exact .quiet rfl rfl (samePublication_refl c)
  · -- `refreshBegin`
    cases h
    refine .quiet rfl ?_ (samePublication_refl c)
    split
    · split <;> rfl
    · rfl
  · -- `refreshMembership`
    cases h
    refine .quiet rfl ?_ (samePublication_refl c)
    split
    · rfl
    · split_ifs <;> rfl
  · -- `refreshGrants`
    cases h
    refine .quiet rfl ?_ (samePublication_refl c)
    split
    · rfl
    · split_ifs <;> rfl
  · -- `refreshDisable`
    cases h
    exact .quiet rfl (switchOff_owner _ _) ⟨rfl, rfl, rfl⟩
  · -- `refreshDisconnect`
    cases h
    exact .quiet rfl (by split <;> rfl) (samePublication_refl c)
  · -- `refreshConnect`
    cases h
    exact .quiet rfl (by split <;> rfl) (samePublication_refl c)
  · -- `refreshFailed`
    cases h
    exact .quiet rfl rfl ⟨rfl, rfl, rfl⟩
  · -- `refreshFinish`
    cases h
    exact .quiet rfl rfl ⟨rfl, rfl, rfl⟩
  · cases h

theorem resume_move {c c' : Client} {pc pc' : Pc} {answer : Answer} {e : Event}
    (h : resume c pc answer = some (c', pc', e)) : Move c pc answer c' pc' e := by
  unfold resume at h
  rcases hpress : pressStep c pc answer with _ | r
  · rw [hpress, Option.none_or] at h
    rcases hrelease : releaseStep c pc answer with _ | r
    · rw [hrelease, Option.none_or] at h
      exact sessionStep_move h
    · rw [hrelease, Option.some_or] at h
      exact releaseStep_move (hrelease.trans h)
  · rw [hpress, Option.some_or] at h
    exact pressStep_move (hpress.trans h)

/-- One step of the machine is a move of one thread; a call begins with a quiet one. -/
theorem step_move {s s' : State} {a : Action} (h : step s a = some s') :
    ∃ answer pc' e, Move s.client (s.threads a.thread) answer s'.client pc' e
      ∧ s'.threads = Function.update s.threads a.thread pc'
      ∧ s'.started = s.started ++ e.startedIds ∧ s'.ended = s.ended ++ e.endedIds
      ∧ (a = .resume a.thread answer
        ∨ ∃ result, s.threads a.thread = .outside result ∧ e = .none) := by
  cases a with
  | call t op =>
    simp only [step] at h
    split at h
    · rename_i result hpc
      cases h
      refine ⟨.silent, op.entry, .none, ?_, rfl, by simp [Event.startedIds],
        by simp [Event.endedIds], .inr ⟨result, hpc, rfl⟩⟩
      exact .quiet (by rw [Action.thread, hpc]; rfl) (owner_entry op) (samePublication_refl _)
    · cases h
  | resume t answer =>
    simp only [step] at h
    split at h
    · rename_i client pc' e hresume
      cases h
      refine ⟨answer, pc', e, ?_, ?_, ?_, ?_, .inl rfl⟩
      · have := resume_move hresume
        cases e <;> exact this
      · cases e <;> rfl
      · cases e <;> simp [State.record, Event.startedIds]
      · cases e <;> simp [State.record, Event.endedIds]
    · cases h

/-! ## The owner -/

abbrev State.owner (s : State) (t : ℕ) : Option Ownership := (s.threads t).owner

theorem owner_of_update {s s' : State} {t t' : ℕ} {pc : Pc}
    (h : s'.threads = Function.update s.threads t pc) :
    s'.owner t' = if t' = t then pc.owner else s.owner t' := by
  simp only [State.owner, h, Function.update_apply]
  split <;> rfl

/-- At most one thread owns the publication, under the current generation, and only while it is
starting or stopping; a starting publication has an owner. -/
structure OwnerInv (s : State) : Prop where
  unique : ∀ t t' o o', s.owner t = some o → s.owner t' = some o' → t = t'
  current : ∀ t o, s.owner t = some o → o.generation = s.client.publicationGeneration
  busy : ∀ t o, s.owner t = some o →
    s.client.publicationState = .starting ∨ s.client.publicationState = .stopping
  starting : s.client.publicationState = .starting → ∃ t o, s.owner t = some o

theorem ownerInv_initial : OwnerInv {} where
  unique t t' o o' h := by simp [State.owner, Pc.owner] at h
  current t o h := by simp [State.owner, Pc.owner] at h
  busy t o h := by simp [State.owner, Pc.owner] at h
  starting h := by simp at h

/-- Nobody owns an idle or an active publication. -/
theorem OwnerInv.free {s : State} (hs : OwnerInv s)
    (h : s.client.publicationState = .idle ∨ s.client.publicationState = .active) (t : ℕ) :
    s.owner t = none := by
  rcases ho : s.owner t with _ | o
  · rfl
  · rcases hs.busy t o ho with hb | hb <;> rw [hb] at h <;> simp at h

theorem OwnerInv.sole {s : State} (hs : OwnerInv s) {t : ℕ} {o : Ownership}
    (ho : s.owner t = some o) {t' : ℕ} (ht : t' ≠ t) : s.owner t' = none := by
  rcases ho' : s.owner t' with _ | o'
  · rfl
  · exact absurd (hs.unique t' t o' o ho' ho) ht

theorem OwnerInv.of_same {s s' : State} (hs : OwnerInv s) (ho : ∀ t, s'.owner t = s.owner t)
    (hgen : s'.client.publicationGeneration = s.client.publicationGeneration)
    (hstate : s'.client.publicationState = s.client.publicationState
      ∨ s'.client.publicationState = .stopping) : OwnerInv s' where
  unique t t' o o' h h' := hs.unique t t' o o' (ho t ▸ h) (ho t' ▸ h')
  current t o h := hgen ▸ hs.current t o (ho t ▸ h)
  busy t o h := by
    rcases hstate with hstate | hstate
    · exact hstate ▸ hs.busy t o (ho t ▸ h)
    · exact .inr hstate
  starting h := by
    rcases hstate with hstate | hstate
    · obtain ⟨t, o, hto⟩ := hs.starting (hstate ▸ h)
      exact ⟨t, o, (ho t).trans hto⟩
    · rw [h] at hstate
      cases hstate

theorem ownerInv_of_sole {s : State} {t : ℕ} {o : Ownership} (ho : s.owner t = some o)
    (hothers : ∀ t', t' ≠ t → s.owner t' = none)
    (hgen : o.generation = s.client.publicationGeneration)
    (hstate : s.client.publicationState = .starting ∨ s.client.publicationState = .stopping) :
    OwnerInv s := by
  have hsole : ∀ t' o', s.owner t' = some o' → t' = t ∧ o' = o := by
    intro t' o' ho'
    by_cases ht : t' = t
    · subst ht
      rw [ho] at ho'
      exact ⟨rfl, (Option.some.inj ho').symm⟩
    · rw [hothers t' ht] at ho'
      cases ho'
  exact
    { unique := fun t₁ t₂ o₁ o₂ h₁ h₂ => (hsole t₁ o₁ h₁).1.trans (hsole t₂ o₂ h₂).1.symm
      current := fun t' o' h => (hsole t' o' h).2 ▸ hgen
      busy := fun _ _ _ => hstate
      starting := fun _ => ⟨t, o, ho⟩ }

theorem ownerInv_of_free {s : State} (ho : ∀ t, s.owner t = none)
    (hstate : s.client.publicationState ≠ .starting) : OwnerInv s where
  unique t t' o o' h := by rw [ho t] at h; cases h
  current t o h := by rw [ho t] at h; cases h
  busy t o h := by rw [ho t] at h; cases h
  starting h := absurd h hstate

/-- Who owns the publication after a step, by what the moving thread owned before and after. -/
theorem owners_after {s s' : State} {t : ℕ} {pc' : Pc} (hs : OwnerInv s)
    (hthreads : s'.threads = Function.update s.threads t pc') :
    (s.owner t = none → pc'.owner = none → ∀ t', s'.owner t' = s.owner t')
      ∧ (∀ o, s.owner t = some o → ∀ t', t' ≠ t → s'.owner t' = none)
      ∧ ((∀ t', s.owner t' = none) → ∀ t', t' ≠ t → s'.owner t' = none)
      ∧ s'.owner t = pc'.owner := by
  refine ⟨fun ho ho' t' => ?_, fun o ho t' ht => ?_, fun ho t' ht => ?_, ?_⟩
  · rw [owner_of_update hthreads]
    split
    · rename_i ht
      rw [ht, ho, ho']
    · rfl
  · rw [owner_of_update hthreads, if_neg ht]
    exact hs.sole ho ht
  · rw [owner_of_update hthreads, if_neg ht, ho]
  · rw [owner_of_update hthreads, if_pos rfl]

theorem OwnerInv.step {s s' : State} {a : Action} (hs : OwnerInv s) (h : step s a = some s') :
    OwnerInv s' := by
  obtain ⟨answer, pc', e, hmove, hthreads, -, -, -⟩ := step_move h
  obtain ⟨hsame, hothers, hfree, hself⟩ := owners_after hs hthreads
  cases hmove with
  | quiet ho ho' hc => exact hs.of_same (hsame ho ho') hc.generation (.inl hc.state)
  | begins remaining ho hidle _ hstart _ ho' =>
    exact ownerInv_of_sole (hself.trans ho') (hfree (hs.free (.inl hidle))) rfl (.inl hstart)
  | works o o' ho ho' hgen _ hstate hgen' =>
    exact ownerInv_of_sole (hself.trans ho') (hothers o ho)
      (by rw [hgen, hgen', hs.current _ o ho]) (hstate ▸ hs.busy _ o ho)
  | givesUp o ho ho' _ hgive _ =>
    refine ownerInv_of_free (fun t' => ?_) (by simp [(hgive (hs.current _ o ho)).1])
    by_cases ht : t' = a.thread
    · rw [ht, hself, ho']
    · exact hothers o ho t' ht
  | activates o started ho ho' _ _ _ hactive _ _ =>
    refine ownerInv_of_free (fun t' => ?_) (by simp [hactive])
    by_cases ht : t' = a.thread
    · rw [ht, hself, ho']
    · exact hothers o ho t' ht
  | takes started remaining _ hactive _ hstop hgen _ ho' =>
    exact ownerInv_of_sole (hself.trans ho') (hfree (hs.free (.inr hactive))) hgen.symm (.inr hstop)
  | cancels ho ho' _ hstop hgen _ => exact hs.of_same (hsame ho ho') hgen (.inr hstop)
  | endsInterrupted caller started view hpc _ ho' _ hstate hgen _ =>
    exact hs.of_same (hsame (by rw [State.owner, hpc]; rfl) ho') hgen (.inl hstate)

/-! ## What the client owes the server -/

/-- What is still to be ended is owed by the owner, or held by the client while nobody is. -/
structure Accounted (s : State) : Prop where
  owned : ∀ t o, s.owner t = some o → s.client.activeTransmission = o.held
    ∧ s.started.Perm (s.ended ++ o.owed)
  free : (∀ t, s.owner t = none) → s.started.Perm (s.ended ++ s.client.heldIds)
    ∧ (s.client.publicationState = .idle ∨ s.client.publicationState = .active)
  active : s.client.publicationState = .active → s.client.activeTransmission.isSome = true

theorem accounted_initial : Accounted {} where
  owned t o h := by simp [State.owner, Pc.owner] at h
  free _ := ⟨.refl _, .inl rfl⟩
  active h := by simp at h

theorem balance {started ended owed owed' : List TransmissionId} {e : Event}
    (h : started.Perm (ended ++ owed))
    (he : (owed ++ e.startedIds).Perm (e.endedIds ++ owed')) :
    (started ++ e.startedIds).Perm ((ended ++ e.endedIds) ++ owed') := by
  calc (started ++ e.startedIds).Perm ((ended ++ owed) ++ e.startedIds) := h.append_right _
    _ = ended ++ (owed ++ e.startedIds) := List.append_assoc ..
    _ |>.Perm (ended ++ (e.endedIds ++ owed')) := he.append_left _
    _ = (ended ++ e.endedIds) ++ owed' := (List.append_assoc ..).symm

theorem heldIds_of_same {c c' : Client} (h : c'.activeTransmission = c.activeTransmission) :
    c'.heldIds = c.heldIds := by
  unfold Client.heldIds
  rw [h]

theorem Accounted.of_owner {s : State} (hs : OwnerInv s) {t : ℕ} {o : Ownership}
    (ho : s.owner t = some o) (hheld : s.client.activeTransmission = o.held)
    (hids : s.started.Perm (s.ended ++ o.owed)) : Accounted s where
  owned t' o' ho' := by
    obtain rfl := hs.unique t t' o o' ho ho'
    rw [ho] at ho'
    obtain rfl := Option.some.inj ho'
    exact ⟨hheld, hids⟩
  free h := by
    rw [h t] at ho
    cases ho
  active h := by
    rcases hs.busy t o ho with hb | hb <;> rw [hb] at h <;> cases h

theorem Accounted.of_free {s : State} (ho : ∀ t, s.owner t = none)
    (hids : s.started.Perm (s.ended ++ s.client.heldIds))
    (hstate : s.client.publicationState = .idle ∨ s.client.publicationState = .active)
    (hactive : s.client.publicationState = .active → s.client.activeTransmission.isSome = true) :
    Accounted s where
  owned t o h := by
    rw [ho t] at h
    cases h
  free _ := ⟨hids, hstate⟩
  active := hactive

theorem Accounted.step {s s' : State} {a : Action} (hs : OwnerInv s) (hacc : Accounted s)
    (hg : interruptedIdle s a = true) (h : step s a = some s') : Accounted s' := by
  have hs' := hs.step h
  obtain ⟨answer, pc', e, hmove, hthreads, hstarted, hended, haction⟩ := step_move h
  obtain ⟨hsame, hothers, hfree, hself⟩ := owners_after hs hthreads
  have halone : ∀ o, s.owner a.thread = some o → pc'.owner = none → ∀ t, s'.owner t = none := by
    intro o ho ho' t
    by_cases ht : t = a.thread
    · rw [ht, hself, ho']
    · exact hothers o ho t ht
  cases hmove with
  | quiet ho ho' hc =>
    have hids : s'.started = s.started ∧ s'.ended = s.ended := by
      simp [hstarted, hended, Event.startedIds, Event.endedIds]
    refine ⟨fun t o h => ?_, fun hno => ?_, fun hact => ?_⟩
    · rw [hids.1, hids.2, hc.held]
      exact hacc.owned t o ((hsame ho ho' t).symm.trans h)
    · rw [hids.1, hids.2, heldIds_of_same hc.held, hc.state]
      exact hacc.free fun t => (hsame ho ho' t).symm.trans (hno t)
    · rw [hc.held]
      exact hacc.active (hc.state.symm.trans hact)
  | begins remaining ho hidle hnone _ hnone' ho' =>
    obtain ⟨hids, -⟩ := hacc.free (hs.free (.inl hidle))
    refine .of_owner hs' (hself.trans ho') hnone' ?_
    have hheld : s.client.heldIds = [] := by simp [Client.heldIds, hnone]
    rw [hstarted, hended]
    exact balance hids (by rw [hheld]; exact .refl _)
  | works o o' ho ho' _ _ _ _ hheld _ howed =>
    obtain ⟨hheld₀, hids⟩ := hacc.owned _ o ho
    refine .of_owner hs' (hself.trans ho') ?_ ?_
    · rcases hheld with ⟨hkept, heq⟩ | ⟨hkept, -⟩ | ⟨-, hgen⟩
      · rw [hkept, hheld₀, heq]
      · exact hkept
      · exact absurd (hs.current _ o ho) hgen
    · rw [hstarted, hended]
      exact balance hids howed
  | givesUp o ho ho' _ hgive _ =>
    obtain ⟨hheld₀, hids⟩ := hacc.owned _ o ho
    obtain ⟨hidle, -, howed⟩ := hgive (hs.current _ o ho)
    refine .of_free (halone o ho ho') ?_ (.inl hidle) fun hact => ?_
    · rw [hstarted, hended, howed hheld₀]
      exact balance hids (none_perm _)
    · rw [hidle] at hact
      cases hact
  | activates o started ho ho' hheld howed _ hactive _ hkept =>
    obtain ⟨hheld₀, hids⟩ := hacc.owned _ o ho
    have hsome : s'.client.activeTransmission = some started := by rw [hkept, hheld₀, hheld]
    refine .of_free (halone o ho ho') ?_ (.inr hactive) fun _ => by rw [hsome]; rfl
    have howed' : s'.client.heldIds = o.owed := by simp [Client.heldIds, hsome, howed]
    rw [hstarted, hended, howed']
    exact balance hids (none_perm _)
  | takes started remaining _ hactive hsome _ _ hkept ho' =>
    obtain ⟨hids, -⟩ := hacc.free (hs.free (.inr hactive))
    refine .of_owner hs' (hself.trans ho') (by rw [hkept, hsome]) ?_
    have hheld : s.client.heldIds = [started.transmissionId] := by simp [Client.heldIds, hsome]
    rw [hstarted, hended]
    exact balance hids (by rw [hheld]; exact .refl _)
  | cancels ho ho' hstate _ _ hkept =>
    have hids : s'.started = s.started ∧ s'.ended = s.ended := by
      simp [hstarted, hended, Event.startedIds, Event.endedIds]
    -- a starting publication has an owner, an active one holds its transmission
    obtain ⟨t, o, hto⟩ : ∃ t o, s.owner t = some o := by
      rcases hstate with hstate | ⟨hactive, hnone⟩
      · exact hs.starting hstate
      · have := hacc.active hactive
        simp [hnone] at this
    obtain ⟨hheld₀, hids₀⟩ := hacc.owned t o hto
    refine .of_owner hs' ((hsame ho ho' t).trans hto) (hkept.trans hheld₀) ?_
    rw [hids.1, hids.2]
    exact hids₀
  | endsInterrupted caller started view hpc hanswer ho' hsome hstate _ hnone =>
    have hidle : s.client.publicationState = .idle := by
      rcases haction with haction | ⟨result, hout, -⟩
      · rw [haction, hanswer] at hg
        simpa [interruptedIdle, hpc] using hg
      · rw [hpc] at hout
        cases hout
    obtain ⟨hids, -⟩ := hacc.free (hs.free (.inl hidle))
    refine .of_free (fun t => ?_) ?_ (.inl (hstate.trans hidle)) fun hact => ?_
    · rw [hsame (by rw [State.owner, hpc]; rfl) ho' t]
      exact hs.free (.inl hidle) t
    · have hheld : s.client.heldIds = [started.transmissionId] := by simp [Client.heldIds, hsome]
      have hheld' : s'.client.heldIds = [] := by simp [Client.heldIds, hnone]
      rw [hstarted, hended, hheld']
      exact balance hids (by rw [hheld]; exact .refl _)
    · rw [hstate, hidle] at hact
      cases hact

/-! ## Nobody waits in vain -/

/-- An owner is never blocked: some answer lets it go on. -/
theorem owner_enabled {c : Client} {pc : Pc} {o : Ownership} (ho : pc.owner = some o) :
    ∃ answer r, resume c pc answer = some r := by
  let result : VoiceTransportResult := .success
  let error : ControlPlaneError := ⟨.transport, 0, [], []⟩
  cases pc <;> simp only [Pc.owner, reduceCtorEq] at ho
  case pressStart => exact ⟨.started (.error error), _, rfl⟩
  case pressStarted scope generation started =>
    refine ⟨.silent, ?_⟩
    simp only [resume, pressStep]
    split <;> exact ⟨_, rfl⟩
  case pressActivate scope generation started =>
    refine ⟨.silent, ?_⟩
    simp only [resume, pressStep]
    split <;> exact ⟨_, rfl⟩
  case pressEnd => exact ⟨.ended (.error error), _, rfl⟩
  case releaseEnd => exact ⟨.ended (.error error), _, rfl⟩
  case pressMicrophone => exact ⟨.voice result, _, rfl⟩
  case pressStopVoice => exact ⟨.voice result, _, rfl⟩
  case releaseStopVoice => exact ⟨.voice result, _, rfl⟩
  all_goals exact ⟨.silent, _, rfl⟩

theorem owner_not_blocked {s : State} {t : ℕ} {o : Ownership} (ho : s.owner t = some o) :
    ∃ answer s', step s (.resume t answer) = some s' := by
  obtain ⟨answer, ⟨c', pc', e⟩, hresume⟩ := owner_enabled (c := s.client) ho
  exact ⟨answer, _, by simp only [step, hresume]; rfl⟩

theorem owner_remaining {pc : Pc} {o : Ownership} (ho : pc.owner = some o) : 0 < o.remaining := by
  cases pc <;> simp only [Pc.owner, reduceCtorEq, Option.some.injEq] at ho <;> subst ho <;> simp

/-- A publication that is being stopped stays so until its owner makes it idle. -/
theorem stopping_step {s s' : State} {a : Action} {t : ℕ} {o : Ownership} (hs : OwnerInv s)
    (ho : s.owner t = some o) (hstop : s.client.publicationState = .stopping)
    (h : step s a = some s') :
    a.thread = t ∧ s'.client.publicationState = .idle
      ∨ s'.client.publicationState = .stopping ∧ ∃ o', s'.owner t = some o'
        ∧ o'.remaining + (if a.thread = t then 1 else 0) ≤ o.remaining := by
  obtain ⟨answer, pc', e, hmove, hthreads, -, -, -⟩ := step_move h
  obtain ⟨hsame, -, -, hself⟩ := owners_after hs hthreads
  -- a thread without ownership is another one than `t`, and leaves it to `t`
  have hother : s.owner a.thread = none → pc'.owner = none →
      ∃ o', s'.owner t = some o' ∧ o'.remaining + (if a.thread = t then 1 else 0) ≤ o.remaining := by
    intro hnone hnone'
    have hne : a.thread ≠ t := by
      rintro rfl
      rw [ho] at hnone
      cases hnone
    exact ⟨o, (hsame hnone hnone' t).trans ho, by simp [hne]⟩
  cases hmove with
  | quiet hnone hnone' hc => exact .inr ⟨hc.state.trans hstop, hother hnone hnone'⟩
  | begins _ _ hidle => rw [hstop] at hidle; cases hidle
  | works o₁ o' ho₁ ho' _ hremaining hstate =>
    obtain rfl := hs.unique _ _ _ _ ho ho₁
    have heq : o₁ = o := Option.some.inj (ho₁.symm.trans ho)
    refine .inr ⟨hstate.trans hstop, o', hself.trans ho', ?_⟩
    rw [if_pos rfl, ← heq]
    exact hremaining
  | givesUp o₁ ho₁ _ _ hgive _ =>
    exact .inl ⟨(hs.unique _ _ _ _ ho ho₁).symm, (hgive (hs.current _ o₁ ho₁)).1⟩
  | activates _ _ _ _ _ _ hstart => rw [hstop] at hstart; cases hstart
  | takes _ _ _ hactive => rw [hstop] at hactive; cases hactive
  | cancels _ _ hstate =>
    rcases hstate with hstate | ⟨hstate, -⟩ <;> rw [hstop] at hstate <;> cases hstate
  | endsInterrupted caller started view hpc _ hnone' _ hstate =>
    exact .inr ⟨hstate.trans hstop, hother (by rw [State.owner, hpc]; rfl) hnone'⟩

/-- Whatever the threads do, `t` makes the publication idle within `n` of its own steps, and until
then it is never blocked. -/
def Finishes (s : State) (t n : ℕ) : Prop :=
  ∀ as s', Runs step Free s as s' →
    (∃ as₁ a as₂ m, as = as₁ ++ a :: as₂ ∧ a.thread = t ∧ Runs step Free s (as₁ ++ [a]) m
      ∧ m.client.publicationState = .idle)
    ∨ as.countP (fun a => a.thread = t) < n ∧ ∃ answer s'', step s' (.resume t answer) = some s''

theorem finishes_of_owner {s : State} {t : ℕ} {o : Ownership} (hs : OwnerInv s)
    (ho : s.owner t = some o) (hstop : s.client.publicationState = .stopping) :
    Finishes s t o.remaining := by
  intro as s' h
  induction h generalizing o with
  | nil s => exact .inr ⟨owner_remaining ho, owner_not_blocked ho⟩
  | cons _ hstep _ ih =>
    rename_i a as _ _
    rcases stopping_step hs ho hstop hstep with ⟨ht, hidle⟩ | ⟨hstop', o', ho', hremaining⟩
    · exact .inl ⟨[], a, as, _, rfl, ht, .cons trivial hstep (.nil _), hidle⟩
    · rcases ih (hs.step hstep) ho' hstop' with ⟨as₁, b, as₂, m, rfl, hb, hrun, hidle⟩ | ⟨hcount, hgo⟩
      · exact .inl ⟨a :: as₁, b, as₂, m, rfl, hb, .cons trivial hstep hrun, hidle⟩
      · refine .inr ⟨?_, hgo⟩
        rw [List.countP_cons]
        simp only [decide_eq_true_eq]
        omega

/-! ## Every run -/

/-- Each transmission the server granted is ended at most once, has been ended or is held while
nothing is being published, is held while the microphone is on, and is being brought to its end
by the owner of the publication while that is being stopped. -/
structure Safe (s : State) : Prop where
  ended_once : ∀ id, s.ended.count id ≤ s.started.count id
  idle : s.client.publicationState = .idle → s.started.Perm (s.ended ++ s.client.heldIds)
  active : s.client.publicationState = .active → s.client.activeTransmission.isSome = true
  stopping : s.client.publicationState = .stopping → ∃ t o, s.owner t = some o
    ∧ o.generation = s.client.publicationGeneration ∧ Finishes s t o.remaining

theorem Accounted.safe {s : State} (hs : OwnerInv s) (hacc : Accounted s) : Safe s where
  ended_once id := by
    have hids : ∃ owed, s.started.Perm (s.ended ++ owed) := by
      by_cases h : ∀ t, s.owner t = none
      · exact ⟨_, (hacc.free h).1⟩
      · simp only [not_forall] at h
        obtain ⟨t, ho⟩ := h
        obtain ⟨o, ho⟩ := Option.ne_none_iff_exists'.mp ho
        exact ⟨_, (hacc.owned t o ho).2⟩
    obtain ⟨owed, hids⟩ := hids
    rw [hids.count_eq, List.count_append]
    omega
  idle h := (hacc.free (hs.free (.inl h))).1
  active := hacc.active
  stopping h := by
    obtain ⟨t, o, ho⟩ : ∃ t o, s.owner t = some o := by
      by_contra hno
      simp only [not_exists] at hno
      have hfree : ∀ t, s.owner t = none := fun t => Option.eq_none_iff_forall_ne_some.mpr (hno t)
      rcases (hacc.free hfree).2 with hstate | hstate <;> rw [h] at hstate <;> cases hstate
    exact ⟨t, o, ho, hs.current t o ho, finishes_of_owner hs ho h⟩

theorem publication_safe {s : State} {as : List Action}
    (h : Runs step (fun s a => interruptedIdle s a = true) {} as s) : Safe s := by
  have hinv : OwnerInv s ∧ Accounted s :=
    h.invariant (I := fun s => OwnerInv s ∧ Accounted s)
      (fun _ _ _ hs hg hstep => ⟨hs.1.step hstep, hs.2.step hs.1 hg hstep⟩)
      ⟨ownerInv_initial, accounted_initial⟩
  exact hinv.2.safe hinv.1

section Runs

open Sample

def membershipView (version : ℕ) : MembershipView :=
  ⟨version, hierarchy.id, alice, group, specialization, team, [speaker], true, true, false⟩

def grantSet (version : ℕ) : VoiceGrantSet := ⟨version, 1000, []⟩

def granted : StartedTransmission := ⟨first, clientTransmission, .team, 1, 1⟩

def endedView : EndedTransmissionView := ⟨first, bytes "released"⟩

/-- The client connects. -/
def connects (t : ℕ) : List Action :=
  [.call t .connect,
    .resume t (.connect .disconnected (.ok ()) (.ok (membershipView 1)) (.ok (grantSet 1)) .success)]

/-- A press that the server and the microphone grant. -/
def presses (t : ℕ) : List Action :=
  [.call t (.pressPushToTalk .team), .resume t (.voiceState .connected),
    .resume t (.started (.ok granted)), .resume t .silent, .resume t (.voice .success),
    .resume t .silent, .resume t .silent]

/-- A release that takes the held transmission and ends it. -/
def releases (t : ℕ) : List Action :=
  [.call t .releasePushToTalk, .resume t .silent, .resume t (.voice .success),
    .resume t (.ended (.ok endedView)), .resume t .silent]

/-- A refresh under a new membership version, while nothing is published. -/
def refreshes (t : ℕ) : List Action :=
  [.call t .refreshAuthorization, .resume t (.voiceState .connected),
    .resume t (.membership (.ok (membershipView 2))), .resume t (.grants (.ok (grantSet 2))),
    .resume t .silent, .resume t .silent, .resume t (.voice .success), .resume t (.voice .success),
    .resume t .silent]

/-- A press and its release on two threads. -/
theorem publication_safe_release : ∃ s,
    Runs step (fun s a => interruptedIdle s a = true) {} (connects 0 ++ presses 0 ++ releases 1) s
      ∧ s.ended = [first] ∧ Safe s := by
  obtain ⟨s, hrun, hs⟩ := exists_run_restrict interruptedIdle step
    (connects 0 ++ presses 0 ++ releases 1) (s := {}) (p := fun s => decide (s.ended = [first]))
    (by decide +kernel)
  exact ⟨s, hrun, of_decide_eq_true hs, publication_safe hrun⟩

/-- A disconnect that found nothing published ends the transmission of a press that came after a
refresh on another thread: the microphone is on and the client holds nothing. -/
theorem disconnect_ends_active : ∃ s,
    Runs step Free {} (connects 0 ++ [.call 0 .disconnect, .resume 0 .silent] ++ refreshes 1
      ++ presses 2 ++ [.resume 0 (.ended (.ok endedView))]) s
      ∧ s.client.publicationState = .active ∧ s.client.activeTransmission = none ∧ ¬ Safe s := by
  obtain ⟨s, hrun, hs⟩ := exists_run step (connects 0 ++ [.call 0 .disconnect, .resume 0 .silent]
    ++ refreshes 1 ++ presses 2 ++ [.resume 0 (.ended (.ok endedView))]) (s := {})
    (p := fun s => decide (s.client.publicationState = .active
      ∧ s.client.activeTransmission = none)) (by decide +kernel)
  obtain ⟨hactive, hnone⟩ := of_decide_eq_true hs
  refine ⟨s, hrun, hactive, hnone, fun hsafe => ?_⟩
  have hheld := hsafe.active hactive
  rw [hnone] at hheld
  cases hheld

end Runs

end VoxTree.VoiceSession

import VoxTree.MicrophonePublication

/-!
# Push-to-talk state under all interleavings

Every step of a thread is one of seven moves (`resume_move`). From a press or a release that stops
the microphone until it has set the state to idle or active, exactly one thread owns the pending
publication (`OwnerInv`). An active publication is connected and has a scope as long as no failed
`connect` and no `disconnect` writes over it (`publication_consistent`).
-/

namespace VoxTree.MicrophonePublication

open Machine

/-! ## Moves -/

/-- The steps a thread still takes until it has set the publication's state. -/
def Phase.remaining : Phase → ℕ
  | .pressStart .. => 5
  | .pressStarted .. => 4
  | .pressQuery .. => 3
  | .pressStop .. => 2
  | .pressFinish .. => 1
  | .releaseStop .. => 2
  | .releaseFinish .. => 1
  | _ => 0

/-- The generation a release waits out. -/
def Phase.waitsFor : Phase → Option ℕ
  | .releaseWait _ generation => some generation
  | _ => none

/-- Whether the thread is about to write that the client is disconnected. -/
def Phase.overwrites : Phase → Bool
  | .connectDone result => !result.ok
  | .disconnectDone result => result.ok
  | _ => false

/-- A phase that has nothing to do with a pending publication. -/
def Phase.Free (phase : Phase) : Prop := phase.remaining = 0 ∧ phase.waitsFor = none

theorem free_returned (result : VoiceTransportResult) : (returned result).Free := ⟨rfl, rfl⟩

theorem free_entry (op : Op) : op.entry.Free := by
  cases op <;> exact ⟨rfl, rfl⟩

theorem free_afterRelease (caller : Caller) (result : VoiceTransportResult) :
    (caller.afterRelease result).Free := by
  unfold Caller.afterRelease
  split
  · exact free_returned result
  · split
    · exact free_returned result
    · exact ⟨rfl, rfl⟩

/-- The publication is as it was, but its scope may have been cleared. -/
structure SamePublication (c c' : Client) : Prop where
  state : c'.publicationState = c.publicationState
  generation : c'.publicationGeneration = c.publicationGeneration
  scope : c'.activeScope = none ∨ c'.activeScope = c.activeScope

theorem samePublication_refl (c : Client) : SamePublication c c := ⟨rfl, rfl, .inr rfl⟩

/-- What one step of a thread can do to the publication. -/
inductive Move (c : Client) (phase : Phase) (answer : Answer) : Client → Phase → Prop
  | quiet {c' : Client} {phase' : Phase} : phase.remaining = 0 → phase'.Free →
      SamePublication c c' →
      (c.state = .connected → c'.state = .connected ∧ c'.activeScope = c.activeScope
        ∨ phase.overwrites = true ∧ answer = .silent) → Move c phase answer c' phase'
  | waits (caller : Caller) : phase.remaining = 0 → c.publicationState = .stopping →
      Move c phase answer c (.releaseWait caller c.publicationGeneration)
  | cancels (caller : Caller) : phase.remaining = 0 → c.publicationState = .starting →
      Move c phase answer { c with publicationState := .stopping }
        (.releaseWait caller c.publicationGeneration)
  | begins (scope : VoiceScope) : phase.remaining = 0 → c.publicationState = .idle →
      Move c phase answer
        { c with
          publicationGeneration := c.publicationGeneration + 1
          publicationState := .starting
          activeScope := none
          lastStopResult := .success }
        (.pressStart scope (c.publicationGeneration + 1))
  | takes (caller : Caller) : phase.remaining = 0 → c.publicationState = .active →
      Move c phase answer { c with publicationState := .stopping }
        (.releaseStop caller c.publicationGeneration)
  | works {phase' : Phase} : phase'.remaining ≠ 0 → phase'.remaining < phase.remaining →
      phase'.generation = phase.generation → phase'.waitsFor = none → Move c phase answer c phase'
  | activates (scope : VoiceScope) {phase' : Phase} : phase.remaining ≠ 0 → phase'.Free →
      phase.generation = some c.publicationGeneration → c.publicationState = .starting →
      c.state = .connected →
      Move c phase answer { c with publicationState := .active, activeScope := some scope } phase'
  | finishes (generation : ℕ) (stopResult : VoiceTransportResult) {phase' : Phase} :
      phase.remaining ≠ 0 → phase'.Free → phase.generation = some generation →
      Move c phase answer (c.stopped generation stopResult) phase'

variable {c c' : Client} {phase phase' : Phase} {answer : Answer}

/-- A step that leaves the client alone. -/
theorem Move.passes (h : phase.remaining = 0) (h' : phase'.Free) : Move c phase answer c phase' :=
  .quiet h h' (samePublication_refl c) fun hconnected => .inl ⟨hconnected, rfl⟩

theorem connectionStep_move (h : connectionStep c phase answer = some (c', phase')) :
    Move c phase answer c' phase' := by
  unfold connectionStep at h
  split at h
  · -- `connectBegin`
    simp only at h
    split_ifs at h with hvalid hstate
    · cases h
      exact .passes rfl (free_returned _)
    · cases h
      exact .passes rfl (free_returned _)
    · cases h
      refine .quiet rfl ⟨rfl, rfl⟩ ⟨rfl, rfl, .inr rfl⟩ fun hconnected => ?_
      simp [hconnected] at hstate
  · -- `connect`
    cases h
    exact .passes rfl ⟨rfl, rfl⟩
  · -- `connectDone`
    rename_i result
    cases h
    rcases hok : result.ok
    · refine .quiet rfl (free_returned _) ⟨rfl, rfl, .inr rfl⟩ fun _ => .inr ⟨?_, rfl⟩
      simp [Phase.overwrites, hok]
    · exact .passes rfl (free_returned _)
  · -- `disconnectBegin`
    split_ifs at h with hstate
    · cases h
      refine .quiet rfl (free_returned _) ⟨rfl, rfl, .inl rfl⟩ fun hconnected => ?_
      rw [hconnected] at hstate
      cases hstate
    · cases h
      exact .passes rfl ⟨rfl, rfl⟩
  · -- `disconnect`
    cases h
    exact .passes rfl ⟨rfl, rfl⟩
  · -- `disconnectDone`
    rename_i result
    cases h
    rcases hok : result.ok
    · exact .passes rfl (free_returned _)
    · exact .quiet rfl (free_returned _) ⟨rfl, rfl, .inl rfl⟩ fun _ => .inr ⟨hok, rfl⟩
  · cases h

theorem pressStep_move (h : pressStep c phase answer = some (c', phase')) :
    Move c phase answer c' phase' := by
  unfold pressStep at h
  split at h
  · -- `pressBegin`
    rename_i scope
    split_ifs at h with hstate hidle
    · cases h
      exact .passes rfl (free_returned _)
    · cases h
      exact .passes rfl (free_returned _)
    · cases h
      exact .begins scope rfl (not_not.1 hidle)
  · -- `pressStart`
    cases h
    exact .works (by simp [Phase.remaining]) (by simp [Phase.remaining]) rfl rfl
  · -- `pressStarted`
    split_ifs at h with hactive hcancel
    · cases h
      obtain ⟨-, hgeneration, hstarting, hconnected⟩ := hactive
      exact .activates _ (by simp [Phase.remaining]) (free_returned _) (by rw [← hgeneration]; rfl)
        hstarting hconnected
    · cases h
      exact .works (by simp [Phase.remaining]) (by simp [Phase.remaining]) rfl rfl
    · cases h
      exact .works (by simp [Phase.remaining]) (by simp [Phase.remaining]) rfl rfl
  · -- `pressQuery`
    cases h
    split
    · exact .works (by simp [Phase.remaining]) (by simp [Phase.remaining]) rfl rfl
    · exact .works (by simp [Phase.remaining]) (by simp [Phase.remaining]) rfl rfl
  · -- `pressStop`
    cases h
    exact .works (by simp [Phase.remaining]) (by simp [Phase.remaining]) rfl rfl
  · -- `pressFinish`
    cases h
    exact .finishes _ _ (by simp [Phase.remaining]) (free_returned _) rfl
  · cases h

theorem releaseStep_move (h : releaseStep c phase answer = some (c', phase')) :
    Move c phase answer c' phase' := by
  unfold releaseStep at h
  split at h
  · -- `releaseBegin`
    rename_i caller
    split at h <;> rename_i hstate <;> cases h
    · exact .passes rfl (free_afterRelease _ _)
    · exact .cancels caller rfl hstate
    · exact .waits caller rfl hstate
    · exact .takes caller rfl hstate
  · -- `releaseWait`
    split_ifs at h
    cases h
    exact .passes rfl (free_afterRelease _ _)
  · -- `releaseStop`
    cases h
    exact .works (by simp [Phase.remaining]) (by simp [Phase.remaining]) rfl rfl
  · -- `releaseFinish`
    cases h
    exact .finishes _ _ (by simp [Phase.remaining]) (free_afterRelease _ _) rfl
  · cases h

theorem resume_move (h : resume c phase answer = some (c', phase')) :
    Move c phase answer c' phase' := by
  unfold resume at h
  rcases hconnection : connectionStep c phase answer with _ | r
  · rw [hconnection, Option.none_or] at h
    rcases hpress : pressStep c phase answer with _ | r
    · rw [hpress, Option.none_or] at h
      exact releaseStep_move h
    · rw [hpress, Option.some_or] at h
      exact pressStep_move (hpress.trans h)
  · rw [hconnection, Option.some_or] at h
    exact connectionStep_move (hconnection.trans h)

/-! ## One owner -/

/-- One thread owns what is pending, for the current generation; the releases that wait, wait for
it or can return. -/
structure OwnerInv (c : State) : Prop where
  owner : ∀ t, (c.threads t).remaining ≠ 0 → pending c = true
    ∧ (c.threads t).generation = some c.client.publicationGeneration
  unique : ∀ t t', (c.threads t).remaining ≠ 0 → (c.threads t').remaining ≠ 0 → t = t'
  owned : pending c = true → ∃ t, (c.threads t).remaining ≠ 0
  scope : c.client.activeScope.isSome = true →
    c.client.publicationState = .active ∨ c.client.publicationState = .stopping
  waits : ∀ t generation, (c.threads t).waitsFor = some generation →
    generation ≤ c.client.publicationGeneration
      ∧ (generation = c.client.publicationGeneration →
        c.client.publicationState = .idle ∨ c.client.publicationState = .stopping)

theorem pending_iff {c : State} : pending c = true ↔
    c.client.publicationState = .starting ∨ c.client.publicationState = .stopping := by
  simp [pending]

theorem not_pending_idle {c : State} (h : c.client.publicationState = .idle) :
    pending c = false := by simp [pending, h]

theorem not_pending_active {c : State} (h : c.client.publicationState = .active) :
    pending c = false := by simp [pending, h]

theorem ownerInv_initial (state : VoiceTransportState) : OwnerInv (initial state) where
  owner t h := absurd rfl h
  unique t t' h := absurd rfl h
  owned h := by cases h
  scope h := by cases h
  waits t generation h := by cases h

/-- A state whose publication is not pending has no owner. -/
theorem OwnerInv.free {c : State} (hc : OwnerInv c) (h : pending c = false) (t : ℕ) :
    (c.threads t).remaining = 0 := by
  by_contra hne
  rw [(hc.owner t hne).1] at h
  cases h

/-- The state after a step of the thread. -/
def State.moved (c : State) (t : ℕ) (client : Client) (phase : Phase) : State :=
  ⟨client, Function.update c.threads t phase⟩

section Moved

variable {c : State} {t : ℕ} {client : Client} {phase : Phase}

@[simp] theorem moved_client : (c.moved t client phase).client = client := rfl

@[simp] theorem moved_threads_self : (c.moved t client phase).threads t = phase :=
  Function.update_self _ _ _

theorem moved_threads_of_ne {t' : ℕ} (h : t' ≠ t) :
    (c.moved t client phase).threads t' = c.threads t' :=
  Function.update_of_ne h _ _

/-- What a release waits for is kept. -/
def KeepsWaits (client client' : Client) : Prop :=
  ∀ generation, generation ≤ client.publicationGeneration →
    (generation = client.publicationGeneration →
      client.publicationState = .idle ∨ client.publicationState = .stopping) →
    generation ≤ client'.publicationGeneration
      ∧ (generation = client'.publicationGeneration →
        client'.publicationState = .idle ∨ client'.publicationState = .stopping)

theorem keepsWaits_same (h : client.publicationGeneration = c.client.publicationGeneration)
    (hstate : c.client.publicationState = .idle ∨ c.client.publicationState = .stopping →
      client.publicationState = .idle ∨ client.publicationState = .stopping) :
    KeepsWaits c.client client := by
  intro generation hle hwaits
  rw [h]
  exact ⟨hle, fun heq => hstate (hwaits heq)⟩

theorem OwnerInv.waits_moved (hc : OwnerInv c) (hwaits : KeepsWaits c.client client)
    (hphase : ∀ generation, phase.waitsFor = some generation →
      generation ≤ client.publicationGeneration
        ∧ (client.publicationState = .idle ∨ client.publicationState = .stopping))
    {t' generation : ℕ}
    (h : ((c.moved t client phase).threads t').waitsFor = some generation) :
    generation ≤ client.publicationGeneration
      ∧ (generation = client.publicationGeneration →
        client.publicationState = .idle ∨ client.publicationState = .stopping) := by
  rcases eq_or_ne t' t with rfl | hne
  · rw [moved_threads_self] at h
    obtain ⟨hle, hstate⟩ := hphase generation h
    exact ⟨hle, fun _ => hstate⟩
  · rw [moved_threads_of_ne hne] at h
    obtain ⟨hle, hstate⟩ := hc.waits t' generation h
    exact hwaits generation hle hstate

/-- A thread that is no owner moves on and becomes none. -/
theorem OwnerInv.beside (hc : OwnerInv c) (ht : (c.threads t).remaining = 0)
    (hphase : phase.remaining = 0)
    (hgeneration : client.publicationGeneration = c.client.publicationGeneration)
    (hpending : pending (c.moved t client phase) = pending c)
    (hscope : client.activeScope.isSome = true →
      client.publicationState = .active ∨ client.publicationState = .stopping)
    (hwaits : KeepsWaits c.client client)
    (hphaseWaits : ∀ generation, phase.waitsFor = some generation →
      generation ≤ client.publicationGeneration
        ∧ (client.publicationState = .idle ∨ client.publicationState = .stopping)) :
    OwnerInv (c.moved t client phase) := by
  have hother : ∀ t', ((c.moved t client phase).threads t').remaining ≠ 0 → t' ≠ t := by
    rintro t' ht' rfl
    rw [moved_threads_self] at ht'
    exact ht' hphase
  refine ⟨fun t' ht' => ?_, fun t₁ t₂ h₁ h₂ => ?_, fun hp => ?_, hscope,
    fun t' generation h => hc.waits_moved hwaits hphaseWaits h⟩
  · have hne := hother t' ht'
    rw [moved_threads_of_ne hne] at ht' ⊢
    rw [hpending, moved_client, hgeneration]
    exact hc.owner t' ht'
  · rw [moved_threads_of_ne (hother t₁ h₁)] at h₁
    rw [moved_threads_of_ne (hother t₂ h₂)] at h₂
    exact hc.unique t₁ t₂ h₁ h₂
  · rw [hpending] at hp
    obtain ⟨t', ht'⟩ := hc.owned hp
    have hne : t' ≠ t := fun heq => ht' (heq ▸ ht)
    exact ⟨t', by rwa [moved_threads_of_ne hne]⟩

/-- The thread moves on where no other is an owner, and is one exactly if something is pending. -/
theorem OwnerInv.alone (hc : OwnerInv c) (hothers : ∀ t', t' ≠ t → (c.threads t').remaining = 0)
    (hpending : phase.remaining ≠ 0 ↔ pending (c.moved t client phase) = true)
    (hgeneration : phase.remaining ≠ 0 → phase.generation = some client.publicationGeneration)
    (hscope : client.activeScope.isSome = true →
      client.publicationState = .active ∨ client.publicationState = .stopping)
    (hwaits : KeepsWaits c.client client) (hphaseWaits : phase.waitsFor = none) :
    OwnerInv (c.moved t client phase) := by
  have hself : ∀ t', ((c.moved t client phase).threads t').remaining ≠ 0 → t' = t := by
    intro t' ht'
    by_contra hne
    rw [moved_threads_of_ne hne] at ht'
    exact ht' (hothers t' hne)
  refine ⟨fun t' ht' => ?_, fun t₁ t₂ h₁ h₂ => (hself t₁ h₁).trans (hself t₂ h₂).symm,
    fun hp => ⟨t, ?_⟩, hscope, fun t' generation h => hc.waits_moved hwaits ?_ h⟩
  · obtain rfl := hself t' ht'
    rw [moved_threads_self] at ht' ⊢
    exact ⟨hpending.1 ht', hgeneration ht'⟩
  · rw [moved_threads_self]
    exact hpending.2 hp
  · intro generation' h'
    rw [hphaseWaits] at h'
    cases h'

/-- Every move of a thread keeps the owner. -/
theorem OwnerInv.move {answer : Answer} (hc : OwnerInv c)
    (h : Move c.client (c.threads t) answer client phase) : OwnerInv (c.moved t client phase) := by
  have hothers : (c.threads t).remaining ≠ 0 → ∀ t', t' ≠ t → (c.threads t').remaining = 0 := by
    intro ht t' hne
    by_contra ht'
    exact hne (hc.unique t' t ht' ht)
  cases h with
  | quiet hfree hphase hsame hstate =>
    refine hc.beside hfree hphase.1 hsame.generation (by simp [pending, hsame.state])
      (fun hscope => ?_) (keepsWaits_same hsame.generation (by simp [hsame.state])) ?_
    · rw [hsame.state]
      rcases hsame.scope with hnone | heq
      · simp [hnone] at hscope
      · exact hc.scope (heq ▸ hscope)
    · simp [hphase.2]
  | waits caller hfree hstate =>
    refine hc.beside hfree rfl rfl rfl hc.scope (keepsWaits_same rfl id) ?_
    rintro generation hgeneration
    obtain rfl := Option.some.inj hgeneration
    exact ⟨Nat.le_refl _, .inr hstate⟩
  | cancels caller hfree hstate =>
    refine hc.beside hfree rfl rfl (by simp [pending, hstate]) (fun _ => .inr rfl)
      (keepsWaits_same rfl fun _ => .inr rfl) ?_
    rintro generation hgeneration
    obtain rfl := Option.some.inj hgeneration
    exact ⟨Nat.le_refl _, .inr rfl⟩
  | begins scope hfree hstate =>
    refine hc.alone (fun t' _ => hc.free (not_pending_idle hstate) t')
      (by simp [Phase.remaining, pending]) (fun _ => rfl) (by simp) ?_ rfl
    intro generation hle _
    refine ⟨Nat.le_succ_of_le hle, fun heq => ?_⟩
    change generation = c.client.publicationGeneration + 1 at heq
    omega
  | takes caller hfree hstate =>
    exact hc.alone (fun t' _ => hc.free (not_pending_active hstate) t')
      (by simp [Phase.remaining, pending]) (fun _ => rfl) (fun _ => .inr rfl)
      (keepsWaits_same rfl fun _ => .inr rfl) rfl
  | works hphase hlt hgeneration hwaits =>
    have ht : (c.threads t).remaining ≠ 0 := by omega
    obtain ⟨hpending, hcurrent⟩ := hc.owner t ht
    refine hc.alone (hothers ht) ⟨fun _ => hpending, fun _ => hphase⟩ (fun _ => ?_) hc.scope
      (keepsWaits_same rfl id) hwaits
    rw [hgeneration, hcurrent]
  | activates scope ht hphase hgeneration hstarting hconnected =>
    refine hc.alone (hothers ht) (by simp [hphase.1, pending]) (fun h => absurd hphase.1 h)
      (fun _ => .inl rfl) ?_ hphase.2
    intro generation hle hstate
    refine ⟨hle, fun heq => ?_⟩
    have := hstate heq
    rw [hstarting] at this
    simp at this
  | finishes generation stopResult ht hphase hgeneration =>
    obtain ⟨hpending, hcurrent⟩ := hc.owner t ht
    obtain rfl : generation = c.client.publicationGeneration :=
      Option.some.inj (hgeneration.symm.trans hcurrent)
    simp only [Client.stopped, if_true]
    exact hc.alone (hothers ht) (by simp [hphase.1, pending]) (fun h => absurd hphase.1 h)
      (by simp) (keepsWaits_same rfl fun _ => .inl rfl) hphase.2

end Moved

/-! ## Steps -/

theorem onTransportStateChanged_generation (c : Client) (state : VoiceTransportState) :
    (c.onTransportStateChanged state).publicationGeneration = c.publicationGeneration := by
  unfold Client.onTransportStateChanged
  simp only
  split_ifs <;> rfl

theorem onTransportStateChanged_state (c : Client) (state : VoiceTransportState) :
    (c.onTransportStateChanged state).state = state := by
  unfold Client.onTransportStateChanged
  simp only
  split_ifs <;> rfl

/-- The callback takes an active publication to idle and a starting one to stopping. -/
theorem onTransportStateChanged_cases (c : Client) (state : VoiceTransportState) :
    state = .connected
      ∧ (c.onTransportStateChanged state).publicationState = c.publicationState
      ∧ (c.onTransportStateChanged state).activeScope = c.activeScope
    ∨ (c.onTransportStateChanged state).activeScope = none
      ∧ (c.publicationState = .active
          ∧ (c.onTransportStateChanged state).publicationState = .idle
        ∨ c.publicationState = .starting
          ∧ (c.onTransportStateChanged state).publicationState = .stopping
        ∨ c.publicationState ≠ .active ∧ c.publicationState ≠ .starting
          ∧ (c.onTransportStateChanged state).publicationState = c.publicationState) := by
  by_cases hstate : state = .connected
  · exact .inl ⟨hstate, by simp [Client.onTransportStateChanged, hstate],
      by simp [Client.onTransportStateChanged, hstate]⟩
  · refine .inr ?_
    simp only [Client.onTransportStateChanged, ne_eq, hstate, not_false_eq_true, true_and, if_true]
    rcases c.publicationState <;> simp

theorem OwnerInv.callback {c : State} (hc : OwnerInv c) (state : VoiceTransportState) :
    OwnerInv { c with client := c.client.onTransportStateChanged state } := by
  have hgeneration := onTransportStateChanged_generation c.client state
  have hcases := onTransportStateChanged_cases c.client state
  have hpending : pending { c with client := c.client.onTransportStateChanged state }
      = pending c := by
    rcases hcases with ⟨-, hsame, -⟩ | ⟨-, ⟨hactive, hidle⟩ | ⟨hstarting, hstopping⟩ | ⟨-, -, hsame⟩⟩
    · simp [pending, hsame]
    · simp [pending, hactive, hidle]
    · simp [pending, hstarting, hstopping]
    · simp [pending, hsame]
  refine ⟨fun t ht => ?_, hc.unique, fun h => hc.owned (hpending ▸ h), fun hscope => ?_,
    fun t generation hwaits => ?_⟩
  · rw [hpending, hgeneration]
    exact hc.owner t ht
  · rcases hcases with ⟨-, hsame, hkept⟩ | ⟨hnone, -⟩
    · rw [hkept] at hscope
      rw [hsame]
      exact hc.scope hscope
    · simp [hnone] at hscope
  · obtain ⟨hle, hstate⟩ := hc.waits t generation hwaits
    rw [hgeneration]
    refine ⟨hle, fun heq => ?_⟩
    rcases hcases with ⟨-, hsame, -⟩ | ⟨-, ⟨-, hidle⟩ | ⟨-, hstopping⟩ | ⟨-, -, hsame⟩⟩
    · exact hsame ▸ hstate heq
    · exact .inl hidle
    · exact .inr hstopping
    · exact hsame ▸ hstate heq

theorem OwnerInv.step {c c' : State} {a : Action} (hc : OwnerInv c) (h : step c a = some c') :
    OwnerInv c' := by
  cases a with
  | call t op =>
    simp only [MicrophonePublication.step] at h
    split at h
    · rename_i result houtside
      cases h
      have hmove : Move c.client (c.threads t) .silent c.client op.entry :=
        .passes (by rw [houtside]; rfl) (free_entry op)
      exact hc.move hmove
    · cases h
  | resume t answer =>
    simp only [MicrophonePublication.step, Option.map_eq_some_iff] at h
    obtain ⟨⟨client, phase⟩, hresume, rfl⟩ := h
    exact hc.move (resume_move hresume)
  | onTransportStateChanged state =>
    cases h
    exact hc.callback state

/-! ## The owner ends what is pending -/

/-- An owner takes a step nearer to the end, or somebody else moves and it stays where it is. -/
theorem OwnerInv.owner_step {c c' : State} {a : Action} {t : ℕ} (hc : OwnerInv c)
    (ht : (c.threads t).remaining ≠ 0) (h : MicrophonePublication.step c a = some c') :
    a.isOf t = true ∧ (c'.threads t).remaining < (c.threads t).remaining
        ∧ (pending c' = true → (c'.threads t).remaining ≠ 0)
      ∨ a.isOf t = false ∧ c'.threads t = c.threads t := by
  cases a with
  | call t' op =>
    refine .inr ⟨rfl, ?_⟩
    simp only [MicrophonePublication.step] at h
    split at h
    · rename_i result houtside
      cases h
      have hne : t ≠ t' := by
        rintro rfl
        rw [houtside] at ht
        exact ht rfl
      exact Function.update_of_ne hne _ _
    · cases h
  | resume t' answer =>
    have hc' := hc.step h
    simp only [MicrophonePublication.step, Option.map_eq_some_iff] at h
    obtain ⟨⟨client, phase⟩, hresume, rfl⟩ := h
    rcases eq_or_ne t t' with rfl | hne
    · refine .inl ⟨by simp [Action.isOf], ?_, fun hpending => ?_⟩
      · change ((c.moved t client phase).threads t).remaining < _
        rw [moved_threads_self]
        cases resume_move hresume with
        | works _ hlt => exact hlt
        | activates _ _ hphase => rw [hphase.1]; omega
        | finishes _ _ _ hphase => rw [hphase.1]; omega
        | quiet hfree | waits _ hfree | cancels _ hfree | begins _ hfree | takes _ hfree =>
          exact absurd hfree ht
      · obtain ⟨t'', ht''⟩ := hc'.owned hpending
        rcases eq_or_ne t'' t with rfl | hne
        · exact ht''
        · change ((c.moved t client phase).threads t'').remaining ≠ 0 at ht''
          rw [moved_threads_of_ne hne] at ht''
          exact absurd (hc.unique t'' t ht'' ht) hne
    · exact .inr ⟨by simp [Action.isOf, hne.symm], Function.update_of_ne hne _ _⟩
  | onTransportStateChanged state =>
    cases h
    exact .inr ⟨rfl, rfl⟩

/-- An owner is never blocked. -/
theorem owner_enabled (client : Client) {phase : Phase} (h : phase.remaining ≠ 0) :
    ∃ answer, (resume client phase answer).isSome = true := by
  cases phase with
  | pressStart scope generation => exact ⟨.result .success, rfl⟩
  | pressStarted scope generation result =>
    refine ⟨.silent, ?_⟩
    simp only [resume, connectionStep, pressStep, Option.none_or]
    split_ifs <;> rfl
  | pressQuery generation result => exact ⟨.activeScope none, rfl⟩
  | pressStop generation result => exact ⟨.result .success, rfl⟩
  | pressFinish generation result stopResult => exact ⟨.silent, rfl⟩
  | releaseStop caller generation => exact ⟨.result .success, rfl⟩
  | releaseFinish caller generation result => exact ⟨.silent, rfl⟩
  | _ => exact absurd rfl h

/-- What an owner still has to do, together with what it did, stays within what it had to do. -/
theorem OwnerInv.owner_run {c c' : State} {t : ℕ} {as : List Action}
    (h : Runs MicrophonePublication.step (fun c _ => pending c = true) c as c') (hc : OwnerInv c)
    (ht : pending c = true → (c.threads t).remaining ≠ 0) :
    OwnerInv c' ∧ as.countP (Action.isOf t) + (c'.threads t).remaining ≤ (c.threads t).remaining
      ∧ (pending c' = true → (c'.threads t).remaining ≠ 0) := by
  induction h with
  | nil c => exact ⟨hc, by simp, ht⟩
  | @cons c c₁ c' a as hpending hstep hrun ih =>
    have hc₁ := hc.step hstep
    rcases hc.owner_step (ht hpending) hstep with ⟨hown, hlt, hleft⟩ | ⟨hother, hsame⟩
    · obtain ⟨hc', hcount, hlast⟩ := ih hc₁ hleft
      refine ⟨hc', ?_, hlast⟩
      rw [List.countP_cons_of_pos hown]
      omega
    · obtain ⟨hc', hcount, hlast⟩ := ih hc₁ fun _ => hsame ▸ ht hpending
      refine ⟨hc', ?_, hlast⟩
      rw [List.countP_cons_of_neg (by simp [hother]), ← hsame]
      exact hcount

theorem remaining_le (phase : Phase) : phase.remaining ≤ 5 := by
  cases phase <;> simp [Phase.remaining]

theorem OwnerInv.settles {c : State} {t : ℕ} (hc : OwnerInv c)
    (ht : (c.threads t).remaining ≠ 0) : Settles c t := by
  intro as c' hrun
  obtain ⟨hc', hcount, hleft⟩ := hc.owner_run hrun fun _ => ht
  refine ⟨?_, fun hpending => ?_, fun a c'' hpending hstep hended => ?_⟩
  · have := remaining_le (c.threads t)
    omega
  · obtain ⟨answer, hanswer⟩ := owner_enabled c'.client (hleft hpending)
    exact ⟨answer, by simpa [MicrophonePublication.step] using hanswer⟩
  · rcases hc'.owner_step (hleft hpending) hstep with ⟨hown, -⟩ | ⟨-, hsame⟩
    · exact hown
    · have hfree := (hc'.step hstep).free hended t
      rw [hsame] at hfree
      exact absurd hfree (hleft hpending)

/-- A thread that waits for the current generation is waiting for something pending, or can
return. -/
theorem OwnerInv.waiting {c : State} (hc : OwnerInv c) {t : ℕ} {caller : Caller} {generation : ℕ}
    (h : c.threads t = .releaseWait caller generation) :
    (MicrophonePublication.step c (.resume t .silent)).isSome = true ∨ pending c = true := by
  obtain ⟨-, hstate⟩ := hc.waits t generation (by rw [h]; rfl)
  by_cases hover : c.client.publicationGeneration ≠ generation
      ∨ c.client.publicationState = .idle
  · refine .inl ?_
    simp only [MicrophonePublication.step, h, resume, connectionStep, pressStep, releaseStep,
      Option.none_or, if_pos hover]
    rfl
  · rw [not_or, not_not] at hover
    rcases hstate hover.1.symm with hidle | hstopping
    · exact absurd hidle hover.2
    · exact .inr (pending_iff.2 (.inr hstopping))

/-! ## Active publications -/

/-- A step of a thread for another generation makes nothing active. -/
theorem not_active_of_stale {c c' : State} {t generation : ℕ} {answer : Answer}
    (hgeneration : (c.threads t).generation = some generation)
    (hstale : c.client.publicationGeneration ≠ generation)
    (h : step c (.resume t answer) = some c') :
    (c'.client.publicationState = .active → c.client.publicationState = .active)
      ∧ (c'.client.activeScope.isSome = true → c'.client.activeScope = c.client.activeScope) := by
  simp only [step, Option.map_eq_some_iff] at h
  obtain ⟨⟨client, phase⟩, hresume, rfl⟩ := h
  cases resume_move hresume with
  | quiet hfree hphase hsame =>
    refine ⟨fun hactive => hsame.state ▸ hactive, fun hscope => ?_⟩
    rcases hsame.scope with hnone | heq
    · simp [hnone] at hscope
    · exact heq
  | waits | works => exact ⟨id, fun _ => rfl⟩
  | cancels | takes => exact ⟨by simp, fun _ => rfl⟩
  | begins => exact ⟨by simp, by simp⟩
  | activates scope ht hphase hcurrent =>
    rw [hgeneration] at hcurrent
    exact absurd (Option.some.inj hcurrent).symm hstale
  | finishes generation' stopResult ht hphase hfinishes =>
    obtain rfl : generation = generation' := Option.some.inj (hgeneration.symm.trans hfinishes)
    simp only [Client.stopped, if_neg hstale.symm]
    exact ⟨id, fun _ => trivial⟩

/-- An active publication is connected and has a scope. -/
def ActiveConnected (c : State) : Prop :=
  c.client.publicationState = .active →
    c.client.state = .connected ∧ c.client.activeScope.isSome = true

theorem keepsActive_resume {c : State} {t : ℕ} (h : c.client.publicationState = .active) :
    keepsActive c (.resume t .silent) = !(c.threads t).overwrites := by
  rcases hphase : c.threads t <;> simp [keepsActive, hphase, h, Phase.overwrites]

theorem ActiveConnected.step {c c' : State} {a : Action} (hc : ActiveConnected c)
    (hkeeps : keepsActive c a = true) (h : MicrophonePublication.step c a = some c') :
    ActiveConnected c' := by
  cases a with
  | call t op =>
    simp only [MicrophonePublication.step] at h
    split at h <;> cases h
    exact hc
  | resume t answer =>
    simp only [MicrophonePublication.step, Option.map_eq_some_iff] at h
    obtain ⟨⟨client, phase⟩, hresume, rfl⟩ := h
    intro hactive
    have hmove := resume_move hresume
    cases hmove with
    | quiet hfree hphase hsame hconnected =>
      have hactive' : c.client.publicationState = .active := hsame.state ▸ hactive
      obtain ⟨hstate, hscope⟩ := hc hactive'
      rcases hconnected hstate with ⟨hstate', hscope'⟩ | ⟨hoverwrites, rfl⟩
      · exact ⟨hstate', by rw [hscope']; exact hscope⟩
      · rw [keepsActive_resume hactive', hoverwrites] at hkeeps
        cases hkeeps
    | waits | works => exact hc hactive
    | cancels | takes | begins => cases hactive
    | activates scope ht hphase hgeneration hstarting hconnected => exact ⟨hconnected, rfl⟩
    | finishes generation stopResult ht hphase hgeneration =>
      simp only [Client.stopped] at hactive ⊢
      split_ifs at hactive ⊢
      exact hc hactive
  | onTransportStateChanged state =>
    cases h
    intro hactive
    rcases onTransportStateChanged_cases c.client state with
      ⟨rfl, hsame, hscope⟩ | ⟨-, ⟨-, hidle⟩ | ⟨-, hstopping⟩ | ⟨hnot, -, hsame⟩⟩
    · exact ⟨onTransportStateChanged_state c.client .connected,
        hscope ▸ (hc (hsame.symm.trans hactive)).2⟩
    · cases hidle.symm.trans hactive
    · cases hstopping.symm.trans hactive
    · exact absurd (hsame.symm.trans hactive) hnot

/-- The last region of a failed `connect` or of a `disconnect` leaves an active publication without
its connection. -/
theorem not_activeConnected_of_overwrites {c c' : State} {a : Action}
    (hkeeps : keepsActive c a = false) (h : step c a = some c') : ¬ActiveConnected c' := by
  unfold keepsActive at hkeeps
  split at hkeeps
  · rename_i t
    split at hkeeps
    · rename_i result hphase
      simp only [Bool.or_eq_false_iff, decide_eq_false_iff_not, ne_eq, not_not] at hkeeps
      simp only [step, hphase, resume, connectionStep, hkeeps.1, Option.some_or, Option.map_some,
        Option.some.injEq, Bool.false_eq_true, if_false] at h
      subst h
      intro hc'
      cases (hc' hkeeps.2).1
    · rename_i result hphase
      simp only [Bool.or_eq_false_iff, decide_eq_false_iff_not, ne_eq, not_not,
        Bool.not_eq_false'] at hkeeps
      simp only [step, hphase, resume, connectionStep, hkeeps.1, Option.some_or, Option.map_some,
        Option.some.injEq, if_true] at h
      subst h
      intro hc'
      cases (hc' hkeeps.2).1
    · cases hkeeps
  · cases hkeeps

theorem OwnerInv.consistent {c : State} (hc : OwnerInv c) (hactive : ActiveConnected c) :
    Consistent c where
  scope := hc.scope
  active := hactive
  current _ _ _ _ hgeneration hstale h := not_active_of_stale hgeneration hstale h
  settles hpending := by
    obtain ⟨t, ht⟩ := hc.owned hpending
    exact ⟨t, hc.settles ht⟩
  waits _ _ _ h := hc.waiting h

/-- In a run without such a write every state is consistent, and the next step keeps it so exactly
if it is none either. -/
theorem publication_consistent {state : VoiceTransportState} {as : List Action} {c : State}
    (h : Runs step (fun c a => keepsActive c a = true) (initial state) as c) :
    Consistent c ∧ ∀ a c', step c a = some c' → (Consistent c' ↔ keepsActive c a = true) := by
  have hinv : OwnerInv c ∧ ActiveConnected c := by
    refine h.invariant (I := fun c => OwnerInv c ∧ ActiveConnected c)
      (fun c a c' hc hkeeps hstep => ⟨hc.1.step hstep, hc.2.step hkeeps hstep⟩) ?_
    exact ⟨ownerInv_initial state, fun hactive => by cases hactive⟩
  obtain ⟨hc, hactive⟩ := hinv
  refine ⟨hc.consistent hactive, fun a c' hstep => ⟨fun hconsistent => ?_, fun hkeeps => ?_⟩⟩
  · by_contra hnot
    exact not_activeConnected_of_overwrites (Bool.eq_false_iff.2 hnot) hstep hconsistent.active
  · exact (hc.step hstep).consistent (hactive.step hkeeps hstep)

/-- Thread 0 presses, thread 1 releases while the microphone is being started. -/
def cancelledPress : List Action :=
  [.call 0 (.pressPushToTalk .team), .resume 0 .silent, .call 1 .releasePushToTalk,
    .resume 1 .silent, .resume 0 (.result .success), .resume 0 .silent,
    .resume 0 (.result .success)]

theorem publication_consistent_cancelled : ∃ c,
    Runs step (fun c a => keepsActive c a = true) (initial .connected) cancelledPress c
      ∧ pending c = true ∧ Consistent c := by
  obtain ⟨c, hrun, hpending⟩ := exists_run_restrict keepsActive step cancelledPress (p := pending)
    (s := initial .connected) (by decide +kernel)
  exact ⟨c, hrun, hpending, (publication_consistent hrun).1⟩

/-- Thread 0 disconnects; before its last region thread 1 has connected again and pressed. -/
def lateDisconnect : List Action :=
  [.call 0 .disconnect, .resume 0 .silent, .resume 0 .silent,
    .onTransportStateChanged .disconnected, .resume 0 (.result .success),
    .call 1 (.connect [⟨.team, bytes "wss://voice", bytes "token"⟩]), .resume 1 .silent,
    .onTransportStateChanged .connected, .resume 1 (.result .success), .resume 1 .silent,
    .call 1 (.pressPushToTalk .team), .resume 1 .silent, .resume 1 (.result .success),
    .resume 1 .silent, .resume 0 .silent]

/-- The publication stays active without a connection and without a scope. -/
theorem publication_inconsistent : ∃ c,
    Runs step Free (initial .connected) lateDisconnect c
      ∧ c.client.publicationState = .active ∧ c.client.state = .disconnected
      ∧ c.client.activeScope = none ∧ ¬Consistent c := by
  obtain ⟨c, hrun, hend⟩ := exists_run step lateDisconnect (s := initial .connected)
    (p := fun c => c.client.publicationState = .active && c.client.state = .disconnected
      && c.client.activeScope = none) (by decide +kernel)
  simp only [Bool.and_eq_true, decide_eq_true_eq] at hend
  obtain ⟨⟨hactive, hstate⟩, hscope⟩ := hend
  refine ⟨c, hrun, hactive, hstate, hscope, fun hc => ?_⟩
  have hconnected := (hc.active hactive).1
  rw [hstate] at hconnected
  cases hconnected

end VoxTree.MicrophonePublication

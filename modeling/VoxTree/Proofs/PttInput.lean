import VoxTree.PttInput

/-!
# No action stays active after its controls are released

The last change issued for an action says whether it is pressed, and the receiver's active action
is one of which it has last heard a press. The two agree as soon as nothing is waiting, in every
run that hands on the changes of an action in the order they were computed.
-/

namespace VoxTree

open Machine Deferred PushToTalkBindingEngine

/-! ## The engine -/

theorem setPressed_pressedActions (e : PushToTalkBindingEngine) (next : PushToTalkAction → Bool) :
    (e.setPressed next).1.pressedActions = next := rfl

/-- The change an engine lists for an action, if there is one. -/
theorem lastOf_setPressed (e : PushToTalkBindingEngine) (next : PushToTalkAction → Bool)
    (a : PushToTalkAction) :
    lastOf ActionChange.action a (e.setPressed next).2
      = if next a ≠ e.pressedActions a then some ⟨a, next a⟩ else none := by
  unfold setPressed actions lastOf
  by_cases hteam : next .team = e.pressedActions .team <;>
    by_cases hspecialization : next .specialization = e.pressedActions .specialization <;>
    by_cases hgroup : next .group = e.pressedActions .group <;>
    cases a <;> simp [hteam, hspecialization, hgroup]

/-- The last change issued for an action says whether it is pressed. -/
def Reported (e : PushToTalkBindingEngine) (issued : List ActionChange) : Prop :=
  ∀ a, (e.pressedActions a = true ↔ lastOf ActionChange.action a issued = some ⟨a, true⟩)

theorem Reported.setPressed {e₀ e : PushToTalkBindingEngine} {issued : List ActionChange}
    (h : Reported e₀ issued) (he : e.pressedActions = e₀.pressedActions)
    (next : PushToTalkAction → Bool) :
    Reported (e.setPressed next).1 (issued ++ (e.setPressed next).2) := by
  intro a
  rw [setPressed_pressedActions, lastOf_append, lastOf_setPressed]
  by_cases hchange : next a = e.pressedActions a
  · simp only [hchange, ne_eq, not_true_eq_false, if_false, Option.none_or]
    rw [he]
    exact h a
  · simp only [ne_eq, hchange, not_false_eq_true, if_true, Option.some_or, Option.some.injEq,
      ActionChange.mk.injEq, true_and]

/-- Every locked section keeps its report. -/
theorem Reported.call {e : PushToTalkBindingEngine} {issued : List ActionChange}
    (h : Reported e issued) (op : PttOp) : Reported (op.call e).1 (issued ++ (op.call e).2) := by
  have hnothing : ∀ e', e'.pressedActions = e.pressedActions → Reported e' (issued ++ []) := by
    intro e' he a
    rw [List.append_nil, he]
    exact h a
  cases op with
  | setBindings bindings =>
    show Reported (e.setBindings bindings).1 (issued ++ (e.setBindings bindings).2)
    unfold setBindings
    split
    · exact h.setPressed rfl _
    · exact hnothing e rfl
  | releaseAll => exact h.setPressed rfl _
  | onInputDeviceConnected profile =>
    refine hnothing (e.onInputDeviceConnected profile) ?_
    unfold onInputDeviceConnected
    split <;> rfl
  | onInputEvent event =>
    show Reported (e.onInputEvent event).1 (issued ++ (e.onInputEvent event).2)
    unfold onInputEvent
    split
    · exact hnothing e rfl
    · dsimp only
      split_ifs
      · exact h.setPressed rfl _
      · exact h.setPressed rfl _
      · exact hnothing e rfl
  | onInputDeviceRemoved deviceId =>
    show Reported (e.onInputDeviceRemoved deviceId).1 (issued ++ (e.onInputDeviceRemoved deviceId).2)
    unfold onInputDeviceRemoved
    split
    · exact hnothing e rfl
    · exact h.setPressed rfl _

/-! ## The receiver -/

/-- Of the active action a press was heard last. -/
def Heard (activeAction : Option PushToTalkAction) (delivered : List ActionChange) : Prop :=
  ∀ a, activeAction = some a → lastOf ActionChange.action a delivered = some ⟨a, true⟩

theorem Heard.receive {activeAction : Option PushToTalkAction} {delivered : List ActionChange}
    (h : Heard activeAction delivered) (change : ActionChange) (answer : VoiceSessionResult) :
    Heard (AuthorizedPushToTalkInput.onPushToTalkActionChanged activeAction change answer).1
      (delivered ++ [change]) := by
  obtain ⟨action, pressed⟩ := change
  intro a ha
  rw [lastOf_append, lastOf_singleton]
  unfold AuthorizedPushToTalkInput.onPushToTalkActionChanged at ha
  dsimp only at ha ⊢
  cases pressed with
  | true =>
    rw [if_pos rfl] at ha
    by_cases haction : action = a
    · rw [if_pos haction, haction, Option.some_or]
    · rw [if_neg haction, Option.none_or]
      split at ha
      · exact h a ha
      · dsimp only at ha
        split_ifs at ha
        exact absurd (Option.some.inj ha) haction
  | false =>
    rw [if_neg (by simp)] at ha
    split_ifs at ha with hactive
    -- another action is active, and the release is not about it
    have haction : action ≠ a := by
      rintro rfl
      exact hactive ha
    rw [if_neg haction, Option.none_or]
    exact h a ha

/-! ## Runs -/

/-- When nothing is waiting to be handed on, the active action is pressed. -/
theorem active_action_pressed {as : List PttStep} {c : PttConfig}
    (h : Runs (step pttInput) (InOrder pttInput ActionChange.action) (start {} none) as c)
    (hidle : ∀ t, c.pending t = []) (a : PushToTalkAction) (ha : c.receiver = some a) :
    c.state.actionPressed a = true := by
  have hissued : Reported c.state c.issued := by
    refine issued_invariant (J := Reported) (fun a => ?_) (fun e l op he => ?_) h
    · simp
    · have := he.call op
      rwa [pttInput, List.append_nil]
  have hheard : Heard c.receiver c.delivered :=
    delivered_invariant (K := Heard) (fun a ha => by cases ha)
      (fun q l m e hq => hq.receive m e) h
  have hsettled : Settled ActionChange.action c a := by
    intro t p hp
    rw [hidle t] at hp
    cases hp
  refine (hissued a).mpr ?_
  rw [← last_delivered h hsettled]
  exact hheard a ha

section Runs

def keyV : InputControl := ⟨.keyboard, 0, 47, false, bytes "keyboard"⟩

/-- `V` on any keyboard talks to the team. -/
def teamOnV : List InputBinding := [⟨.team, [{ keyV with deviceId := [] }]⟩]

/-- One thread presses `V` while another releases everything. -/
def pressWhileReleased (order : List PttStep) : List PttStep :=
  [.call 0 (.setBindings teamOnV) fun _ => .success,
    .call 0 (.onInputEvent ⟨keyV, true, false⟩) fun _ => .success] ++ order

/-- The press is handed on while its key is held. -/
theorem active_action_pressed_team : ∃ c : PttConfig,
    Runs (step pttInput) (InOrder pttInput ActionChange.action) (start {} none)
      (pressWhileReleased [.deliver 0 .success]) c
      ∧ c.receiver = some .team ∧ c.state.actionPressed .team = true := by
  obtain ⟨c, hrun, hc⟩ := exists_guarded_run (C := pttInput) (n := 1) (s := {}) (r := none)
    (g := inOrderOn pttInput ActionChange.action 1) (pressWhileReleased [.deliver 0 .success])
    (p := fun c => idleOn 1 c && decide (c.receiver = some .team))
    (fun _ _ => inOrder_of_inOrderOn) (by decide) (by decide +kernel)
  rw [Bool.and_eq_true, decide_eq_true_eq] at hc
  have hidle := idle_of_idleOn (onThreads_of_runs hrun (by decide) fun _ _ => rfl) hc.1
  exact ⟨c, hrun, hc.2, active_action_pressed hrun hidle .team hc.2⟩

/-- The release overtakes the press it follows: nothing is waiting, no control is held, and the
microphone is on for the team. -/
theorem active_action_stuck : ∃ c : PttConfig,
    Runs (step pttInput) Free (start {} none)
      (pressWhileReleased [.call 1 .releaseAll fun _ => .success, .deliver 1 .success,
        .deliver 0 .success]) c
      ∧ (∀ t, c.pending t = []) ∧ c.receiver = some .team
      ∧ c.state.actionPressed .team = false := by
  obtain ⟨c, hrun, hidle, hc⟩ := exists_idle_run (C := pttInput) (n := 2) (s := {}) (r := none)
    (pressWhileReleased [.call 1 .releaseAll fun _ => .success, .deliver 1 .success,
      .deliver 0 .success])
    (p := fun c => decide (c.receiver = some .team ∧ c.state.actionPressed .team = false))
    (by decide) (by decide +kernel)
  exact ⟨c, hrun, hidle, of_decide_eq_true hc⟩

end Runs

end VoxTree

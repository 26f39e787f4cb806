import VoxTree.Lib.History
import VoxTree.Proofs.PttConflicts

/-!
# What the engine holds and what it tells

The held controls, the pressed actions and what the observer has been told are told by the history
of calls: a control is held since its last press (`mem_pressedControls_run`), an action is pressed
while one of its bindings is held, and what the observer is told of an action alternates and ends in
what the action is.
-/

namespace VoxTree

open History PushToTalkBindingEngine

namespace PttOp

/-- The engine after the calls, and what it has told its observer. -/
def run (ops : List PttOp) : PushToTalkBindingEngine × List ActionChange :=
  ops.foldl (fun s op => ((op.call s.1).1, s.2 ++ (op.call s.1).2)) ({}, [])

theorem run_append_singleton (ops : List PttOp) (op : PttOp) :
    run (ops ++ [op]) = ((op.call (run ops).1).1, (run ops).2 ++ (op.call (run ops).1).2) := by
  unfold run
  rw [List.foldl_append]
  rfl

def accept (current : List InputBinding) : PttOp → List InputBinding
  | .setBindings bindings => if validateBindings bindings = [] then bindings else current
  | _ => current

/-- The last binding set that was accepted. -/
def acceptedBindings (ops : List PttOp) : List InputBinding := ops.foldl accept []

/-- Presses of the control. -/
def Presses (control : InputControl) : PttOp → Prop
  | .onInputEvent event => event.control = control ∧ event.pressed = true
  | _ => False

/-- Releases of the control, removals of its device, accepted binding sets and `releaseAll`. -/
def Releases (control : InputControl) : PttOp → Prop
  | .setBindings bindings => validateBindings bindings = []
  | .releaseAll => True
  | .onInputDeviceConnected _ => False
  | .onInputEvent event => event.control = control ∧ event.pressed = false
  | .onInputDeviceRemoved deviceId => deviceId = control.deviceId

end PttOp

/-- A control as the engine holds it: a valid one, on a device of its own. -/
def Holdable (control : InputControl) : Prop :=
  validControl control = true ∧ control.deviceId ≠ []

namespace PushToTalkBindingEngine

/-! ## What every call keeps -/

/-- The pressed actions are those with a binding that is held. -/
structure Consistent (e : PushToTalkBindingEngine) : Prop where
  unique : e.pressedControls.Nodup
  holdable : ∀ control ∈ e.pressedControls, Holdable control
  chords : ∀ b ∈ e.bindings, b.chord ≠ []
  pressed : e.pressedActions = e.nextPressed

variable {e : PushToTalkBindingEngine}

theorem consistent_initial : Consistent {} := ⟨List.nodup_nil, by simp, by simp, rfl⟩

theorem Consistent.recalculate (hunique : e.pressedControls.Nodup)
    (hholdable : ∀ control ∈ e.pressedControls, Holdable control)
    (hchords : ∀ b ∈ e.bindings, b.chord ≠ []) : e.recalculateLocked.1.Consistent :=
  ⟨hunique, hholdable, hchords, rfl⟩

/-- Nothing is pressed where nothing is held. -/
theorem nextPressed_eq_false (hchords : ∀ b ∈ e.bindings, b.chord ≠ [])
    (hheld : e.pressedControls = []) : e.nextPressed = fun _ => false := by
  funext action
  unfold nextPressed
  rw [List.any_eq_false]
  intro b hb h
  obtain ⟨control, hcontrol⟩ := List.exists_mem_of_ne_nil _ (hchords b hb)
  simp only [bindingPressed, hheld, List.any_nil, Bool.and_eq_true, List.all_eq_true] at h
  exact absurd (h.2 control hcontrol) (by simp)

theorem Consistent.call (h : e.Consistent) (op : PttOp) : (op.call e).1.Consistent := by
  cases op with
  | setBindings bindings =>
    show (e.setBindings bindings).1.Consistent
    unfold setBindings
    split
    · rename_i haccepted
      have hchords : ∀ b ∈ bindings, b.chord ≠ [] := fun b => chord_ne_nil_of_accepted haccepted
      exact ⟨List.nodup_nil, by simp [setPressed], hchords,
        (nextPressed_eq_false hchords rfl).symm⟩
    · exact h
  | releaseAll => exact .recalculate List.nodup_nil (by simp) h.chords
  | onInputDeviceConnected profile =>
    show (e.onInputDeviceConnected profile).Consistent
    unfold onInputDeviceConnected
    split
    · exact h
    · exact ⟨h.unique, h.holdable, h.chords, h.pressed⟩
  | onInputEvent event =>
    show (e.onInputEvent event).1.Consistent
    unfold onInputEvent
    split
    · exact h
    rename_i hvalid
    have hholdable : Holdable event.control := by simpa [Holdable] using hvalid
    dsimp only
    split_ifs with hpress hrelease
    · have hnew : event.control ∉ e.pressedControls := by simpa using (Bool.and_eq_true_iff.1 hpress).2
      refine .recalculate ?_ ?_ h.chords
      · exact List.nodup_append.2 ⟨h.unique, List.nodup_singleton _, fun a ha b hb hab =>
          hnew (List.mem_singleton.1 hb ▸ hab ▸ ha)⟩
      · intro control hcontrol
        rcases List.mem_append.1 hcontrol with hcontrol | hcontrol
        · exact h.holdable control hcontrol
        · exact List.mem_singleton.1 hcontrol ▸ hholdable
    · exact .recalculate (h.unique.erase _)
        (fun control hcontrol => h.holdable control (List.mem_of_mem_erase hcontrol)) h.chords
    · exact h
  | onInputDeviceRemoved deviceId =>
    show (e.onInputDeviceRemoved deviceId).1.Consistent
    unfold onInputDeviceRemoved
    split
    · exact h
    · exact .recalculate (h.unique.filter _)
        (fun control hcontrol => h.holdable control (List.mem_filter.1 hcontrol).1) h.chords

/-- What an event does to a control. -/
theorem Consistent.mem_onInputEvent (h : e.Consistent) (event : InputEvent)
    {control : InputControl} :
    control ∈ (e.onInputEvent event).1.pressedControls
      ↔ (Holdable control ∧ (PttOp.onInputEvent event).Presses control)
        ∨ (control ∈ e.pressedControls ∧ ¬(PttOp.onInputEvent event).Releases control) := by
  unfold onInputEvent
  simp only [PttOp.Presses, PttOp.Releases]
  by_cases hholdable : Holdable event.control
  swap
  · have hrefused : (!validControl event.control || event.control.deviceId = []) = true := by
      simpa [Holdable, ← Bool.not_eq_true, imp_iff_not_or] using hholdable
    rw [if_pos hrefused]
    constructor
    · refine fun hmem => .inr ⟨hmem, ?_⟩
      rintro ⟨rfl, -⟩
      exact hholdable (h.holdable _ hmem)
    · rintro (⟨hcontrol, rfl, -⟩ | ⟨hmem, -⟩)
      · exact absurd hcontrol hholdable
      · exact hmem
  have htaken : ¬(!validControl event.control || event.control.deviceId = []) = true := by
    simp [hholdable.1, hholdable.2]
  rw [if_neg htaken]
  rcases hpressed : event.pressed with _ | _ <;>
    by_cases hheld : event.control ∈ e.pressedControls
  · -- a release
    simp only [hheld, List.contains_eq_mem, decide_true, Bool.false_and, Bool.not_false,
      Bool.and_self, if_true, Bool.false_eq_true, if_false, recalculateLocked, setPressed,
      h.unique.mem_erase_iff]
    constructor
    · rintro ⟨hne, hmem⟩
      exact .inr ⟨hmem, fun heq => hne heq.1.symm⟩
    · rintro (⟨-, -, hfalse⟩ | ⟨hmem, hne⟩)
      · cases hfalse
      · exact ⟨fun heq => hne ⟨heq.symm, trivial⟩, hmem⟩
  · -- a release of what is not held
    simp only [hheld, List.contains_eq_mem, decide_false, Bool.false_and, Bool.not_false,
      Bool.and_false, Bool.false_eq_true, if_false]
    constructor
    · refine fun hmem => .inr ⟨hmem, ?_⟩
      rintro ⟨rfl, -⟩
      exact hheld hmem
    · rintro (⟨-, -, hfalse⟩ | ⟨hmem, -⟩)
      · cases hfalse
      · exact hmem
  · -- a press of what is held
    simp only [hheld, List.contains_eq_mem, decide_true, Bool.not_true, Bool.and_false,
      Bool.false_and, Bool.false_eq_true, if_false]
    constructor
    · exact fun hmem => .inr ⟨hmem, by simp⟩
    · rintro (⟨-, rfl, -⟩ | ⟨hmem, -⟩)
      · exact hheld
      · exact hmem
  · -- a press
    simp only [hheld, List.contains_eq_mem, decide_false, Bool.not_false, Bool.and_self, if_true,
      recalculateLocked, setPressed, List.mem_append, List.mem_singleton]
    constructor
    · rintro (hmem | rfl)
      · exact .inr ⟨hmem, by simp⟩
      · exact .inl ⟨hholdable, rfl, trivial⟩
    · rintro (⟨-, rfl, -⟩ | ⟨hmem, -⟩)
      · exact .inr rfl
      · exact .inl hmem

/-- What a call does to a control. -/
theorem Consistent.mem_pressedControls_call (h : e.Consistent) (op : PttOp)
    {control : InputControl} :
    control ∈ (op.call e).1.pressedControls
      ↔ (Holdable control ∧ op.Presses control)
        ∨ (control ∈ e.pressedControls ∧ ¬op.Releases control) := by
  cases op with
  | setBindings bindings =>
    show control ∈ (e.setBindings bindings).1.pressedControls ↔ _
    unfold setBindings
    split <;> simp [PttOp.Presses, PttOp.Releases, setPressed, *]
  | releaseAll => simp [PttOp.call, releaseAll, recalculateLocked, setPressed, PttOp.Presses,
      PttOp.Releases]
  | onInputDeviceConnected profile =>
    show control ∈ (e.onInputDeviceConnected profile).pressedControls ↔ _
    unfold onInputDeviceConnected
    split <;> simp [PttOp.Presses, PttOp.Releases]
  | onInputEvent event => exact h.mem_onInputEvent event
  | onInputDeviceRemoved deviceId =>
    show control ∈ (e.onInputDeviceRemoved deviceId).1.pressedControls ↔ _
    unfold onInputDeviceRemoved
    simp only [PttOp.Presses, PttOp.Releases, and_false, false_or]
    split
    · rename_i hempty
      refine ⟨fun hmem => ⟨hmem, fun heq => (h.holdable _ hmem).2 ?_⟩, And.left⟩
      rw [← heq, hempty]
    · simp only [recalculateLocked, setPressed, List.mem_filter, ne_eq, decide_not,
        Bool.not_eq_true', decide_eq_false_iff_not, eq_comm (a := deviceId)]

theorem bindings_call (e : PushToTalkBindingEngine) (op : PttOp) :
    (op.call e).1.bindings = op.accept e.bindings := by
  cases op with
  | setBindings bindings =>
    show (e.setBindings bindings).1.bindings = _
    unfold setBindings
    split
    · exact (if_pos ‹_›).symm
    · exact (if_neg ‹_›).symm
  | releaseAll => rfl
  | onInputDeviceConnected profile =>
    show (e.onInputDeviceConnected profile).bindings = _
    unfold onInputDeviceConnected
    split <;> rfl
  | onInputEvent event =>
    show (e.onInputEvent event).1.bindings = _
    unfold onInputEvent
    split
    · rfl
    · dsimp only
      split_ifs <;> rfl
  | onInputDeviceRemoved deviceId =>
    show (e.onInputDeviceRemoved deviceId).1.bindings = _
    unfold onInputDeviceRemoved
    split <;> rfl

/-! ## What the observer is told -/

/-- A call lists the actions that change. -/
theorem changes_call (e : PushToTalkBindingEngine) (op : PttOp) :
    (op.call e).2 = (e.setPressed (op.call e).1.pressedActions).2 := by
  have hnothing : ([] : List ActionChange) = (e.setPressed e.pressedActions).2 := by
    simp [setPressed]
  cases op with
  | setBindings bindings =>
    show (e.setBindings bindings).2 = (e.setPressed (e.setBindings bindings).1.pressedActions).2
    unfold setBindings
    split
    · rfl
    · exact hnothing
  | releaseAll => rfl
  | onInputDeviceConnected profile =>
    show [] = (e.setPressed (e.onInputDeviceConnected profile).pressedActions).2
    unfold onInputDeviceConnected
    split <;> exact hnothing
  | onInputEvent event =>
    show (e.onInputEvent event).2 = (e.setPressed (e.onInputEvent event).1.pressedActions).2
    unfold onInputEvent
    split
    · exact hnothing
    · dsimp only
      split_ifs
      · rfl
      · rfl
      · exact hnothing
  | onInputDeviceRemoved deviceId =>
    show (e.onInputDeviceRemoved deviceId).2
      = (e.setPressed (e.onInputDeviceRemoved deviceId).1.pressedActions).2
    unfold onInputDeviceRemoved
    split
    · exact hnothing
    · rfl

end PushToTalkBindingEngine

/-- What the observer was told of an action. -/
def told (action : PushToTalkAction) (changes : List ActionChange) : List Bool :=
  (changes.filter fun change => change.action = action).map ActionChange.pressed

theorem told_append (action : PushToTalkAction) (changes changes' : List ActionChange) :
    told action (changes ++ changes') = told action changes ++ told action changes' := by
  simp [told]

theorem told_setPressed (e : PushToTalkBindingEngine) (next : PushToTalkAction → Bool)
    (a : PushToTalkAction) :
    told a (e.setPressed next).2 = edge (e.pressedActions a) (next a) := by
  unfold setPressed actions told edge
  by_cases hteam : next .team = e.pressedActions .team <;>
    by_cases hspecialization : next .specialization = e.pressedActions .specialization <;>
    by_cases hgroup : next .group = e.pressedActions .group <;>
    cases a <;> simp [hteam, hspecialization, hgroup, eq_comm]

/-! ## Runs -/

theorem consistent_run (ops : List PttOp) : (PttOp.run ops).1.Consistent := by
  induction ops using List.reverseRecOn with
  | nil => exact consistent_initial
  | append_singleton ops op ih =>
    rw [PttOp.run_append_singleton]
    exact ih.call op

theorem bindings_run (ops : List PttOp) :
    (PttOp.run ops).1.bindings = PttOp.acceptedBindings ops := by
  induction ops using List.reverseRecOn with
  | nil => rfl
  | append_singleton ops op ih =>
    rw [PttOp.run_append_singleton, PttOp.acceptedBindings, List.foldl_append]
    exact (bindings_call _ op).trans (congrArg (PttOp.accept · op) ih)

/-- A control is held since its last press. -/
theorem mem_pressedControls_run (ops : List PttOp) {control : InputControl} :
    control ∈ (PttOp.run ops).1.pressedControls
      ↔ Holdable control ∧ Since (PttOp.Presses control) (PttOp.Releases control) ops := by
  induction ops using List.reverseRecOn with
  | nil => simp [PttOp.run]
  | append_singleton ops op ih =>
    rw [PttOp.run_append_singleton, (consistent_run ops).mem_pressedControls_call, ih,
      since_append_singleton]
    tauto

/-- What the observer was told of an action alternates, and the action is as he was told last. -/
theorem told_run (ops : List PttOp) (a : PushToTalkAction) :
    Tells (told a (PttOp.run ops).2) ((PttOp.run ops).1.actionPressed a) := by
  induction ops using List.reverseRecOn with
  | nil => exact tells_nil
  | append_singleton ops op ih =>
    rw [PttOp.run_append_singleton, told_append, changes_call, told_setPressed]
    exact ih.append_edge _

/-- The held controls are those whose last press has no release, removal, accepted binding set or
`releaseAll` behind it; an action is pressed while one of its bindings is held; and the observer is
told presses and releases in turn, the last of which is what the action is. -/
theorem ptt_history (ops : List PttOp) :
    (∀ control, control ∈ (PttOp.run ops).1.pressedControls
      ↔ Holdable control ∧ Since (PttOp.Presses control) (PttOp.Releases control) ops)
    ∧ (PttOp.run ops).1.bindings = PttOp.acceptedBindings ops
    ∧ (∀ a, (PttOp.run ops).1.actionPressed a = true
      ↔ ∃ b ∈ PttOp.acceptedBindings ops, b.action = a ∧ ∀ expected ∈ b.chord,
        ∃ held ∈ (PttOp.run ops).1.pressedControls, heldControlMatches expected held = true)
    ∧ ∀ a, Alternates false (told a (PttOp.run ops).2)
      ∧ (told a (PttOp.run ops).2).getLastD false = (PttOp.run ops).1.actionPressed a := by
  refine ⟨fun control => mem_pressedControls_run ops, bindings_run ops, fun a => ?_,
    fun a => ⟨(told_run ops a).alternates, (told_run ops a).last⟩⟩
  unfold actionPressed
  rw [(consistent_run ops).pressed, ← bindings_run ops]
  simp [nextPressed, bindingPressed]

end VoxTree

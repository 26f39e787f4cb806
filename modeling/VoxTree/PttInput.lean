import VoxTree.ClientTypes
import VoxTree.Lib.Deferred

/-!
# Push-to-talk input

`PushToTalkBindingEngine` turns control events into changes of actions: it computes them under its
mutex and hands them on after releasing it. `AuthorizedPushToTalkInput` receives them one at a time
and presses or releases its target; what the target answers comes with the delivery.
-/

namespace VoxTree

/-- `PushToTalkAction`, in the order of its numbers. -/
inductive PushToTalkAction
  | team | specialization | group
  deriving DecidableEq

inductive InputDeviceKind
  | keyboard | mouse | gameController
  deriving DecidableEq

structure InputControl where
  deviceKind : InputDeviceKind := .keyboard
  usagePage : UInt16 := 0
  code : UInt16 := 0
  extended : Bool := false
  deviceId : Bytes := []
  deriving DecidableEq

structure HidButtonDescriptor where
  usagePage : UInt16 := 0
  usage : UInt16 := 0
  deriving DecidableEq

structure InputDeviceProfile where
  deviceId : Bytes
  displayName : Bytes
  deviceKind : InputDeviceKind := .keyboard
  vendorId : UInt16 := 0
  productId : UInt16 := 0
  usagePage : UInt16 := 0
  usage : UInt16 := 0
  buttons : List HidButtonDescriptor := []
  deriving DecidableEq

structure InputBinding where
  action : PushToTalkAction := .team
  chord : List InputControl
  deriving DecidableEq

structure InputEvent where
  control : InputControl
  pressed : Bool := false
  receivedInBackground : Bool := false
  deriving DecidableEq

inductive InputBindingErrorCode
  | emptyChord | invalidControl | duplicateControl | duplicateBinding | conflictingBinding
  deriving DecidableEq

structure InputBindingError where
  code : InputBindingErrorCode
  bindingIndex : ℕ
  message : Bytes
  deriving DecidableEq

/-- The change of one action, as the observer is told. -/
structure ActionChange where
  action : PushToTalkAction
  pressed : Bool
  deriving DecidableEq

/-! ## Chords -/

/-- `controlLess`: the tuple of kind, usage page, code, extension and device. -/
def controlLess (left right : InputControl) : Bool :=
  (compare left.deviceKind.ctorIdx right.deviceKind.ctorIdx).then
    ((compare left.usagePage right.usagePage).then
      ((compare left.code right.code).then
        ((compare left.extended right.extended).then
          (compare left.deviceId right.deviceId)))) = .lt

def normalizedChord (binding : InputBinding) : List InputControl :=
  binding.chord.mergeSort fun left right => !controlLess right left

def controlsOverlap (left right : InputControl) : Bool :=
  left.deviceKind = right.deviceKind && left.usagePage = right.usagePage
    && left.code = right.code && left.extended = right.extended
    && (left.deviceId = [] || right.deviceId = [] || left.deviceId = right.deviceId)

def chordsOverlap (left right : List InputControl) : Bool :=
  left.length = right.length && (left.zip right).all fun p => controlsOverlap p.1 p.2

/-- The value of `MouseButton::button_5`. -/
def button5 : UInt16 := 5

def validControl (control : InputControl) : Bool :=
  control.code ≠ 0 &&
    match control.deviceKind with
    | .keyboard => control.usagePage = 0
    | .mouse => control.code ≤ button5 && control.usagePage = 0 && !control.extended
    | .gameController => control.usagePage ≠ 0 && !control.extended

def heldControlMatches (expected held : InputControl) : Bool :=
  expected.deviceKind = held.deviceKind && expected.usagePage = held.usagePage
    && expected.code = held.code && expected.extended = held.extended
    && (expected.deviceId = [] || expected.deviceId = held.deviceId)

def bindingPressed (binding : InputBinding) (pressedControls : List InputControl) : Bool :=
  binding.chord.all fun expected => pressedControls.any fun held => heldControlMatches expected held

/-! ## The validation of a binding set -/

/-- `std::ranges::adjacent_find` finds a pair. -/
def hasAdjacent : List InputControl → Bool
  | a :: b :: rest => a = b || hasAdjacent (b :: rest)
  | _ => false

def chordError (index : ℕ) (chord : List InputControl) : Option InputBindingError :=
  if chord = [] then
    some ⟨.emptyChord, index, bytes "an input chord cannot be empty"⟩
  else if chord.any fun control => !validControl control then
    some ⟨.invalidControl, index, bytes "an input chord contains an invalid control"⟩
  else if hasAdjacent chord then
    some ⟨.duplicateControl, index,
      bytes "an input chord contains the same control more than once"⟩
  else none

/-- The inner loop of `validateBindings`: the first earlier binding that clashes is reported. -/
def clashError (index : ℕ) (binding : InputBinding) (chord : List InputControl)
    (previous : List (InputBinding × List InputControl)) : Option InputBindingError :=
  (previous.find? fun p => chord = p.2
      || (binding.action ≠ p.1.action && chordsOverlap chord p.2)).map fun p =>
    if binding.action = p.1.action then
      ⟨.duplicateBinding, index, bytes "the input binding is duplicated"⟩
    else ⟨.conflictingBinding, index, bytes "the input binding is assigned to multiple actions"⟩

/-- The outer loop, with the bindings seen so far and their normalized chords. -/
def validateFrom (index : ℕ) (previous : List (InputBinding × List InputControl)) :
    List InputBinding → List InputBindingError
  | [] => []
  | binding :: rest =>
    let chord := normalizedChord binding
    (chordError index chord).toList ++ (clashError index binding chord previous).toList
      ++ validateFrom (index + 1) (previous ++ [(binding, chord)]) rest

def validateBindings (bindings : List InputBinding) : List InputBindingError :=
  validateFrom 0 [] bindings

/-! ## The engine -/

/-- The fields the engine's mutex guards; `pressedActions` is indexed by the action's number. -/
structure PushToTalkBindingEngine where
  bindings : List InputBinding := []
  devices : List InputDeviceProfile := []
  pressedControls : List InputControl := []
  pressedActions : PushToTalkAction → Bool := fun _ => false

namespace PushToTalkBindingEngine

variable (e : PushToTalkBindingEngine)

/-- The actions in the order of their numbers. -/
def actions : List PushToTalkAction := [.team, .specialization, .group]

def actionPressed (action : PushToTalkAction) : Bool := e.pressedActions action

/-- Whether one of the action's bindings is held. -/
def nextPressed (action : PushToTalkAction) : Bool :=
  e.bindings.any fun binding => binding.action = action && bindingPressed binding e.pressedControls

/-- Replace the pressed actions and list what changed. -/
def setPressed (next : PushToTalkAction → Bool) : PushToTalkBindingEngine × List ActionChange :=
  ({ e with pressedActions := next },
    (actions.filter fun action => next action ≠ e.pressedActions action).map fun action =>
      ⟨action, next action⟩)

def recalculateLocked : PushToTalkBindingEngine × List ActionChange :=
  e.setPressed e.nextPressed

/-- A rejected binding set changes nothing; its errors are `validateBindings bindings`. -/
def setBindings (bindings : List InputBinding) : PushToTalkBindingEngine × List ActionChange :=
  if validateBindings bindings = [] then
    { e with bindings, pressedControls := [] }.setPressed fun _ => false
  else (e, [])

def releaseAll : PushToTalkBindingEngine × List ActionChange :=
  { e with pressedControls := [] }.recalculateLocked

/-- Replace the first profile of the same device, or append. -/
def storeProfile (profile : InputDeviceProfile) : List InputDeviceProfile → List InputDeviceProfile
  | [] => [profile]
  | existing :: rest =>
    if existing.deviceId = profile.deviceId then profile :: rest
    else existing :: storeProfile profile rest

def onInputDeviceConnected (profile : InputDeviceProfile) : PushToTalkBindingEngine :=
  if profile.deviceId = [] then e else { e with devices := storeProfile profile e.devices }

def onInputEvent (event : InputEvent) : PushToTalkBindingEngine × List ActionChange :=
  if !validControl event.control || event.control.deviceId = [] then (e, [])
  else
    let held := e.pressedControls.contains event.control
    if event.pressed && !held then
      { e with pressedControls := e.pressedControls ++ [event.control] }.recalculateLocked
    else if !event.pressed && held then
      { e with pressedControls := e.pressedControls.erase event.control }.recalculateLocked
    else (e, [])

def onInputDeviceRemoved (deviceId : Bytes) : PushToTalkBindingEngine × List ActionChange :=
  if deviceId = [] then (e, [])
  else
    { e with
      pressedControls := e.pressedControls.filter fun control => control.deviceId ≠ deviceId
      devices := e.devices.filter fun profile => profile.deviceId ≠ deviceId }.recalculateLocked

end PushToTalkBindingEngine

inductive PttOp
  | setBindings (bindings : List InputBinding)
  | releaseAll
  | onInputDeviceConnected (profile : InputDeviceProfile)
  | onInputEvent (event : InputEvent)
  | onInputDeviceRemoved (deviceId : Bytes)

/-- The locked section of an operation, and the changes it then hands to `notify`. -/
def PttOp.call (e : PushToTalkBindingEngine) : PttOp → PushToTalkBindingEngine × List ActionChange
  | .setBindings bindings => e.setBindings bindings
  | .releaseAll => e.releaseAll
  | .onInputDeviceConnected profile => (e.onInputDeviceConnected profile, [])
  | .onInputEvent event => e.onInputEvent event
  | .onInputDeviceRemoved deviceId => e.onInputDeviceRemoved deviceId

/-! ## The receiver -/

namespace AuthorizedPushToTalkInput

/-- `onPushToTalkActionChanged`: the active action after it, and the result its own observer is
told. `answer` is what the target returns if it is asked. -/
def onPushToTalkActionChanged (activeAction : Option PushToTalkAction) (change : ActionChange)
    (answer : VoiceSessionResult) :
    Option PushToTalkAction × Option (ActionChange × VoiceSessionResult) :=
  if change.pressed then
    match activeAction with
    | some active =>
      (some active, some (change, clientStateFailure (bytes "ptt_input_already_active")
        (bytes "another push-to-talk input action is already active")))
    | none => (if answer.successful then some change.action else none, some (change, answer))
  else if activeAction = some change.action then (none, some (change, answer))
  else (activeAction, none)

end AuthorizedPushToTalkInput

/-- The engine with the receiver as its observer. -/
def pttInput : Deferred.Component PushToTalkBindingEngine PttOp ActionChange
    (Option PushToTalkAction) VoiceSessionResult where
  call e op := ((op.call e).1, [], (op.call e).2)
  receive activeAction change answer :=
    (AuthorizedPushToTalkInput.onPushToTalkActionChanged activeAction change answer).1

abbrev PttConfig := Deferred.Config PushToTalkBindingEngine ActionChange (Option PushToTalkAction)

abbrev PttStep := Deferred.Action PttOp ActionChange VoiceSessionResult

end VoxTree

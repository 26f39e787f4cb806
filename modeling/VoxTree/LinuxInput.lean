import VoxTree.Lib.Machine
import VoxTree.PttInput

/-!
# Controllers on Linux

`LinuxEvdevInputSource` opens the controllers that udev tells of and hands their button records to
`PushToTalkBindingEngine`. Beside what the source keeps of a controller stands what its user does
and what the kernel has not handed over yet; the kernel may discard records and says so.
-/

namespace VoxTree

/-! ## udev -/

/-- The properties of a `udev_device`; a text that is not set is empty. -/
structure UdevDevice where
  serial : Bytes := []
  path : Bytes := []
  joystick : Bytes := []
  syspath : Option Bytes := none
  devnode : Option Bytes := none

def stableDeviceId (device : UdevDevice) (deviceNode : Bytes) : Bytes :=
  bytes "linux-input:" ++
    if device.serial ≠ [] then device.serial
    else if device.path ≠ [] then device.path
    else device.syspath.getD deviceNode

def isController (device : UdevDevice) : Bool := device.joystick = bytes "1"

/-- An event of the udev monitor. -/
structure HotPlugEvent where
  action : Option Bytes
  device : UdevDevice

/-! ## evdev -/

/-- `input_event` without its time. -/
structure EvdevRecord where
  type : UInt16
  code : UInt16
  value : Int
  deriving DecidableEq

def evSyn : UInt16 := 0x00

def evKey : UInt16 := 0x01

def synDropped : UInt16 := 3

def buttonMisc : ℕ := 0x100

def keyMax : ℕ := 0x2ff

def hidButtonUsagePage : UInt16 := 0x0009

/-- The record of a button that goes down or up. -/
def EvdevRecord.button (code : UInt16) (pressed : Bool) : EvdevRecord :=
  ⟨evKey, code, if pressed then 1 else 0⟩

/-- The record that stands where others were discarded. -/
def EvdevRecord.dropped : EvdevRecord := ⟨evSyn, synDropped, 0⟩

/-- Whether the reader takes the record for a button. -/
def EvdevRecord.isButton (record : EvdevRecord) : Bool :=
  record.type = evKey && (record.value = 0 || record.value = 1)

/-- What an opened descriptor answers; `keyBits` is empty where the query fails. -/
structure OpenedDevice where
  vendor : UInt16 := 0
  product : UInt16 := 0
  name : Bytes := []
  keyBits : UInt16 → Bool

/-! ## The source -/

/-- `Device`, which the source has opened. -/
structure LinuxDevice where
  node : Bytes
  profile : InputDeviceProfile
  eventCodeToUsage : List (UInt16 × UInt16)

namespace LinuxDevice

/-- The codes of the device's buttons, numbered from one; there are fewer codes than numbers. -/
def buttonMap (keyBits : UInt16 → Bool) : List (UInt16 × UInt16) :=
  ((((List.range' buttonMisc (keyMax + 1 - buttonMisc)).map UInt16.ofNat).filter keyBits).zipIdx
    1).map fun entry => (entry.1, UInt16.ofNat entry.2)

def profileFor (device : UdevDevice) (opened : OpenedDevice) (node : Bytes) :
    InputDeviceProfile where
  deviceId := stableDeviceId device node
  displayName := if opened.name ≠ [] then opened.name else node
  deviceKind := .gameController
  vendorId := opened.vendor
  productId := opened.product
  usagePage := 0x0001
  usage := 0x0004
  buttons := (buttonMap opened.keyBits).map fun entry => ⟨hidButtonUsagePage, entry.2⟩

variable (device : LinuxDevice)

/-- The control of a button. -/
def control (usage : UInt16) : InputControl :=
  ⟨.gameController, hidButtonUsagePage, usage, false, device.profile.deviceId⟩

/-- The loop of `readEvents` on one record. -/
def readEvent (e : PushToTalkBindingEngine) (record : EvdevRecord) : PushToTalkBindingEngine :=
  if !record.isButton then e
  else
    match device.eventCodeToUsage.find? fun entry => entry.1 = record.code with
    | none => e
    | some mapped => (e.onInputEvent ⟨device.control mapped.2, record.value = 1, true⟩).1

end LinuxDevice

/-! ## The controllers -/

/-- A controller that is attached: the source's device, the records that wait for the source, the
buttons that are held and those that were pressed since it was attached, and what the records that
the source has read say of each button. -/
structure Controller where
  device : LinuxDevice
  pending : List EvdevRecord := []
  held : UInt16 → Bool
  since : UInt16 → Bool := fun _ => false
  read : UInt16 → Bool := fun _ => false

/-- What records say of the buttons. -/
def replay (records : List EvdevRecord) (buttons : UInt16 → Bool) : UInt16 → Bool :=
  records.foldl (fun buttons record =>
    if record.isButton then Function.update buttons record.code (record.value = 1) else buttons)
    buttons

structure LinuxInput where
  controllers : List Controller := []
  hotPlugs : List HotPlugEvent := []
  engine : PushToTalkBindingEngine

namespace LinuxInput

/-- The engine of a client that has set its bindings. -/
def initial (bindings : List InputBinding) : LinuxInput :=
  { engine := (({} : PushToTalkBindingEngine).setBindings bindings).1 }

variable (s : LinuxInput)

/-- `addDevice`; `enumerateDevices` adds each device so too. `answer` is what opening the node
yields, `held` what is held on it then. -/
def addDevice (device : UdevDevice) (answer : Option OpenedDevice) (held : UInt16 → Bool) :
    LinuxInput :=
  match device.devnode, answer with
  | some node, some opened =>
    if !isController device || (s.controllers.any fun c => c.device.node = node)
        || LinuxDevice.buttonMap opened.keyBits = [] then s
    else
      let profile := LinuxDevice.profileFor device opened node
      { s with
        controllers := s.controllers ++
          [{ device := ⟨node, profile, LinuxDevice.buttonMap opened.keyBits⟩, held }]
        engine := s.engine.onInputDeviceConnected profile }
  | _, _ => s

def removeDevice (node : Bytes) : LinuxInput :=
  match s.controllers.find? fun c => c.device.node = node with
  | none => s
  | some c =>
    { s with
      controllers := s.controllers.eraseP fun c => c.device.node = node
      engine := (s.engine.onInputDeviceRemoved c.device.profile.deviceId).1 }

def handleHotPlug (event : HotPlugEvent) (answer : Option OpenedDevice) (held : UInt16 → Bool) :
    LinuxInput :=
  if event.action = some (bytes "add") then s.addDevice event.device answer held
  else if event.action = some (bytes "remove") then
    match event.device.devnode with
    | some node => s.removeDevice node
    | none => s
  else s

/-- Change the controller at a node. -/
def atNode (node : Bytes) (f : Controller → Controller) : LinuxInput :=
  { s with controllers := s.controllers.map fun c => if c.device.node = node then f c else c }

inductive Action
  /-- The monitor gets an event. -/
  | hotPlug (event : HotPlugEvent)
  | handleHotPlug (answer : Option OpenedDevice) (held : UInt16 → Bool)
  /-- A button goes down or up, and the kernel appends its record. -/
  | button (node : Bytes) (code : UInt16) (pressed : Bool)
  /-- The kernel appends a record of something else. -/
  | other (node : Bytes) (record : EvdevRecord)
  /-- The kernel discards records behind the first `keep`, and says so in their place. -/
  | discard (node : Bytes) (keep lost : ℕ)
  /-- The source reads the next record of a controller. -/
  | readEvent (node : Bytes)

def step : Action → Option LinuxInput
  | .hotPlug event => some { s with hotPlugs := s.hotPlugs ++ [event] }
  | .handleHotPlug answer held =>
    match s.hotPlugs with
    | [] => none
    | event :: rest => some ({ s with hotPlugs := rest }.handleHotPlug event answer held)
  | .button node code pressed =>
    match s.controllers.find? fun c => c.device.node = node with
    | none => none
    | some c =>
      if c.held code = pressed then none
      else
        some (s.atNode node fun c => { c with
          pending := c.pending ++ [.button code pressed]
          held := Function.update c.held code pressed
          since := if pressed then Function.update c.since code true else c.since })
  | .other node record =>
    if record.isButton then none
    else some (s.atNode node fun c => { c with pending := c.pending ++ [record] })
  | .discard node keep lost =>
    some (s.atNode node fun c => { c with
      pending := c.pending.take keep ++ .dropped :: c.pending.drop (keep + lost) })
  | .readEvent node =>
    match s.controllers.find? fun c => c.device.node = node with
    | none => none
    | some c =>
      match c.pending with
      | [] => none
      | record :: rest =>
        some { s.atNode node fun c => { c with
            pending := rest
            read := replay [record] c.read } with
          engine := c.device.readEvent s.engine record }

/-! ## What is asked of a run -/

/-- All records and hot-plug events have been read. -/
def Quiescent : Prop := s.hotPlugs = [] ∧ ∀ c ∈ s.controllers, c.pending = []

/-- The engine holds exactly the buttons that are held on an attached controller and were pressed
since it was attached. -/
def Mirrors : Prop :=
  ∀ control, control ∈ s.engine.pressedControls
    ↔ ∃ c ∈ s.controllers, ∃ entry ∈ c.device.eventCodeToUsage,
      control = c.device.control entry.2 ∧ c.held entry.1 = true ∧ c.since entry.1 = true

/-- No other controller has, by the records read from it, a control of the device pressed that `f`
accepts. -/
def unshared (node : Bytes) (deviceId : Bytes) (f : UInt16 → Bool) : Bool :=
  s.controllers.all fun c => c.device.node = node || c.device.profile.deviceId ≠ deviceId
    || c.device.eventCodeToUsage.all fun entry => !(c.read entry.1 && f entry.2)

/-- The records that the kernel discards leave every button as the records before them do; a
release that is read, and a removal, are of controls that no other controller has pressed. -/
def undisturbed : Action → Bool
  | .handleHotPlug _ _ =>
    s.hotPlugs.head?.all fun event => event.action ≠ some (bytes "remove")
      || event.device.devnode.all fun node => s.controllers.all fun c => c.device.node ≠ node
        || s.unshared node c.device.profile.deviceId fun _ => true
  | .discard node keep lost =>
    s.controllers.all fun c => c.device.node ≠ node
      || c.device.eventCodeToUsage.all fun entry =>
        replay (c.pending.take keep) c.read entry.1
          = replay (c.pending.take (keep + lost)) c.read entry.1
  | .readEvent node =>
    s.controllers.all fun c => c.device.node ≠ node
      || c.pending.head?.all fun record => !record.isButton || record.value = 1
        || c.device.eventCodeToUsage.all fun entry => entry.1 ≠ record.code
          || s.unshared node c.device.profile.deviceId fun usage => usage = entry.2
  | _ => true

end LinuxInput

end VoxTree

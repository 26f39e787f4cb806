import Mathlib.Data.Finset.Basic
import Std.Data.ExtTreeMap
import VoxTree.PttInput

/-!
# Controllers on Windows

`WinRawInputSource` reads the buttons of a controller out of its HID reports. A report tells only of
the buttons of its report id, so the source keeps what was pressed for each id and hands on how the
union changes. How `HidP` reads a report, and the order in which an `unordered_set` is walked, are
parameters.
-/

namespace VoxTree

structure HidReportGroup where
  usagePage : UInt16 := 0
  linkCollection : UInt16 := 0
  reportId : UInt8 := 0
  deriving DecidableEq

structure HidDeviceState where
  preparsedData : Bytes
  reportGroups : List HidReportGroup
  pressedByReport : Std.ExtTreeMap UInt8 (Finset UInt32) := ∅

def hidButtonKey (usagePage usage : UInt16) : UInt32 :=
  (usagePage.toUInt32 <<< 16) ||| usage.toUInt32

def hidUsagePage (key : UInt32) : UInt16 := (key >>> 16).toUInt16

def hidUsage (key : UInt32) : UInt16 := (key &&& 0xFFFF).toUInt16

/-- What Windows answers about the input reports of a device, whose preparsed data come first. -/
structure HidParser where
  /-- `HidP_MaxUsageListLength` for a usage page. -/
  maxUsageListLength : Bytes → UInt16 → UInt32
  /-- The usages that `HidP_GetUsages` stores for a usage page and a link collection from a report
  and its length; `none` is any status but success. -/
  getUsages : Bytes → UInt16 → UInt16 → Bytes → UInt32 → Option (List UInt16)

/-- The order in which the elements of an `unordered_set` are walked. -/
structure HashOrder where
  list : Finset UInt32 → List UInt32
  coe_list : ∀ keys, (list keys : Multiset UInt32) = keys.val

namespace HidDeviceState

variable (parser : HidParser) (state : HidDeviceState)

def allPressedButtons : Finset UInt32 :=
  state.pressedByReport.toList.foldl (fun pressed entry => pressed ∪ entry.2) ∅

def hasReportIds : Bool := state.reportGroups.any fun group => group.reportId ≠ 0

/-- The id of a report; where there are ids, an empty report has none. -/
def reportId (report : Bytes) : Option UInt8 :=
  if state.hasReportIds then report.head? else some 0

/-- The usages of a group in a report, `none` where the group does not parse. -/
def usages (group : HidReportGroup) (report : Bytes) : Option (List UInt16) :=
  if parser.maxUsageListLength state.preparsedData group.usagePage = 0 then none
  else
    parser.getUsages state.preparsedData group.usagePage group.linkCollection report
      (UInt32.ofNat report.length)

/-- What `processHidReport` has gathered from the groups before. -/
structure Scan where
  reportPressed : Finset UInt32 := ∅
  matchingGroupSeen : Bool := false
  parsedGroupSeen : Bool := false

/-- The loop of `processHidReport` on one group. -/
def scanGroup (reportId : UInt8) (report : Bytes) (scan : Scan) (group : HidReportGroup) : Scan :=
  if group.reportId ≠ reportId then scan
  else
    match state.usages parser group report with
    | none => { scan with matchingGroupSeen := true }
    | some usages =>
      { reportPressed := usages.foldl (fun pressed usage =>
          insert (hidButtonKey group.usagePage usage) pressed) scan.reportPressed
        matchingGroupSeen := true
        parsedGroupSeen := true }

def scan (reportId : UInt8) (report : Bytes) : Scan :=
  state.reportGroups.foldl (state.scanGroup parser reportId report) {}

/-! ### What the reports say -/

/-- The groups of a report's id. -/
def matchingGroups (report : Bytes) : List HidReportGroup :=
  state.reportGroups.filter fun group => state.reportId report = some group.reportId

def parses (report : Bytes) : Bool :=
  (state.matchingGroups report).any fun group => (state.usages parser group report).isSome

/-- The usages that the groups of a report's id read from it, each with its usage page. -/
def usageSet (report : Bytes) : List (UInt16 × UInt16) :=
  (state.matchingGroups report).flatMap fun group =>
    ((state.usages parser group report).getD []).map (group.usagePage, ·)

/-- The last report with an id that parsed. -/
def lastParsed (reportId : UInt8) (reports : List Bytes) : Option Bytes :=
  (reports.filter fun report =>
    state.reportId report = some reportId && state.parses parser report).getLast?

end HidDeviceState

/-- The control that is told of for a button. -/
def hidControl (deviceId : Bytes) (usagePage usage : UInt16) : InputControl :=
  ⟨.gameController, usagePage, usage, false, deviceId⟩

/-- A controller as the source keeps it, and what its sink was told. -/
structure WinRawInput where
  deviceId : Bytes
  hid : HidDeviceState
  sink : List InputEvent := []
  deliveredEvents : UInt64 := 0

/-- A report as it comes to `processHidReport`. -/
structure HidReport where
  report : Bytes
  receivedInBackground : Bool := false
  order : HashOrder

structure RawHid where
  dwSizeHid : UInt32
  dwCount : UInt32
  bRawData : Bytes

/-- `sizeof(RAWINPUTHEADER)`. -/
def rawInputHeaderSize : UInt64 := 24

/-- `offsetof(RAWHID, bRawData)`. -/
def hidHeaderSize : UInt64 := 8

namespace WinRawInput

/-- A controller that `createHidState` has read. -/
def initial (deviceId preparsedData : Bytes) (reportGroups : List HidReportGroup) :
    WinRawInput where
  deviceId := deviceId
  hid := { preparsedData := preparsedData, reportGroups := reportGroups }

variable (parser : HidParser) (s : WinRawInput)

def emitHidButton (key : UInt32) (pressed receivedInBackground : Bool) : WinRawInput :=
  { s with
    sink := s.sink ++
      [⟨hidControl s.deviceId (hidUsagePage key) (hidUsage key), pressed, receivedInBackground⟩]
    deliveredEvents := s.deliveredEvents + 1 }

/-- The loop of `processHidReport` over `keys`, which tells of those that are not in `others`. -/
def emitMissing (keys : List UInt32) (others : Finset UInt32)
    (pressed receivedInBackground : Bool) : WinRawInput :=
  keys.foldl (fun s key =>
    if key ∈ others then s else s.emitHidButton key pressed receivedInBackground) s

def processHidReport (r : HidReport) : WinRawInput :=
  match s.hid.reportId r.report with
  | none => s
  | some reportId =>
    let scan := s.hid.scan parser reportId r.report
    if !scan.matchingGroupSeen || !scan.parsedGroupSeen then s
    else
      let hid := { s.hid with
        pressedByReport := s.hid.pressedByReport.insert reportId scan.reportPressed }
      let oldPressed := s.hid.allPressedButtons
      let newPressed := hid.allPressedButtons
      (({ s with hid := hid }.emitMissing (r.order.list oldPressed) newPressed false
        r.receivedInBackground).emitMissing (r.order.list newPressed) oldPressed true
          r.receivedInBackground)

def run (reports : List HidReport) : WinRawInput :=
  reports.foldl (fun s r => s.processHidReport parser r) s

/-- The reports in one `RAWHID`; each is walked in an order of its own. -/
def processHid (rawHid : RawHid) (inputSize : UInt32) (receivedInBackground : Bool)
    (order : ℕ → HashOrder) : WinRawInput :=
  let reportSize := rawHid.dwSizeHid.toUInt64
  let reportCount := rawHid.dwCount.toUInt64
  if reportSize = 0 || reportCount = 0 || reportCount > 0xFFFFFFFFFFFFFFFF / reportSize then s
  else
    let reportBytes := reportSize * reportCount
    let availableBytes := inputSize.toUInt64 - rawInputHeaderSize
    if availableBytes < hidHeaderSize || reportBytes > availableBytes - hidHeaderSize then s
    else
      let reports := rawHid.bRawData.take reportBytes.toNat
      (List.range reportCount.toNat).foldl (fun s index => s.processHidReport parser
        ⟨(reports.drop (index * reportSize.toNat)).take reportSize.toNat, receivedInBackground,
          order index⟩) s

/-- What the sink was told of a control. -/
def told (control : InputControl) : List Bool :=
  (s.sink.filter fun event => event.control = control).map InputEvent.pressed

end WinRawInput

end VoxTree

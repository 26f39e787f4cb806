import Mathlib.Data.Finset.Sort
import VoxTree.Proofs.PttHistory
import VoxTree.WinRawInput

/-!
# What the reports of a controller come to

A report replaces what is pressed for its id (`processHidReport_of_parses`), and the sink is told
of a button when the union over the ids gains or loses it (`told_processHidReport`). So after every
report the sink knows of each button what the last reports of the ids say
(`sink_follows_reports`), and so does an engine that is the sink (`engine_holds_reports`).
-/

namespace VoxTree

open History

/-! ## Keys -/

theorem toNat_hidButtonKey (usagePage usage : UInt16) :
    (hidButtonKey usagePage usage).toNat = usagePage.toNat * 65536 + usage.toNat := by
  have hpage := usagePage.toNat_lt
  have hor := Nat.shiftLeft_add_eq_or_of_lt usage.toNat_lt usagePage.toNat
  have hshift : usagePage.toNat <<< 16 % 2 ^ 32 = usagePage.toNat <<< 16 := by
    rw [Nat.shiftLeft_eq]
    omega
  calc (hidButtonKey usagePage usage).toNat
      = (usagePage.toNat <<< 16 % 2 ^ 32) ||| usage.toNat := by simp [hidButtonKey]
    _ = usagePage.toNat <<< 16 + usage.toNat := by rw [hshift, hor]
    _ = usagePage.toNat * 65536 + usage.toNat := by rw [Nat.shiftLeft_eq]

theorem toNat_hidUsagePage (key : UInt32) : (hidUsagePage key).toNat = key.toNat / 65536 := by
  have hkey := key.toNat_lt
  simp only [hidUsagePage, UInt32.toNat_toUInt16, UInt32.toNat_shiftRight,
    Nat.shiftRight_eq_div_pow]
  exact Nat.mod_eq_of_lt (by simp; omega)

theorem toNat_hidUsage (key : UInt32) : (hidUsage key).toNat = key.toNat % 65536 := by
  simp only [hidUsage, UInt32.toNat_toUInt16, UInt32.toNat_and]
  rw [show UInt32.toNat 0xFFFF = 2 ^ 16 - 1 from rfl, Nat.and_two_pow_sub_one_eq_mod, Nat.mod_mod]

/-- A key is its usage page and its usage. -/
theorem hidButtonKey_eq_iff {usagePage usage : UInt16} {key : UInt32} :
    hidButtonKey usagePage usage = key ↔ hidUsagePage key = usagePage ∧ hidUsage key = usage := by
  have husage := usage.toNat_lt
  rw [← UInt32.toNat_inj, ← UInt16.toNat_inj, ← UInt16.toNat_inj, toNat_hidButtonKey,
    toNat_hidUsagePage, toNat_hidUsage]
  omega

theorem hidButtonKey_inj {usagePage usagePage' usage usage' : UInt16} :
    hidButtonKey usagePage usage = hidButtonKey usagePage' usage'
      ↔ usagePage = usagePage' ∧ usage = usage' := by
  obtain ⟨hpage, husage⟩ := hidButtonKey_eq_iff.1 (rfl : hidButtonKey usagePage' usage' = _)
  rw [hidButtonKey_eq_iff, hpage, husage, eq_comm (a := usagePage), eq_comm (a := usage)]

namespace HashOrder

variable (order : HashOrder) (keys : Finset UInt32)

theorem nodup_list : (order.list keys).Nodup := by
  rw [← Multiset.coe_nodup, order.coe_list]
  exact keys.nodup

@[simp] theorem mem_list {key : UInt32} : key ∈ order.list keys ↔ key ∈ keys := by
  rw [← Multiset.mem_coe, order.coe_list, Finset.mem_val]

end HashOrder

/-! ## One report -/

namespace HidDeviceState

variable {parser : HidParser} {state : HidDeviceState} {key : UInt32} {report : Bytes}

/-- The key is that of a usage which the group reads from the report. -/
def GroupHas (parser : HidParser) (state : HidDeviceState) (report : Bytes)
    (group : HidReportGroup) (key : UInt32) : Prop :=
  ∃ usages, state.usages parser group report = some usages
    ∧ ∃ usage ∈ usages, hidButtonKey group.usagePage usage = key

theorem mem_allPressedButtons :
    key ∈ state.allPressedButtons
      ↔ ∃ (reportId : UInt8) (keys : Finset UInt32),
        state.pressedByReport[reportId]? = some keys ∧ key ∈ keys := by
  have hfold := foldl_iff (p := fun pressed : Finset UInt32 => key ∈ pressed)
    (q := fun entry : UInt8 × Finset UInt32 => key ∈ entry.2)
    (fun pressed entry => Finset.mem_union) state.pressedByReport.toList ∅
  rw [allPressedButtons, hfold]
  simp [Std.ExtTreeMap.mem_toList_iff_getElem?_eq_some]

theorem mem_scanGroup {reportId : UInt8} (scan : Scan) (group : HidReportGroup) :
    key ∈ (state.scanGroup parser reportId report scan group).reportPressed
      ↔ key ∈ scan.reportPressed
        ∨ (group.reportId = reportId ∧ GroupHas parser state report group key) := by
  unfold scanGroup GroupHas
  split_ifs with hid
  · simp [hid]
  rcases husages : state.usages parser group report with _ | usages
  · simp
  · have hfold := foldl_iff (p := fun pressed : Finset UInt32 => key ∈ pressed)
      (q := fun usage => hidButtonKey group.usagePage usage = key)
      (fun pressed usage => by rw [Finset.mem_insert, or_comm, eq_comm]) usages scan.reportPressed
    simp [not_not.1 hid, hfold]

theorem parsedGroupSeen_scanGroup {reportId : UInt8} (scan : Scan) (group : HidReportGroup) :
    (state.scanGroup parser reportId report scan group).parsedGroupSeen = true
      ↔ scan.parsedGroupSeen = true
        ∨ (group.reportId = reportId ∧ (state.usages parser group report).isSome = true) := by
  unfold scanGroup
  split_ifs with hid
  · simp [hid]
  rcases state.usages parser group report with _ | usages
  · simp
  · simp [not_not.1 hid]

theorem matchingGroupSeen_scanGroup {reportId : UInt8} {scan : Scan} (group : HidReportGroup)
    (h : scan.parsedGroupSeen = true → scan.matchingGroupSeen = true) :
    (state.scanGroup parser reportId report scan group).parsedGroupSeen = true →
      (state.scanGroup parser reportId report scan group).matchingGroupSeen = true := by
  unfold scanGroup
  split_ifs
  · exact h
  rcases state.usages parser group report with _ | usages <;> simp

theorem matchingGroupSeen_scan (reportId : UInt8)
    (h : (state.scan parser reportId report).parsedGroupSeen = true) :
    (state.scan parser reportId report).matchingGroupSeen = true :=
  List.foldlRecOn
    (motive := fun scan : Scan => scan.parsedGroupSeen = true → scan.matchingGroupSeen = true)
    state.reportGroups _ (by simp)
    (fun _ hscan group _ => matchingGroupSeen_scanGroup group hscan) h

section Matching

variable {reportId : UInt8} (hid : state.reportId report = some reportId)

include hid

theorem mem_matchingGroups {group : HidReportGroup} :
    group ∈ state.matchingGroups report
      ↔ group ∈ state.reportGroups ∧ group.reportId = reportId := by
  simp [matchingGroups, hid, eq_comm]

/-- A report parses if one of the groups of its id does. -/
theorem parsedGroupSeen_scan (parser : HidParser) :
    (state.scan parser reportId report).parsedGroupSeen = state.parses parser report := by
  have hfold := foldl_iff (p := fun scan : Scan => scan.parsedGroupSeen = true)
    (q := fun group => group.reportId = reportId
      ∧ (state.usages parser group report).isSome = true)
    parsedGroupSeen_scanGroup state.reportGroups {}
  rw [Bool.eq_iff_iff, scan, hfold, parses, List.any_eq_true]
  simp [mem_matchingGroups hid, and_assoc]

/-- What a report holds pressed are the keys of its usages. -/
theorem hidButtonKey_mem_scan {usagePage usage : UInt16} :
    hidButtonKey usagePage usage ∈ (state.scan parser reportId report).reportPressed
      ↔ (usagePage, usage) ∈ state.usageSet parser report := by
  have hfold := foldl_iff
    (p := fun scan : Scan => hidButtonKey usagePage usage ∈ scan.reportPressed)
    (q := fun group => group.reportId = reportId
      ∧ GroupHas parser state report group (hidButtonKey usagePage usage))
    mem_scanGroup state.reportGroups {}
  rw [scan, hfold, usageSet, List.mem_flatMap]
  simp only [Finset.notMem_empty, false_or, mem_matchingGroups hid, and_assoc]
  refine exists_congr fun group => and_congr_right fun _ => and_congr_right fun _ => ?_
  unfold GroupHas
  rcases state.usages parser group report with _ | usages
  · simp
  · simp [hidButtonKey_inj, eq_comm]

end Matching

theorem parses_eq_false_iff : state.parses parser report = false
    ↔ ∀ group ∈ state.matchingGroups report, state.usages parser group report = none := by
  simp [parses]

theorem reportId_of_lastParsed {reportId : UInt8} {reports : List Bytes}
    (h : state.lastParsed parser reportId reports = some report) :
    state.reportId report = some reportId := by
  have hmem := List.mem_of_getLast? h
  simp only [List.mem_filter, Bool.and_eq_true, decide_eq_true_eq] at hmem
  exact hmem.2.1

end HidDeviceState

namespace WinRawInput

variable {parser : HidParser} {s : WinRawInput}

/-- The event that tells of a key. -/
def event (s : WinRawInput) (receivedInBackground : Bool) (change : UInt32 × Bool) : InputEvent :=
  ⟨hidControl s.deviceId (hidUsagePage change.1) (hidUsage change.1), change.2,
    receivedInBackground⟩

def tell (s : WinRawInput) (events : List InputEvent) : WinRawInput :=
  { s with
    sink := s.sink ++ events
    deliveredEvents := s.deliveredEvents + UInt64.ofNat events.length }

theorem tell_append (events events' : List InputEvent) :
    s.tell (events ++ events') = (s.tell events).tell events' := by
  simp [tell, UInt64.ofNat_add, UInt64.add_assoc]

theorem emitMissing_eq (keys : List UInt32) (others : Finset UInt32)
    (pressed receivedInBackground : Bool) :
    s.emitMissing keys others pressed receivedInBackground
      = s.tell (((keys.filter fun key => key ∉ others).map (·, pressed)).map
          (s.event receivedInBackground)) := by
  unfold emitMissing
  induction keys generalizing s with
  | nil => simp [tell]
  | cons key keys ih =>
    rw [List.foldl_cons, ih]
    by_cases hkey : key ∈ others
    · simp [hkey]
    · have hevent : s.emitHidButton key pressed receivedInBackground
          = s.tell [s.event receivedInBackground (key, pressed)] := rfl
      rw [if_neg hkey, List.filter_cons_of_pos (by simpa using hkey), List.map_cons, List.map_cons,
        ← List.singleton_append, tell_append, hevent]
      rfl

/-- The source with what is pressed for one id replaced by what a report says. -/
def store (parser : HidParser) (s : WinRawInput) (reportId : UInt8) (report : Bytes) :
    WinRawInput :=
  { s with
    hid := { s.hid with
      pressedByReport := s.hid.pressedByReport.insert reportId
        (s.hid.scan parser reportId report).reportPressed } }

section Report

variable {r : HidReport}

/-- A report of which no group of its id parses changes nothing. -/
theorem processHidReport_of_not_parses (h : s.hid.parses parser r.report = false) :
    s.processHidReport parser r = s := by
  unfold processHidReport
  rcases hid : s.hid.reportId r.report with _ | reportId
  · rfl
  · simp [HidDeviceState.parsedGroupSeen_scan hid parser, h]

theorem exists_reportId (h : s.hid.parses parser r.report = true) :
    ∃ reportId, s.hid.reportId r.report = some reportId := by
  rcases hid : s.hid.reportId r.report with _ | reportId
  · simp [HidDeviceState.parses, HidDeviceState.matchingGroups, hid] at h
  · exact ⟨reportId, rfl⟩

/-- A report that parses replaces what is pressed for its id, and the change is handed on. -/
theorem processHidReport_of_parses {reportId : UInt8}
    (hid : s.hid.reportId r.report = some reportId) (h : s.hid.parses parser r.report = true) :
    s.processHidReport parser r
      = (s.store parser reportId r.report).tell
        ((changes (r.order.list s.hid.allPressedButtons)
          (r.order.list (s.store parser reportId r.report).hid.allPressedButtons)).map
            (s.event r.receivedInBackground)) := by
  have hparsed := (HidDeviceState.parsedGroupSeen_scan hid parser).trans h
  unfold processHidReport
  rw [hid]
  simp only [hparsed, HidDeviceState.matchingGroupSeen_scan reportId hparsed, Bool.not_true,
    Bool.or_self, Bool.false_eq_true, if_false, emitMissing_eq, changes, List.map_append,
    tell_append, HashOrder.mem_list]
  rfl

/-- What comes of a report: nothing, or a change of one id of which the sink is told. -/
theorem processHidReport_cases (parser : HidParser) (s : WinRawInput) (r : HidReport) :
    (s.hid.parses parser r.report = false ∧ s.processHidReport parser r = s)
    ∨ ∃ reportId, s.hid.reportId r.report = some reportId ∧ s.hid.parses parser r.report = true
      ∧ s.processHidReport parser r
        = (s.store parser reportId r.report).tell
          ((changes (r.order.list s.hid.allPressedButtons)
            (r.order.list (s.store parser reportId r.report).hid.allPressedButtons)).map
              (s.event r.receivedInBackground)) := by
  rcases h : s.hid.parses parser r.report with _ | _
  · exact .inl ⟨rfl, processHidReport_of_not_parses h⟩
  · obtain ⟨reportId, hid⟩ := exists_reportId h
    exact .inr ⟨reportId, hid, rfl, processHidReport_of_parses hid h⟩

theorem told_tell (control : InputControl) (events : List InputEvent) :
    (s.tell events).told control = s.told control
      ++ (events.filter fun event => event.control = control).map InputEvent.pressed := by
  simp [told, tell]

/-- The events of a button are those of its key. -/
theorem told_event (usagePage usage : UInt16) (receivedInBackground : Bool)
    (l : List (UInt32 × Bool)) :
    ((l.map (s.event receivedInBackground)).filter fun event =>
        event.control = hidControl s.deviceId usagePage usage).map InputEvent.pressed
      = toldOf (hidButtonKey usagePage usage) l := by
  have hkey : ∀ change : UInt32 × Bool,
      (s.event receivedInBackground change).control = hidControl s.deviceId usagePage usage
        ↔ change.1 = hidButtonKey usagePage usage := by
    intro change
    rw [eq_comm (a := change.1), hidButtonKey_eq_iff]
    simp [event, hidControl]
  rw [List.filter_map, List.map_map, toldOf]
  simp only [Function.comp_def, hkey]
  rfl

/-- The sink is told of a button when the union of what is pressed gains or loses it. -/
theorem told_processHidReport (r : HidReport) (usagePage usage : UInt16) :
    (s.processHidReport parser r).told (hidControl s.deviceId usagePage usage)
      = s.told (hidControl s.deviceId usagePage usage)
        ++ edge (hidButtonKey usagePage usage ∈ s.hid.allPressedButtons)
          (hidButtonKey usagePage usage
            ∈ (s.processHidReport parser r).hid.allPressedButtons) := by
  obtain ⟨-, heq⟩ | ⟨reportId, -, -, heq⟩ := processHidReport_cases parser s r
  · rw [heq]
    simp [edge]
  · rw [heq, told_tell, told_event, toldOf_changes (r.order.nodup_list _) (r.order.nodup_list _)]
    simp only [HashOrder.mem_list]
    rfl

end Report

/-! ## Runs -/

/-- What holds of a device after some reports. -/
structure Follows (parser : HidParser) (start : WinRawInput) (reports : List Bytes)
    (s : WinRawInput) : Prop where
  deviceId : s.deviceId = start.deviceId
  hid : s.hid = { start.hid with pressedByReport := s.hid.pressedByReport }
  kept : ∀ reportId : UInt8, s.hid.pressedByReport[reportId]?
    = (start.hid.lastParsed parser reportId reports).map fun report =>
      (start.hid.scan parser reportId report).reportPressed
  tells : ∀ usagePage usage, Tells (s.told (hidControl start.deviceId usagePage usage))
    (hidButtonKey usagePage usage ∈ s.hid.allPressedButtons)
  deliveredEvents : s.deliveredEvents = UInt64.ofNat s.sink.length

theorem follows_initial (parser : HidParser) (deviceId preparsedData : Bytes)
    (reportGroups : List HidReportGroup) :
    Follows parser (initial deviceId preparsedData reportGroups) []
      (initial deviceId preparsedData reportGroups) where
  deviceId := rfl
  hid := rfl
  kept := by simp [initial, HidDeviceState.lastParsed]
  tells usagePage usage := by
    have hnone : hidButtonKey usagePage usage
        ∉ (initial deviceId preparsedData reportGroups).hid.allPressedButtons := by
      simp [HidDeviceState.mem_allPressedButtons, initial]
    rw [decide_eq_false hnone]
    exact tells_nil
  deliveredEvents := rfl

variable {start : WinRawInput} {reports : List Bytes}

theorem Follows.kept_processHidReport (h : Follows parser start reports s) (r : HidReport)
    (reportId : UInt8) : (s.processHidReport parser r).hid.pressedByReport[reportId]?
      = (start.hid.lastParsed parser reportId (reports ++ [r.report])).map fun report =>
        (start.hid.scan parser reportId report).reportPressed := by
  have hparses : s.hid.parses parser r.report = start.hid.parses parser r.report := by
    rw [h.hid]
    rfl
  have hreportId : s.hid.reportId r.report = start.hid.reportId r.report := by
    rw [h.hid]
    rfl
  have hscan : ∀ reportId, s.hid.scan parser reportId r.report
      = start.hid.scan parser reportId r.report := by
    intro reportId
    rw [h.hid]
    rfl
  rw [HidDeviceState.lastParsed, List.filter_append]
  obtain ⟨hnot, heq⟩ | ⟨reportId', hid, hparsed, heq⟩ := processHidReport_cases parser s r
  · rw [heq, h.kept]
    simp [← hparses, hnot, HidDeviceState.lastParsed]
  · have hstored : (s.processHidReport parser r).hid.pressedByReport
        = s.hid.pressedByReport.insert reportId'
          (start.hid.scan parser reportId' r.report).reportPressed := by
      rw [heq, ← hscan]
      rfl
    rw [hstored, Std.ExtTreeMap.getElem?_insert, h.kept]
    by_cases hsame : reportId' = reportId
    · subst hsame
      simp [← hparses, hparsed, ← hreportId, hid]
    · simp [← hparses, hparsed, ← hreportId, hid, hsame, HidDeviceState.lastParsed]

theorem Follows.processHidReport (h : Follows parser start reports s) (r : HidReport) :
    Follows parser start (reports ++ [r.report]) (s.processHidReport parser r) where
  deviceId := by
    obtain ⟨-, heq⟩ | ⟨reportId, -, -, heq⟩ := processHidReport_cases parser s r
    · rw [heq, h.deviceId]
    · rw [heq]
      exact h.deviceId
  hid := by
    obtain ⟨-, heq⟩ | ⟨reportId, -, -, heq⟩ := processHidReport_cases parser s r
    · rw [heq]
      exact h.hid
    · rw [heq]
      simp only [tell, store]
      rw [h.hid]
  kept := h.kept_processHidReport r
  tells usagePage usage := by
    rw [← h.deviceId, told_processHidReport, h.deviceId]
    exact (h.tells usagePage usage).append_edge _
  deliveredEvents := by
    obtain ⟨-, heq⟩ | ⟨reportId, -, -, heq⟩ := processHidReport_cases parser s r
    · rw [heq, h.deliveredEvents]
    · rw [heq]
      simp [tell, store, h.deliveredEvents, UInt64.ofNat_add]

theorem run_append_singleton (reports : List HidReport) (r : HidReport) :
    s.run parser (reports ++ [r]) = (s.run parser reports).processHidReport parser r := by
  simp [run]

theorem follows_run (parser : HidParser) (deviceId preparsedData : Bytes)
    (reportGroups : List HidReportGroup) (reports : List HidReport) :
    Follows parser (initial deviceId preparsedData reportGroups) (reports.map HidReport.report)
      ((initial deviceId preparsedData reportGroups).run parser reports) := by
  induction reports using List.reverseRecOn with
  | nil => exact follows_initial parser deviceId preparsedData reportGroups
  | append_singleton reports r ih =>
    rw [run_append_singleton, List.map_append]
    exact ih.processHidReport r

/-! ## Messages -/

/-- Pieces of one size are, one after the other, the front of the list they are cut from. -/
theorem flatten_pieces {α : Type*} (l : List α) (size : ℕ) : ∀ count : ℕ,
    ((List.range count).map fun index => (l.drop (index * size)).take size).flatten
      = l.take (count * size)
  | 0 => by simp
  | count + 1 => by
    rw [List.range_succ, List.map_append, List.flatten_append, flatten_pieces l size count,
      Nat.succ_mul, List.take_add]
    simp

section Messages

variable {rawHid : RawHid} {inputSize : UInt32}

theorem toNat_reportBytes (rawHid : RawHid) :
    (rawHid.dwSizeHid.toUInt64 * rawHid.dwCount.toUInt64).toNat
      = rawHid.dwSizeHid.toNat * rawHid.dwCount.toNat := by
  have hlt := Nat.mul_lt_mul'' rawHid.dwSizeHid.toNat_lt rawHid.dwCount.toNat_lt
  simp only [UInt64.toNat_mul, UInt32.toNat_toUInt64]
  exact Nat.mod_eq_of_lt hlt

/-- What `processHid` compares is whether the message holds the reports. -/
theorem reportBytes_le (hsize : inputSize.toNat = 32 + rawHid.bRawData.length)
    (hroom : hidHeaderSize ≤ inputSize.toUInt64 - rawInputHeaderSize)
    (hfits : rawHid.dwSizeHid.toUInt64 * rawHid.dwCount.toUInt64
      ≤ inputSize.toUInt64 - rawInputHeaderSize - hidHeaderSize) :
    rawHid.dwSizeHid.toNat * rawHid.dwCount.toNat ≤ rawHid.bRawData.length := by
  have hheader : rawInputHeaderSize ≤ inputSize.toUInt64 := by
    rw [UInt64.le_iff_toNat_le, UInt32.toNat_toUInt64, hsize]
    exact Nat.le_add_right_of_le (by decide)
  have havailable : (inputSize.toUInt64 - rawInputHeaderSize).toNat
      = 8 + rawHid.bRawData.length := by
    rw [UInt64.toNat_sub_of_le _ _ hheader, UInt32.toNat_toUInt64, hsize]
    show 32 + rawHid.bRawData.length - 24 = _
    omega
  rw [UInt64.le_iff_toNat_le, toNat_reportBytes, UInt64.toNat_sub_of_le _ _ hroom,
    havailable] at hfits
  exact hfits.trans (Nat.add_sub_cancel_left 8 _).le

theorem length_piece {α : Type*} {l : List α} {size count index : ℕ}
    (hfits : size * count ≤ l.length) (hindex : index < count) :
    (((l.take (size * count)).drop (index * size)).take size).length = size := by
  have hpiece : index * size + size ≤ size * count := by
    rw [← Nat.succ_mul, Nat.mul_comm]
    exact Nat.mul_le_mul_left size hindex
  simp only [List.length_take, List.length_drop]
  omega

/-- A message is cut into its reports, all of the stated size and none reaching beyond it. -/
theorem processHid_eq_run (parser : HidParser) (s : WinRawInput) (receivedInBackground : Bool)
    (order : ℕ → HashOrder) (hsize : inputSize.toNat = 32 + rawHid.bRawData.length) :
    ∃ reports : List HidReport,
      s.processHid parser rawHid inputSize receivedInBackground order = s.run parser reports
      ∧ (reports.map HidReport.report).flatten <+: rawHid.bRawData
      ∧ ∀ r ∈ reports, r.report.length = rawHid.dwSizeHid.toNat
        ∧ r.receivedInBackground = receivedInBackground := by
  unfold processHid
  dsimp only
  split_ifs with hnone hlarge
  · exact ⟨[], rfl, by simp, by simp⟩
  · exact ⟨[], rfl, by simp, by simp⟩
  simp only [Bool.or_eq_true, decide_eq_true_eq, not_or, gt_iff_lt] at hlarge
  have hfits := reportBytes_le hsize (UInt64.not_lt.1 hlarge.1) (UInt64.not_lt.1 hlarge.2)
  refine ⟨(List.range rawHid.dwCount.toNat).map fun index =>
    ⟨((rawHid.bRawData.take (rawHid.dwSizeHid.toNat * rawHid.dwCount.toNat)).drop
      (index * rawHid.dwSizeHid.toNat)).take rawHid.dwSizeHid.toNat, receivedInBackground,
        order index⟩, ?_, ?_, ?_⟩
  · rw [run, List.foldl_map, toNat_reportBytes, UInt32.toNat_toUInt64, UInt32.toNat_toUInt64]
  · rw [List.map_map, Function.comp_def, flatten_pieces]
    exact (List.take_prefix _ _).trans (List.take_prefix _ _)
  · intro r hr
    obtain ⟨index, hindex, rfl⟩ := List.mem_map.1 hr
    exact ⟨length_piece hfits (List.mem_range.1 hindex), rfl⟩

end Messages

/-! ## What the sink is told -/

/-- After the reports a button is pressed if the last report that parsed under some id says so. -/
theorem Follows.mem_allPressedButtons (h : Follows parser start reports s)
    {usagePage usage : UInt16} :
    hidButtonKey usagePage usage ∈ s.hid.allPressedButtons
      ↔ ∃ reportId report, start.hid.lastParsed parser reportId reports = some report
        ∧ (usagePage, usage) ∈ start.hid.usageSet parser report := by
  rw [HidDeviceState.mem_allPressedButtons]
  simp only [h.kept, Option.map_eq_some_iff]
  constructor
  · rintro ⟨reportId, _, ⟨report, hlast, rfl⟩, hmem⟩
    have hid := HidDeviceState.reportId_of_lastParsed hlast
    exact ⟨reportId, report, hlast, (HidDeviceState.hidButtonKey_mem_scan hid).1 hmem⟩
  · rintro ⟨reportId, report, hlast, hmem⟩
    have hid := HidDeviceState.reportId_of_lastParsed hlast
    exact ⟨reportId, _, ⟨report, hlast, rfl⟩, (HidDeviceState.hidButtonKey_mem_scan hid).2 hmem⟩

/-- With `PushToTalkBindingEngine` as its sink, the source keeps held there what the reports hold
pressed. -/
theorem engine_holds_reports (parser : HidParser) (deviceId preparsedData : Bytes)
    (reportGroups : List HidReportGroup) (reports : List HidReport) (bindings : List InputBinding)
    (usagePage usage : UInt16) :
    let start := initial deviceId preparsedData reportGroups
    hidControl deviceId usagePage usage ∈ (PttOp.run (.setBindings bindings
        :: (start.run parser reports).sink.map PttOp.onInputEvent)).1.pressedControls
      ↔ Holdable (hidControl deviceId usagePage usage) ∧ ∃ reportId report,
        start.hid.lastParsed parser reportId (reports.map HidReport.report) = some report
          ∧ (usagePage, usage) ∈ start.hid.usageSet parser report := by
  intro start
  have h := follows_run parser deviceId preparsedData reportGroups reports
  have htells := h.tells usagePage usage
  have hset : ¬(PttOp.setBindings bindings).Presses (hidControl deviceId usagePage usage) := id
  have hsince := since_iff_getLast?
    (fun event => event.control = hidControl deviceId usagePage usage) InputEvent.pressed
    (start.run parser reports).sink
  simp only [decide_eq_true_eq] at hsince
  rw [mem_pressedControls_run, since_cons_of_not hset, since_map, ← h.mem_allPressedButtons,
    ← decide_eq_true_iff (p := _ ∈ _), ← htells.getLast?_iff]
  exact and_congr_right fun _ => hsince

/-- After every report the sink was last told that a button is pressed if and only if it is in the
usages of the last report that parsed under some id; it was told presses and releases in turn, a
press first; and a report of which no group of its id parses changes nothing. -/
theorem sink_follows_reports (parser : HidParser) (deviceId preparsedData : Bytes)
    (reportGroups : List HidReportGroup) (reports : List HidReport) :
    let start := initial deviceId preparsedData reportGroups
    let s := start.run parser reports
    (∀ usagePage usage, (s.told (hidControl deviceId usagePage usage)).getLast? = some true
      ↔ ∃ reportId report,
        start.hid.lastParsed parser reportId (reports.map HidReport.report) = some report
          ∧ (usagePage, usage) ∈ start.hid.usageSet parser report)
    ∧ (∀ usagePage usage, Alternates false (s.told (hidControl deviceId usagePage usage)))
    ∧ ∀ r, (∀ group ∈ start.hid.matchingGroups r.report,
        start.hid.usages parser group r.report = none) →
      s.processHidReport parser r = s := by
  intro start s
  have h : Follows parser start (reports.map HidReport.report) s :=
    follows_run parser deviceId preparsedData reportGroups reports
  refine ⟨fun usagePage usage => ?_, fun usagePage usage => (h.tells usagePage usage).alternates,
    fun r hnone => processHidReport_of_not_parses ?_⟩
  · have htells : Tells (s.told (hidControl deviceId usagePage usage)) _ := h.tells usagePage usage
    rw [← h.mem_allPressedButtons, htells.getLast?_iff, decide_eq_true_iff]
  · rw [h.hid]
    exact HidDeviceState.parses_eq_false_iff.2 hnone

section Samples

theorem coe_ascending (keys : Finset UInt32) :
    ((keys.sort (· ≤ ·) : List UInt32) : Multiset UInt32) = keys.val := Finset.sort_eq _ _

def ascending : HashOrder := ⟨fun keys => keys.sort (· ≤ ·), coe_ascending⟩

/-- Takes every byte behind the id for a usage. -/
def bytewise : HidParser where
  maxUsageListLength _ _ := 4
  getUsages _ _ _ report _ := some ((report.drop 1).map UInt8.toUInt16)

def padGroups : List HidReportGroup := [⟨9, 0, 1⟩, ⟨9, 0, 2⟩]

/-- Both ids tell of a press of one button, and one of them of its release. -/
def padReports : List HidReport :=
  [⟨[1, 5], false, ascending⟩, ⟨[2, 5], false, ascending⟩, ⟨[1], false, ascending⟩]

theorem sink_follows_reports_shared :
    let s := (initial (bytes "pad") [] padGroups).run bytewise padReports
    (s.told (hidControl (bytes "pad") 9 5)).getLast? = some true
      ∧ s.processHidReport bytewise ⟨[3, 5], false, ascending⟩ = s := by
  have h := sink_follows_reports bytewise (bytes "pad") [] padGroups padReports
  exact ⟨(h.1 9 5).2 ⟨2, [2, 5], by decide, by decide⟩, h.2.2 _ (by decide)⟩

end Samples

end WinRawInput

end VoxTree

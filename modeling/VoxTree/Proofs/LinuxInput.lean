import Mathlib.Data.List.Range
import VoxTree.Lib.Keyed
import VoxTree.LinuxInput
import VoxTree.Proofs.PttHistory

/-!
# The engine mirrors the controllers

What the engine holds is what the records that were read say (`Mirrored.read`), and what is still
pending leads from there to what is held (`Mirrored.pending`). Both are kept unless records are
discarded that change a button, or two controllers share a device identifier and a release or a
removal of one is taken for the other's.
-/

namespace VoxTree

/-! ## Replays -/

theorem replay_append (records records' : List EvdevRecord) (buttons : UInt16 → Bool) :
    replay (records ++ records') buttons = replay records' (replay records buttons) :=
  List.foldl_append

theorem replay_cons (record : EvdevRecord) (records : List EvdevRecord) (buttons : UInt16 → Bool) :
    replay (record :: records) buttons = replay records (replay [record] buttons) := rfl

theorem replay_singleton_other {record : EvdevRecord} (h : record.isButton = false)
    (buttons : UInt16 → Bool) : replay [record] buttons = buttons := by
  simp [replay, h]

theorem replay_singleton_button {record : EvdevRecord} (h : record.isButton = true)
    (buttons : UInt16 → Bool) :
    replay [record] buttons = Function.update buttons record.code (record.value = 1) := by
  simp [replay, h]

/-- What records say of a button depends on nothing but this button. -/
theorem replay_congr {code : UInt16} :
    ∀ (records : List EvdevRecord) {buttons buttons' : UInt16 → Bool},
    buttons code = buttons' code → replay records buttons code = replay records buttons' code
  | [], _, _, h => h
  | record :: records, buttons, buttons', h => by
    rw [replay_cons, replay_cons record records buttons']
    refine replay_congr records ?_
    rcases hbutton : record.isButton with _ | _
    · rw [replay_singleton_other hbutton, replay_singleton_other hbutton, h]
    · rw [replay_singleton_button hbutton, replay_singleton_button hbutton]
      by_cases hcode : code = record.code
      · rw [hcode, Function.update_self, Function.update_self]
      · rw [Function.update_of_ne hcode, Function.update_of_ne hcode, h]

theorem isButton_button (code : UInt16) (pressed : Bool) :
    (EvdevRecord.button code pressed).isButton = true := by
  cases pressed <;> rfl

theorem value_button (code : UInt16) (pressed : Bool) :
    decide ((EvdevRecord.button code pressed).value = 1) = pressed := by
  cases pressed <;> rfl

/-! ## Devices -/

/-- What holds of a device that was opened: its buttons have codes and numbers of their own. -/
structure LinuxDevice.Numbered (device : LinuxDevice) : Prop where
  codes : (device.eventCodeToUsage.map Prod.fst).Nodup
  usages : (device.eventCodeToUsage.map Prod.snd).Nodup
  positive : ∀ entry ∈ device.eventCodeToUsage, entry.2 ≠ 0
  deviceId : device.profile.deviceId ≠ []

theorem ofNat_inj {m n : ℕ} (hm : m < UInt16.size) (hn : n < UInt16.size)
    (h : UInt16.ofNat m = UInt16.ofNat n) : m = n := by
  have h := congrArg UInt16.toNat h
  rwa [UInt16.toNat_ofNat_of_lt' hm, UInt16.toNat_ofNat_of_lt' hn] at h

/-- Numbering few codes gives each a number of its own. -/
theorem usages_nodup {codes : List UInt16} (h : codes.length < UInt16.size - 1) :
    ((codes.zipIdx 1).map fun entry => UInt16.ofNat entry.2).Nodup
      ∧ ∀ entry ∈ codes.zipIdx 1, UInt16.ofNat entry.2 ≠ 0 := by
  have hbound : ∀ entry ∈ codes.zipIdx 1, 1 ≤ entry.2 ∧ entry.2 < UInt16.size := by
    intro entry hentry
    have hmem : entry.2 ∈ (codes.zipIdx 1).map Prod.snd := List.mem_map_of_mem hentry
    rw [List.zipIdx_map_snd, List.mem_range'_1] at hmem
    omega
  constructor
  · have hnumbers : ((codes.zipIdx 1).map Prod.snd).Nodup := by
      rw [List.zipIdx_map_snd]
      exact List.nodup_range'
    refine List.Nodup.map_on (fun x hx y hy hxy => ?_) (List.Nodup.of_map _ hnumbers)
    have hsame := ofNat_inj (hbound x hx).2 (hbound y hy).2 hxy
    exact List.inj_on_of_nodup_map hnumbers hx hy hsame
  · intro entry hentry hzero
    have hsame := ofNat_inj (m := entry.2) (n := 0) (hbound entry hentry).2 (by decide) hzero
    have hpos := (hbound entry hentry).1
    omega

theorem LinuxDevice.numbered (device : UdevDevice) (opened : OpenedDevice) (node : Bytes) :
    LinuxDevice.Numbered ⟨node, profileFor device opened node, buttonMap opened.keyBits⟩ := by
  have hcodes : (((List.range' buttonMisc (keyMax + 1 - buttonMisc)).map UInt16.ofNat).filter
      opened.keyBits).Nodup := by
    refine List.Nodup.filter _ (List.Nodup.map_on (fun m hm n hn h => ?_) List.nodup_range')
    have hm := List.mem_range'_1.1 hm
    have hn := List.mem_range'_1.1 hn
    simp only [buttonMisc, keyMax] at hm hn
    have hsize : UInt16.size = 65536 := rfl
    exact ofNat_inj (by omega) (by omega) h
  have hlength : (((List.range' buttonMisc (keyMax + 1 - buttonMisc)).map UInt16.ofNat).filter
      opened.keyBits).length ≤ 512 := by
    refine le_trans (List.length_filter_le _ _) ?_
    simp [buttonMisc, keyMax]
  obtain ⟨husages, hpositive⟩ := usages_nodup (Nat.lt_of_le_of_lt hlength (by decide))
  constructor
  · show ((buttonMap opened.keyBits).map Prod.fst).Nodup
    unfold buttonMap
    rw [List.map_map]
    exact (List.zipIdx_map_fst 1 _).symm ▸ hcodes
  · show ((buttonMap opened.keyBits).map Prod.snd).Nodup
    unfold buttonMap
    rw [List.map_map]
    exact husages
  · show ∀ entry ∈ buttonMap opened.keyBits, entry.2 ≠ 0
    exact List.forall_mem_map.2 hpositive
  · show stableDeviceId device node ≠ []
    exact List.append_ne_nil_of_left_ne_nil (by decide) _

namespace LinuxInput

/-! ## What every step keeps -/

structure Mirrored (s : LinuxInput) : Prop where
  nodes : (s.controllers.map fun c => c.device.node).Nodup
  numbered : ∀ c ∈ s.controllers, c.device.Numbered
  engine : s.engine.Consistent
  /-- The engine holds what the records that were read say. -/
  read : ∀ control, control ∈ s.engine.pressedControls
    ↔ ∃ c ∈ s.controllers, ∃ entry ∈ c.device.eventCodeToUsage,
      control = c.device.control entry.2 ∧ c.read entry.1 = true
  /-- What is pending leads from there to what is held. -/
  pending : ∀ c ∈ s.controllers, ∀ entry ∈ c.device.eventCodeToUsage,
    replay c.pending c.read entry.1 = (c.held entry.1 && c.since entry.1)

variable {s : LinuxInput}

theorem mirrored_initial (bindings : List InputBinding) : Mirrored (initial bindings) := by
  have hengine := PushToTalkBindingEngine.consistent_initial.call (.setBindings bindings)
  refine ⟨List.nodup_nil, by simp [initial], hengine, fun control => ?_, by simp [initial]⟩
  simp only [initial, List.not_mem_nil, false_and, exists_false, iff_false]
  intro hmem
  have hheld := (PushToTalkBindingEngine.consistent_initial.mem_pressedControls_call
    (.setBindings bindings)).1 hmem
  simp only [PttOp.Presses, and_false, List.not_mem_nil, false_and, or_false] at hheld

theorem mem_atNode {node : Bytes} {f : Controller → Controller} {c : Controller} :
    c ∈ (s.atNode node f).controllers
      ↔ ∃ d ∈ s.controllers, c = if d.device.node = node then f d else d := by
  simp [atNode, eq_comm]

theorem map_atNode {γ : Type*} {node : Bytes} {f : Controller → Controller} {g : Controller → γ}
    (h : ∀ c, g (f c) = g c) : (s.atNode node f).controllers.map g = s.controllers.map g := by
  unfold atNode
  rw [List.map_map]
  refine List.map_congr_left fun c _ => ?_
  show g (if c.device.node = node then f c else c) = g c
  split
  · exact h c
  · rfl

/-- Changes of a controller that leave its device and what was read of it alone. -/
theorem Mirrored.atNode (h : s.Mirrored) {node : Bytes} {f : Controller → Controller}
    (hdevice : ∀ c, (f c).device = c.device) (hread : ∀ c, (f c).read = c.read)
    (hpending : ∀ c ∈ s.controllers, ∀ entry ∈ c.device.eventCodeToUsage,
      c.device.node = node →
        replay (f c).pending c.read entry.1 = ((f c).held entry.1 && (f c).since entry.1)) :
    (s.atNode node f).Mirrored := by
  have hnodes : (s.atNode node f).controllers.map (fun c => c.device.node)
      = s.controllers.map fun c => c.device.node :=
    map_atNode fun c => by rw [hdevice]
  have hsame : ∀ c : Controller, (if c.device.node = node then f c else c).device = c.device
      ∧ (if c.device.node = node then f c else c).read = c.read := by
    intro c
    split
    · exact ⟨hdevice c, hread c⟩
    · exact ⟨rfl, rfl⟩
  refine ⟨hnodes ▸ h.nodes, fun c hc => ?_, h.engine, fun control => ?_, fun c hc entry hentry => ?_⟩
  · obtain ⟨d, hd, rfl⟩ := mem_atNode.1 hc
    rw [(hsame d).1]
    exact h.numbered d hd
  · refine (h.read control).trans ⟨?_, ?_⟩
    · rintro ⟨c, hc, entry, hentry, hcontrol, hpressed⟩
      refine ⟨_, mem_atNode.2 ⟨c, hc, rfl⟩, entry, ?_⟩
      rw [(hsame c).1, (hsame c).2]
      exact ⟨hentry, hcontrol, hpressed⟩
    · rintro ⟨d, hd, entry, hentry, hcontrol, hpressed⟩
      obtain ⟨c, hc, rfl⟩ := mem_atNode.1 hd
      rw [(hsame c).1] at hentry hcontrol
      rw [(hsame c).2] at hpressed
      exact ⟨c, hc, entry, hentry, hcontrol, hpressed⟩
  · obtain ⟨d, hd, rfl⟩ := mem_atNode.1 hc
    rw [(hsame d).1] at hentry
    rw [(hsame d).2]
    split
    · exact hpending d hd entry hentry ‹_›
    · exact h.pending d hd entry hentry

theorem Mirrored.button (h : s.Mirrored) (node : Bytes) (code : UInt16) (pressed : Bool) :
    (s.atNode node fun c => { c with
      pending := c.pending ++ [.button code pressed]
      held := Function.update c.held code pressed
      since := if pressed then Function.update c.since code true else c.since }).Mirrored := by
  refine h.atNode (fun _ => rfl) (fun _ => rfl) fun c hc entry hentry _ => ?_
  have hpending := h.pending c hc entry hentry
  rw [replay_append, replay_singleton_button (isButton_button code pressed), value_button]
  by_cases hcode : entry.1 = code
  · cases pressed <;> simp [hcode, EvdevRecord.button]
  · have hne : entry.1 ≠ (EvdevRecord.button code pressed).code := hcode
    rw [Function.update_of_ne hne, hpending]
    cases pressed <;> simp [hcode]

theorem Mirrored.other (h : s.Mirrored) (node : Bytes) {record : EvdevRecord}
    (hrecord : record.isButton = false) :
    (s.atNode node fun c => { c with pending := c.pending ++ [record] }).Mirrored := by
  refine h.atNode (fun _ => rfl) (fun _ => rfl) fun c hc entry hentry _ => ?_
  rw [replay_append, replay_singleton_other hrecord]
  exact h.pending c hc entry hentry

theorem Mirrored.discard (h : s.Mirrored) {node : Bytes} {keep lost : ℕ}
    (hguard : s.undisturbed (.discard node keep lost) = true) :
    (s.atNode node fun c => { c with
      pending := c.pending.take keep ++ .dropped :: c.pending.drop (keep + lost) }).Mirrored := by
  refine h.atNode (fun _ => rfl) (fun _ => rfl) fun c hc entry hentry hnode => ?_
  have hsame : replay (c.pending.take keep) c.read entry.1
      = replay (c.pending.take (keep + lost)) c.read entry.1 := by
    have hc := List.all_eq_true.1 hguard c hc
    simp only [hnode, ne_eq, not_true_eq_false, decide_false, Bool.false_or] at hc
    exact of_decide_eq_true (List.all_eq_true.1 hc entry hentry)
  have hdropped : EvdevRecord.dropped.isButton = false := rfl
  rw [replay_append, replay_cons, replay_singleton_other hdropped, replay_congr _ hsame,
    ← replay_append, List.take_append_drop]
  exact h.pending c hc entry hentry

/-! ### Reading -/

theorem Mirrored.eq_of_node (h : s.Mirrored) {c d : Controller} (hc : c ∈ s.controllers)
    (hd : d ∈ s.controllers) (hnode : c.device.node = d.device.node) : c = d :=
  List.inj_on_of_nodup_map h.nodes hc hd hnode

theorem holdable_control {device : LinuxDevice} (h : device.Numbered)
    {entry : UInt16 × UInt16} (hentry : entry ∈ device.eventCodeToUsage) :
    Holdable (device.control entry.2) := by
  refine ⟨?_, h.deviceId⟩
  simp [validControl, LinuxDevice.control, hidButtonUsagePage, h.positive entry hentry]

theorem control_inj {device : LinuxDevice} (h : device.Numbered) {entry entry' : UInt16 × UInt16}
    (hentry : entry ∈ device.eventCodeToUsage) (hentry' : entry' ∈ device.eventCodeToUsage)
    (hcontrol : device.control entry.2 = device.control entry'.2) : entry = entry' :=
  List.inj_on_of_nodup_map h.usages hentry hentry' (congrArg InputControl.code hcontrol)

/-- Which controls are held after a record was read. -/
theorem Mirrored.mem_readEvent (h : s.Mirrored) {device : LinuxDevice} (hdevice : device.Numbered)
    {record : EvdevRecord} (hbutton : record.isButton = true) {entry : UInt16 × UInt16}
    (hentry : entry ∈ device.eventCodeToUsage) (hcode : entry.1 = record.code)
    {control : InputControl} :
    control ∈ (device.readEvent s.engine record).pressedControls
      ↔ (control = device.control entry.2 ∧ record.value = 1)
        ∨ (control ∈ s.engine.pressedControls
          ∧ ¬(control = device.control entry.2 ∧ record.value ≠ 1)) := by
  have hfind : (device.eventCodeToUsage.find? fun e => e.1 = record.code) = some entry :=
    (Keyed.find?_eq_some_iff hdevice.codes).2 ⟨hentry, hcode⟩
  unfold LinuxDevice.readEvent
  rw [hbutton, hfind]
  simp only [Bool.not_true, Bool.false_eq_true, if_false]
  rw [h.engine.mem_onInputEvent]
  simp only [PttOp.Presses, PttOp.Releases, decide_eq_true_eq, decide_eq_false_iff_not,
    eq_comm (a := device.control entry.2)]
  constructor
  · rintro (⟨-, hpress⟩ | hheld)
    · exact .inl hpress
    · exact .inr hheld
  · rintro (hpress | hheld)
    · exact .inl ⟨hpress.1 ▸ holdable_control hdevice hentry, hpress⟩
    · exact .inr hheld

theorem LinuxDevice.readEvent_eq {device : LinuxDevice} {e : PushToTalkBindingEngine}
    {record : EvdevRecord} (h : ∀ entry ∈ device.eventCodeToUsage, entry.1 ≠ record.code) :
    device.readEvent e record = e := by
  have hfind : (device.eventCodeToUsage.find? fun e => e.1 = record.code) = none :=
    Keyed.find?_eq_none_iff.2 h
  unfold LinuxDevice.readEvent
  rw [hfind]
  split <;> rfl

section ReadEvent

variable {c : Controller} {record : EvdevRecord} {rest : List EvdevRecord}

/-- The state after the next record of `c` was read. -/
def afterRead (s : LinuxInput) (c : Controller) (record : EvdevRecord) (rest : List EvdevRecord) :
    LinuxInput :=
  { s.atNode c.device.node fun c => { c with pending := rest, read := replay [record] c.read } with
    engine := c.device.readEvent s.engine record }

/-- What the records read so far say of a controller, after one more of `c`. -/
def readBy (c : Controller) (record : EvdevRecord) (d : Controller) : UInt16 → Bool :=
  if d.device.node = c.device.node then replay [record] d.read else d.read

/-- The engine and the records agree after the read if they do button by button. -/
theorem Mirrored.of_read (h : s.Mirrored) (hc : c ∈ s.controllers)
    (hpending : c.pending = record :: rest)
    (hread : ∀ control, control ∈ (c.device.readEvent s.engine record).pressedControls
      ↔ ∃ d ∈ s.controllers, ∃ entry ∈ d.device.eventCodeToUsage,
        control = d.device.control entry.2 ∧ readBy c record d entry.1 = true) :
    (afterRead s c record rest).Mirrored := by
  have hnodes : (afterRead s c record rest).controllers.map (fun c => c.device.node)
      = s.controllers.map fun c => c.device.node := map_atNode fun _ => rfl
  have hsame : ∀ d : Controller, (if d.device.node = c.device.node then
        { d with pending := rest, read := replay [record] d.read } else d).device = d.device
      ∧ (if d.device.node = c.device.node then
        { d with pending := rest, read := replay [record] d.read } else d).read
          = readBy c record d := by
    intro d
    unfold readBy
    split <;> exact ⟨rfl, rfl⟩
  refine ⟨hnodes ▸ h.nodes, fun d hd => ?_, ?_, fun control => ?_, fun d hd entry hentry => ?_⟩
  · obtain ⟨b, hb, rfl⟩ := mem_atNode.1 hd
    rw [(hsame b).1]
    exact h.numbered b hb
  · show (c.device.readEvent s.engine record).Consistent
    unfold LinuxDevice.readEvent
    split
    · exact h.engine
    split
    · exact h.engine
    · exact h.engine.call (.onInputEvent _)
  · refine (hread control).trans ⟨?_, ?_⟩
    · rintro ⟨d, hd, entry, hentry, hcontrol, hpressed⟩
      refine ⟨_, mem_atNode.2 ⟨d, hd, rfl⟩, entry, ?_⟩
      rw [(hsame d).1, (hsame d).2]
      exact ⟨hentry, hcontrol, hpressed⟩
    · rintro ⟨d, hd, entry, hentry, hcontrol, hpressed⟩
      obtain ⟨b, hb, rfl⟩ := mem_atNode.1 hd
      rw [(hsame b).1] at hentry hcontrol
      rw [(hsame b).2] at hpressed
      exact ⟨b, hb, entry, hentry, hcontrol, hpressed⟩
  · obtain ⟨b, hb, rfl⟩ := mem_atNode.1 hd
    rw [(hsame b).1] at hentry
    split
    · rename_i hnode
      obtain rfl := h.eq_of_node hb hc hnode
      have hall := h.pending b hb entry hentry
      rwa [hpending, replay_cons] at hall
    · exact h.pending b hb entry hentry

/-- A record that changes no button. -/
theorem readBy_eq (hunchanged : ∀ d ∈ s.controllers, d.device.node = c.device.node →
    ∀ entry ∈ d.device.eventCodeToUsage, record.isButton = false ∨ entry.1 ≠ record.code)
    {d : Controller} (hd : d ∈ s.controllers) {entry : UInt16 × UInt16}
    (hentry : entry ∈ d.device.eventCodeToUsage) :
    readBy c record d entry.1 = d.read entry.1 := by
  unfold readBy
  split
  · rename_i hnode
    rcases hbutton : record.isButton with _ | _
    · rw [replay_singleton_other hbutton]
    · have hcode := (hunchanged d hd hnode entry hentry).resolve_left (by simp [hbutton])
      rw [replay_singleton_button hbutton, Function.update_of_ne hcode]
  · rfl

theorem readBy_other {d : Controller} (hnode : d.device.node ≠ c.device.node) :
    readBy c record d = d.read := if_neg hnode

theorem readBy_self (hbutton : record.isButton = true) :
    readBy c record c = Function.update c.read record.code (record.value = 1) := by
  unfold readBy
  rw [if_pos rfl, replay_singleton_button hbutton]

/-- A record of a button of the controller. -/
theorem Mirrored.read_button (h : s.Mirrored) (hc : c ∈ s.controllers)
    (hbutton : record.isButton = true) {entry : UInt16 × UInt16}
    (hentry : entry ∈ c.device.eventCodeToUsage) (hcode : entry.1 = record.code)
    (hshared : record.value ≠ 1 → s.unshared c.device.node c.device.profile.deviceId
      (fun usage => usage = entry.2) = true) (control : InputControl) :
    control ∈ (c.device.readEvent s.engine record).pressedControls
      ↔ ∃ d ∈ s.controllers, ∃ e ∈ d.device.eventCodeToUsage,
        control = d.device.control e.2 ∧ readBy c record d e.1 = true := by
  have hnumbered := h.numbered c hc
  rw [h.mem_readEvent hnumbered hbutton hentry hcode, h.read]
  have hself : readBy c record c entry.1 = decide (record.value = 1) := by
    rw [readBy_self hbutton, hcode, Function.update_self]
  -- whatever else is the same button of the controller has the same code
  have hkept : ∀ e ∈ c.device.eventCodeToUsage, e ≠ entry → readBy c record c e.1 = c.read e.1 := by
    intro e he hne
    have hcode' : e.1 ≠ record.code := fun heq =>
      hne (List.inj_on_of_nodup_map hnumbered.codes he hentry (heq.trans hcode.symm))
    rw [readBy_self hbutton, Function.update_of_ne hcode']
  constructor
  · rintro (⟨rfl, hpress⟩ | ⟨⟨d, hd, e, he, rfl, hpressed⟩, hnot⟩)
    · exact ⟨c, hc, entry, hentry, rfl, hself.trans (decide_eq_true hpress)⟩
    refine ⟨d, hd, e, he, rfl, ?_⟩
    by_cases hnode : d.device.node = c.device.node
    · obtain rfl := h.eq_of_node hd hc hnode
      by_cases heq : e = entry
      · subst heq
        rw [hself]
        exact decide_eq_true (not_not.1 fun hrelease => hnot ⟨rfl, hrelease⟩)
      · rw [hkept e he heq, hpressed]
    · rw [readBy_other hnode, hpressed]
  · rintro ⟨d, hd, e, he, rfl, hpressed⟩
    by_cases hnode : d.device.node = c.device.node
    · obtain rfl := h.eq_of_node hd hc hnode
      by_cases heq : e = entry
      · subst heq
        rw [hself] at hpressed
        exact .inl ⟨rfl, of_decide_eq_true hpressed⟩
      · rw [hkept e he heq] at hpressed
        refine .inr ⟨⟨d, hd, e, he, rfl, hpressed⟩, ?_⟩
        rintro ⟨hsame, -⟩
        exact heq (control_inj hnumbered he hentry hsame)
    · rw [readBy_other hnode] at hpressed
      refine .inr ⟨⟨d, hd, e, he, rfl, hpressed⟩, ?_⟩
      -- the button of another controller with the same identifier
      rintro ⟨hsame, hrelease⟩
      have hdevice : d.device.profile.deviceId = c.device.profile.deviceId :=
        congrArg InputControl.deviceId hsame
      have husage : e.2 = entry.2 := congrArg InputControl.code hsame
      have hall := List.all_eq_true.1 (hshared hrelease) d hd
      simp only [hnode, hdevice, ne_eq, not_true_eq_false, decide_false, Bool.false_or] at hall
      have hnone := List.all_eq_true.1 hall e he
      simp [hpressed, husage] at hnone

theorem Mirrored.readEvent (h : s.Mirrored) (hc : c ∈ s.controllers)
    (hpending : c.pending = record :: rest)
    (hguard : s.undisturbed (.readEvent c.device.node) = true) :
    (afterRead s c record rest).Mirrored := by
  refine h.of_read hc hpending ?_
  by_cases hbutton : record.isButton = true
  swap
  · have hother : record.isButton = false := by simpa using hbutton
    have hengine : c.device.readEvent s.engine record = s.engine := by
      simp [LinuxDevice.readEvent, hother]
    intro control
    rw [hengine, h.read]
    refine exists_congr fun d => and_congr_right fun hd => exists_congr fun e =>
      and_congr_right fun he => ?_
    rw [readBy_eq (fun _ _ _ _ _ => .inl hother) hd he]
  by_cases hmapped : ∃ entry ∈ c.device.eventCodeToUsage, entry.1 = record.code
  · obtain ⟨entry, hentry, hcode⟩ := hmapped
    refine h.read_button hc hbutton hentry hcode fun hrelease => ?_
    have hall := List.all_eq_true.1 hguard c hc
    simp only [ne_eq, not_true_eq_false, decide_false, Bool.false_or, hpending, List.head?_cons,
      Option.all_some, hbutton, Bool.not_true, hrelease] at hall
    have hone := List.all_eq_true.1 hall entry hentry
    simpa [hcode] using hone
  · have hunmapped : ∀ entry ∈ c.device.eventCodeToUsage, entry.1 ≠ record.code :=
      fun entry hentry hcode => hmapped ⟨entry, hentry, hcode⟩
    intro control
    rw [LinuxDevice.readEvent_eq hunmapped, h.read]
    refine exists_congr fun d => and_congr_right fun hd => exists_congr fun e =>
      and_congr_right fun he => ?_
    rw [readBy_eq (fun d hd hnode entry hentry => .inr ?_) hd he]
    obtain rfl := h.eq_of_node hd hc hnode
    exact hunmapped entry hentry

end ReadEvent

/-! ### Hot-plug events -/

theorem Mirrored.addDevice (h : s.Mirrored) (device : UdevDevice) (answer : Option OpenedDevice)
    (held : UInt16 → Bool) : (s.addDevice device answer held).Mirrored := by
  unfold LinuxInput.addDevice
  rcases device.devnode with _ | node
  · exact h
  rcases answer with _ | opened
  · exact h
  dsimp only
  split_ifs with hrefused
  · exact h
  have hnew : ∀ c ∈ s.controllers, c.device.node ≠ node := by
    intro c hc heq
    refine hrefused ?_
    simp only [Bool.or_eq_true, List.any_eq_true, decide_eq_true_eq]
    exact .inl (.inr ⟨c, hc, heq⟩)
  have hheld : ∀ control, control ∈ (s.engine.onInputDeviceConnected
      (LinuxDevice.profileFor device opened node)).pressedControls
        ↔ control ∈ s.engine.pressedControls := by
    intro control
    refine (h.engine.mem_pressedControls_call (.onInputDeviceConnected _)).trans ?_
    simp [PttOp.Presses, PttOp.Releases]
  refine ⟨?_, ?_, h.engine.call (.onInputDeviceConnected _), fun control => ?_, ?_⟩
  · rw [List.map_append]
    refine List.nodup_append.2 ⟨h.nodes, List.nodup_singleton _, fun m hm n hn heq => ?_⟩
    obtain ⟨c, hc, rfl⟩ := List.mem_map.1 hm
    exact hnew c hc (heq.trans (List.mem_singleton.1 hn))
  · simp only [List.forall_mem_append, List.forall_mem_singleton]
    exact ⟨h.numbered, LinuxDevice.numbered device opened node⟩
  · rw [hheld, h.read]
    constructor
    · rintro ⟨c, hc, hentry⟩
      exact ⟨c, List.mem_append_left _ hc, hentry⟩
    · rintro ⟨c, hc, entry, hentry, hcontrol, hpressed⟩
      rcases List.mem_append.1 hc with hc | hc
      · exact ⟨c, hc, entry, hentry, hcontrol, hpressed⟩
      · rw [List.mem_singleton.1 hc] at hpressed
        cases hpressed
  · simp only [List.forall_mem_append, List.forall_mem_singleton]
    exact ⟨h.pending, fun entry _ => by simp [replay]⟩

theorem Mirrored.removeDevice (h : s.Mirrored) {node : Bytes}
    (hguard : ∀ c ∈ s.controllers, c.device.node = node →
      s.unshared node c.device.profile.deviceId (fun _ => true) = true) :
    (s.removeDevice node).Mirrored := by
  unfold LinuxInput.removeDevice
  split
  · exact h
  rename_i c hfind
  have hc := List.mem_of_find?_eq_some hfind
  have hnode : c.device.node = node := by simpa using List.find?_some hfind
  -- the controllers that are left
  have hleft : ∀ d, d ∈ s.controllers.eraseP (fun c => c.device.node = node)
      ↔ d ∈ s.controllers ∧ d.device.node ≠ node := by
    obtain ⟨a, before, after, hbefore, ha, hsplit, herase⟩ :=
      List.exists_of_eraseP hc (p := fun c => c.device.node = node) (decide_eq_true hnode)
    have hnodes := h.nodes
    rw [hsplit, List.map_append, List.map_cons] at hnodes
    have ha : a.device.node = node := of_decide_eq_true ha
    have hafter : ∀ d ∈ after, d.device.node ≠ node := by
      intro d hd heq
      refine (List.nodup_cons.1 (List.nodup_append.1 hnodes).2.1).1 ?_
      rw [ha, ← heq]
      exact List.mem_map_of_mem hd
    intro d
    rw [herase, hsplit, List.mem_append, List.mem_append, List.mem_cons]
    constructor
    · rintro (hd | hd)
      · exact ⟨.inl hd, by simpa using hbefore d hd⟩
      · exact ⟨.inr (.inr hd), hafter d hd⟩
    · rintro ⟨hd | rfl | hd, hne⟩
      · exact .inl hd
      · exact absurd ha hne
      · exact .inr hd
  refine ⟨h.nodes.sublist (List.eraseP_sublist.map _), fun d hd => h.numbered d ((hleft d).1 hd).1,
    h.engine.call (.onInputDeviceRemoved _), fun control => ?_,
    fun d hd => h.pending d ((hleft d).1 hd).1⟩
  refine (h.engine.mem_pressedControls_call (.onInputDeviceRemoved _)).trans ?_
  simp only [PttOp.Presses, PttOp.Releases, and_false, false_or, h.read]
  constructor
  · rintro ⟨⟨d, hd, entry, hentry, rfl, hpressed⟩, hdevice⟩
    refine ⟨d, (hleft d).2 ⟨hd, fun heq => hdevice ?_⟩, entry, hentry, rfl, hpressed⟩
    obtain rfl := h.eq_of_node hd hc (heq.trans hnode.symm)
    rfl
  · rintro ⟨d, hd, entry, hentry, rfl, hpressed⟩
    obtain ⟨hd, hne⟩ := (hleft d).1 hd
    refine ⟨⟨d, hd, entry, hentry, rfl, hpressed⟩, fun hdevice => ?_⟩
    have hdevice : d.device.profile.deviceId = c.device.profile.deviceId := hdevice.symm
    have hall := List.all_eq_true.1 (hguard c hc hnode) d hd
    simp only [hne, hdevice, ne_eq, not_true_eq_false, decide_false, Bool.false_or] at hall
    simpa [hpressed] using List.all_eq_true.1 hall entry hentry

theorem Mirrored.handleHotPlug (h : s.Mirrored) {event : HotPlugEvent}
    {rest : List HotPlugEvent} (hevent : s.hotPlugs = event :: rest) (answer : Option OpenedDevice)
    (held : UInt16 → Bool) (hguard : s.undisturbed (.handleHotPlug answer held) = true) :
    ({ s with hotPlugs := rest }.handleHotPlug event answer held).Mirrored := by
  have hrest : ({ s with hotPlugs := rest } : LinuxInput).Mirrored :=
    ⟨h.nodes, h.numbered, h.engine, h.read, h.pending⟩
  unfold LinuxInput.handleHotPlug
  split_ifs with hadd hremove
  · exact hrest.addDevice event.device answer held
  · rcases hnode : event.device.devnode with _ | node
    · exact hrest
    refine hrest.removeDevice fun c hc heq => ?_
    simp only [undisturbed, hevent, List.head?_cons, Option.all_some, hremove, ne_eq,
      not_true_eq_false, decide_false, Bool.false_or, hnode] at hguard
    have hall := List.all_eq_true.1 hguard c hc
    simp only [heq, not_true_eq_false, decide_false, Bool.false_or] at hall
    exact hall
  · exact hrest

/-! ## Runs -/

theorem Mirrored.step (h : s.Mirrored) {a : Action} (hguard : s.undisturbed a = true)
    {s' : LinuxInput} (hstep : s.step a = some s') : s'.Mirrored := by
  cases a with
  | hotPlug event =>
    obtain rfl := Option.some.inj hstep
    exact ⟨h.nodes, h.numbered, h.engine, h.read, h.pending⟩
  | handleHotPlug answer held =>
    unfold LinuxInput.step at hstep
    rcases hevent : s.hotPlugs with _ | ⟨event, rest⟩
    · simp [hevent] at hstep
    · simp only [hevent, Option.some.injEq] at hstep
      exact hstep ▸ h.handleHotPlug hevent answer held hguard
  | button node code pressed =>
    simp only [LinuxInput.step] at hstep
    rcases hfind : s.controllers.find? fun c => c.device.node = node with _ | c
    · simp [hfind] at hstep
    rw [hfind] at hstep
    by_cases hheld : c.held code = pressed
    · simp [hheld] at hstep
    · simp only [if_neg hheld, Option.some.injEq] at hstep
      exact hstep ▸ h.button node code pressed
  | other node record =>
    simp only [LinuxInput.step] at hstep
    split_ifs at hstep with hbutton
    obtain rfl := Option.some.inj hstep
    exact h.other node (by simpa using hbutton)
  | discard node keep lost =>
    obtain rfl := Option.some.inj hstep
    exact h.discard hguard
  | readEvent node =>
    simp only [LinuxInput.step] at hstep
    rcases hfind : s.controllers.find? fun c => c.device.node = node with _ | c
    · simp [hfind] at hstep
    obtain rfl : c.device.node = node := by simpa using List.find?_some hfind
    rcases hpending : c.pending with _ | ⟨record, rest⟩
    · simp [hfind, hpending] at hstep
    · simp only [hfind, hpending, Option.some.injEq] at hstep
      exact hstep ▸ h.readEvent (List.mem_of_find?_eq_some hfind) hpending hguard

/-- The engine mirrors the controllers whenever everything has been read, in every run in which no
discarded records change a button and no release or removal is taken for that of another controller
with the same identifier. -/
theorem linux_input_mirrors {bindings : List InputBinding} {as : List Action} {s : LinuxInput}
    (h : Machine.Runs LinuxInput.step (fun s a => s.undisturbed a = true) (initial bindings) as s)
    (hquiescent : s.Quiescent) : s.Mirrors := by
  have hmirrored : s.Mirrored :=
    h.invariant (fun _ _ _ hs hguard hstep => hs.step hguard hstep) (mirrored_initial bindings)
  intro control
  rw [hmirrored.read]
  refine exists_congr fun c => and_congr_right fun hc => exists_congr fun entry =>
    and_congr_right fun hentry => and_congr_right fun _ => ?_
  have hpending := hmirrored.pending c hc entry hentry
  rw [hquiescent.2 c hc] at hpending
  rw [← Bool.and_eq_true, ← hpending]
  rfl

section Sample

/-- A joystick with one button. -/
def joystick (node : UInt8) : List Action :=
  [.hotPlug ⟨some (bytes "add"), { serial := [1], joystick := bytes "1", devnode := some [node] }⟩,
    .handleHotPlug (some { keyBits := fun code => code = 0x120 }) fun _ => false]

/-- The button goes down, and its record is read. -/
def pressAndRead (node : UInt8) : List Action := [.button [node] 0x120 true, .readEvent [node]]

/-- Whether everything is read and the engine holds the button. -/
def holdsButton (s : LinuxInput) : Bool :=
  s.hotPlugs.isEmpty && s.controllers.all (fun c => c.pending.isEmpty)
    && s.engine.pressedControls.contains ⟨.gameController, 9, 1, false, bytes "linux-input:\x01"⟩

theorem quiescent_of_holdsButton (h : holdsButton s = true) : s.Quiescent := by
  simp only [holdsButton, Bool.and_eq_true, List.isEmpty_iff, List.all_eq_true] at h
  exact h.1

/-- A button that goes down is mirrored. -/
theorem linux_input_mirrors_press : ∃ s : LinuxInput,
    Machine.Runs LinuxInput.step (fun s a => s.undisturbed a = true) (initial [])
        (joystick 1 ++ pressAndRead 1) s
      ∧ s.Quiescent ∧ s.Mirrors := by
  obtain ⟨s, hrun, hholds⟩ := Machine.exists_run_restrict undisturbed LinuxInput.step
    (joystick 1 ++ pressAndRead 1) (s := initial []) (p := holdsButton) (by decide +kernel)
  have hquiescent := quiescent_of_holdsButton hholds
  exact ⟨s, hrun, hquiescent, linux_input_mirrors hrun hquiescent⟩

/-- The kernel discards the release: everything has been read, no button is held, and the engine
holds the button. -/
theorem linux_input_stuck : ∃ s : LinuxInput,
    Machine.Runs LinuxInput.step Machine.Free (initial [])
        (joystick 1 ++ pressAndRead 1
          ++ [.button [1] 0x120 false, .discard [1] 0 1, .readEvent [1]]) s
      ∧ s.Quiescent ∧ ¬s.Mirrors := by
  obtain ⟨s, hrun, hs⟩ := Machine.exists_run LinuxInput.step
    (joystick 1 ++ pressAndRead 1
      ++ [.button [1] 0x120 false, .discard [1] 0 1, .readEvent [1]]) (s := initial [])
    (p := fun s => holdsButton s && s.controllers.all fun c =>
      c.device.eventCodeToUsage.all fun entry => !c.held entry.1) (by decide +kernel)
  obtain ⟨hholds, hreleased⟩ := Bool.and_eq_true_iff.1 hs
  refine ⟨s, hrun, quiescent_of_holdsButton hholds, fun hmirrors => ?_⟩
  have hheld := (Bool.and_eq_true_iff.1 hholds).2
  obtain ⟨c, hc, entry, hentry, -, hpressed, -⟩ := (hmirrors _).1 (List.contains_iff_mem.1 hheld)
  have hnone := List.all_eq_true.1 (List.all_eq_true.1 hreleased c hc) entry hentry
  rw [hpressed] at hnone
  cases hnone

end Sample

end LinuxInput

end VoxTree

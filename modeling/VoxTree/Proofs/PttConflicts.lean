import Mathlib.Data.Finset.Card
import Mathlib.Data.List.Sort
import Mathlib.Data.List.Zip
import VoxTree.PttInput

/-!
# Which bindings can be pressed together

`validateBindings` compares two sorted chords position by position. Two bindings can be pressed by at
most `n` held controls iff their chords name at most `n` controls, a control of any device counted
only where no other control is its button (`pressedTogether_iff`). The two agree where no chord
names a button both on any device and on a certain one (`chordsOverlap_of_card_le`), and not in
general.
-/

namespace VoxTree

/-! ## What is accepted -/

/-- `binding` is refused behind `previous`. -/
def Clashes (previous binding : InputBinding) : Prop :=
  normalizedChord binding = normalizedChord previous
    ∨ (binding.action ≠ previous.action
      ∧ chordsOverlap (normalizedChord binding) (normalizedChord previous) = true)

theorem clashError_eq_none_iff {index : ℕ} {binding : InputBinding}
    {previous : List InputBinding} :
    clashError index binding (normalizedChord binding)
        (previous.map fun b => (b, normalizedChord b)) = none
      ↔ ∀ b ∈ previous, ¬Clashes b binding := by
  unfold clashError
  rw [Option.map_eq_none_iff, List.find?_eq_none]
  simp [Clashes]

theorem chordError_isNone (index index' : ℕ) (chord : List InputControl) :
    chordError index chord = none ↔ chordError index' chord = none := by
  unfold chordError
  split_ifs <;> simp

theorem validateFrom_eq_nil_iff : ∀ (index : ℕ) (previous bindings : List InputBinding),
    validateFrom index (previous.map fun b => (b, normalizedChord b)) bindings = []
      ↔ (∀ b ∈ bindings, chordError 0 (normalizedChord b) = none)
        ∧ (∀ b ∈ previous, ∀ b' ∈ bindings, ¬Clashes b b')
        ∧ bindings.Pairwise fun b b' => ¬Clashes b b'
  | index, previous, [] => by simp [validateFrom]
  | index, previous, binding :: rest => by
    have hrest := validateFrom_eq_nil_iff (index + 1) (previous ++ [binding]) rest
    rw [List.map_append, List.map_singleton] at hrest
    rw [validateFrom, List.append_eq_nil_iff, List.append_eq_nil_iff, hrest,
      Option.toList_eq_nil_iff, Option.toList_eq_nil_iff, clashError_eq_none_iff,
      chordError_isNone index 0]
    simp only [List.forall_mem_cons, List.forall_mem_append, List.pairwise_cons, List.not_mem_nil,
      false_implies, implies_true, and_true]
    constructor
    · rintro ⟨⟨hchord, hprevious⟩, hchords, ⟨hbefore, hbinding⟩, hpairs⟩
      exact ⟨⟨hchord, hchords⟩, fun b hb => ⟨hprevious b hb, hbefore b hb⟩, hbinding, hpairs⟩
    · rintro ⟨⟨hchord, hchords⟩, hprevious, hbinding, hpairs⟩
      exact ⟨⟨hchord, fun b hb => (hprevious b hb).1⟩, hchords,
        ⟨fun b hb => (hprevious b hb).2, hbinding⟩, hpairs⟩

theorem validateBindings_eq_nil_iff {bindings : List InputBinding} :
    validateBindings bindings = []
      ↔ (∀ b ∈ bindings, chordError 0 (normalizedChord b) = none)
        ∧ bindings.Pairwise fun b b' => ¬Clashes b b' := by
  have h := validateFrom_eq_nil_iff 0 [] bindings
  rw [List.map_nil] at h
  unfold validateBindings
  rw [h]
  simp

theorem mem_normalizedChord {binding : InputBinding} {control : InputControl} :
    control ∈ normalizedChord binding ↔ control ∈ binding.chord :=
  (List.mergeSort_perm _ _).mem_iff

theorem chord_ne_nil_of_accepted {bindings : List InputBinding}
    (h : validateBindings bindings = []) {b : InputBinding} (hb : b ∈ bindings) :
    b.chord ≠ [] := by
  intro hnil
  have hchord := (validateBindings_eq_nil_iff.1 h).1 b hb
  have hnormal : normalizedChord b = [] :=
    List.eq_nil_iff_forall_not_mem.2 fun c hc => by simpa [hnil] using mem_normalizedChord.1 hc
  rw [hnormal] at hchord
  cases hchord

/-! ## What presses two bindings -/

section Named

variable {left right : List InputControl}

/-- The controls that two chords name; one of any device only where no other is its button. -/
def named (left right : List InputControl) : Finset InputControl :=
  (left ++ right).toFinset.filter fun control =>
    control.deviceId ≠ []
      ∨ ∀ other ∈ left ++ right, other.deviceId ≠ [] → heldControlMatches control other = false

theorem heldControlMatches_iff {expected held : InputControl} :
    heldControlMatches expected held = true
      ↔ expected = { held with deviceId := expected.deviceId }
        ∧ (expected.deviceId = [] ∨ expected.deviceId = held.deviceId) := by
  obtain ⟨kind, page, code, extended, device⟩ := expected
  simp [heldControlMatches, and_assoc]

/-- A control with a device is pressed by itself only. -/
theorem eq_of_matches {expected held : InputControl}
    (h : heldControlMatches expected held = true) (hdevice : expected.deviceId ≠ []) :
    held = expected := by
  obtain ⟨heq, hsame⟩ := heldControlMatches_iff.1 h
  rw [heq, hsame.resolve_left hdevice]

theorem matches_self (control : InputControl) : heldControlMatches control control = true :=
  heldControlMatches_iff.2 ⟨rfl, .inr rfl⟩

theorem mem_named {control : InputControl} : control ∈ named left right
    ↔ control ∈ left ++ right ∧ (control.deviceId ≠ []
      ∨ ∀ other ∈ left ++ right, other.deviceId ≠ [] → heldControlMatches control other = false) := by
  simp [named]

/-- Whatever presses both chords has a control of its own for each one they name. -/
theorem card_named_le {held : List InputControl}
    (h : ∀ expected ∈ left ++ right, ∃ c ∈ held, heldControlMatches expected c = true) :
    (named left right).card ≤ held.length := by
  choose! answer hheld hmatches using h
  have hmem : ∀ c ∈ named left right, c ∈ left ++ right := fun c hc => (mem_named.1 hc).1
  refine le_trans (Finset.card_le_card_of_injOn answer (fun c hc => ?_) ?_)
    (List.toFinset_card_le held)
  · exact List.mem_toFinset.2 (hheld c (hmem c hc))
  intro c hc c' hc' heq
  have hself : ∀ d ∈ named left right, d.deviceId ≠ [] → answer d = d := fun d hd =>
    eq_of_matches (hmatches d (hmem d hd))
  -- a control of any device is not answered by one that is named itself
  have hwild : ∀ d ∈ named left right, d.deviceId = [] → ∀ d' ∈ named left right,
      d'.deviceId ≠ [] → answer d ≠ answer d' := by
    intro d hd hd₀ d' hd' hdevice heq
    have hnone := (mem_named.1 hd).2.resolve_left (not_not.2 hd₀) d' (hmem d' hd') hdevice
    rw [← hself d' hd' hdevice, ← heq, hmatches d (hmem d hd)] at hnone
    cases hnone
  by_cases hdevice : c.deviceId = [] <;> by_cases hdevice' : c'.deviceId = []
  · have hc := (heldControlMatches_iff.1 (hmatches c (hmem c hc))).1
    have hc' := (heldControlMatches_iff.1 (hmatches c' (hmem c' hc'))).1
    rw [hc, hc', heq, hdevice, hdevice']
  · exact absurd heq (hwild c hc hdevice c' hc' hdevice')
  · exact absurd heq.symm (hwild c' hc' hdevice' c hc hdevice)
  · rw [← hself c hc hdevice, heq, hself c' hc' hdevice']

/-- A control on a device. -/
def onDevice (control : InputControl) : InputControl :=
  if control.deviceId = [] then { control with deviceId := [0] } else control

theorem onDevice_device (control : InputControl) : (onDevice control).deviceId ≠ [] := by
  unfold onDevice
  split
  · simp
  · assumption

theorem matches_onDevice (control : InputControl) :
    heldControlMatches control (onDevice control) = true := by
  unfold onDevice
  split
  · rename_i hdevice
    exact heldControlMatches_iff.2 ⟨rfl, .inl hdevice⟩
  · exact matches_self control

/-- The controls that two chords name answer them. -/
theorem exists_named {expected : InputControl} (h : expected ∈ left ++ right) :
    ∃ c ∈ named left right, heldControlMatches expected c = true := by
  by_cases hnamed : expected ∈ named left right
  · exact ⟨expected, hnamed, matches_self expected⟩
  -- a control of any device, and another one is its button
  simp only [mem_named, h, true_and, not_or, not_not, not_forall, Bool.not_eq_false] at hnamed
  obtain ⟨-, other, hother, hdevice, hmatches⟩ := hnamed
  exact ⟨other, mem_named.2 ⟨hother, .inl hdevice⟩, hmatches⟩

/-- On their devices, they press both. -/
theorem exists_named_matches {expected : InputControl} (h : expected ∈ left ++ right) :
    ∃ c ∈ named left right, heldControlMatches expected (onDevice c) = true := by
  obtain ⟨c, hc, hmatches⟩ := exists_named h
  refine ⟨c, hc, ?_⟩
  by_cases hdevice : c.deviceId = []
  · obtain ⟨heq, hsame⟩ := heldControlMatches_iff.1 hmatches
    have hwild : expected.deviceId = c.deviceId := hsame.elim (·.trans hdevice.symm) id
    have hself : expected = c := heq.trans (by rw [hwild])
    rw [hself]
    exact matches_onDevice c
  · rwa [onDevice, if_neg hdevice]

end Named

/-- At most `n` held controls, each on a device, press both bindings. -/
def PressedTogether (n : ℕ) (b b' : InputBinding) : Prop :=
  ∃ held : List InputControl, held.Nodup ∧ held.length ≤ n ∧ (∀ c ∈ held, c.deviceId ≠ [])
    ∧ bindingPressed b held = true ∧ bindingPressed b' held = true

theorem bindingPressed_iff {b : InputBinding} {held : List InputControl} :
    bindingPressed b held = true
      ↔ ∀ expected ∈ b.chord, ∃ c ∈ held, heldControlMatches expected c = true := by
  simp [bindingPressed]

theorem pressedTogether_iff {n : ℕ} {b b' : InputBinding} :
    PressedTogether n b b' ↔ (named b.chord b'.chord).card ≤ n := by
  constructor
  · rintro ⟨held, -, hlength, -, hb, hb'⟩
    refine le_trans (card_named_le fun expected hexpected => ?_) hlength
    rcases List.mem_append.1 hexpected with h | h
    · exact bindingPressed_iff.1 hb expected h
    · exact bindingPressed_iff.1 hb' expected h
  · intro hcard
    have hpressed : ∀ expected ∈ b.chord ++ b'.chord,
        ∃ c ∈ ((named b.chord b'.chord).image onDevice).toList,
          heldControlMatches expected c = true := by
      intro expected hexpected
      obtain ⟨c, hc, hmatches⟩ := exists_named_matches hexpected
      exact ⟨onDevice c, Finset.mem_toList.2 (Finset.mem_image_of_mem _ hc), hmatches⟩
    refine ⟨((named b.chord b'.chord).image onDevice).toList, Finset.nodup_toList _, ?_, ?_,
      bindingPressed_iff.2 fun c hc => hpressed c (List.mem_append_left _ hc),
      bindingPressed_iff.2 fun c hc => hpressed c (List.mem_append_right _ hc)⟩
    · rw [Finset.length_toList]
      exact le_trans Finset.card_image_le hcard
    · intro c hc
      obtain ⟨d, -, rfl⟩ := Finset.mem_image.1 (Finset.mem_toList.1 hc)
      exact onDevice_device d

/-! ## The comparison position by position -/

theorem controlsOverlap_self (control : InputControl) : controlsOverlap control control = true := by
  simp [controlsOverlap]

theorem chordsOverlap_self (chord : List InputControl) : chordsOverlap chord chord = true := by
  induction chord with
  | nil => rfl
  | cons control chord ih => simpa [chordsOverlap, controlsOverlap_self] using ih

/-- Controls that overlap are pressed by one control. -/
theorem exists_of_controlsOverlap {left right : InputControl}
    (h : controlsOverlap left right = true) :
    ∃ c : InputControl, c.deviceId ≠ [] ∧ heldControlMatches left c = true
      ∧ heldControlMatches right c = true := by
  obtain ⟨kind, page, code, extended, device⟩ := left
  obtain ⟨kind', page', code', extended', device'⟩ := right
  simp only [controlsOverlap, Bool.and_eq_true, Bool.or_eq_true, decide_eq_true_eq] at h
  obtain ⟨⟨⟨⟨rfl, rfl⟩, rfl⟩, rfl⟩, hdevice⟩ := h
  by_cases hempty : device = []
  · refine ⟨onDevice ⟨kind, page, code, extended, device'⟩, onDevice_device _, ?_,
      matches_onDevice _⟩
    unfold onDevice
    split <;> simp [heldControlMatches, hempty]
  · refine ⟨⟨kind, page, code, extended, device⟩, hempty, matches_self _, ?_⟩
    rcases hdevice with (hdevice | hdevice) | hdevice
    · exact absurd hdevice hempty
    · simp [heldControlMatches, hdevice]
    · simp [heldControlMatches, hdevice]

theorem exists_of_chordsOverlap : ∀ (left right : List InputControl),
    chordsOverlap left right = true →
      ∃ held : List InputControl, held.length = left.length
        ∧ ∀ expected ∈ left ++ right, ∃ c ∈ held, heldControlMatches expected c = true
  | [], [], _ => ⟨[], rfl, by simp⟩
  | [], _ :: _, h => by simp [chordsOverlap] at h
  | _ :: _, [], h => by simp [chordsOverlap] at h
  | a :: left, b :: right, h => by
    simp only [chordsOverlap, List.length_cons, List.zip_cons_cons, List.all_cons, Bool.and_eq_true,
      decide_eq_true_eq, Nat.add_right_cancel_iff] at h
    obtain ⟨hlength, hfirst, hrest⟩ := h
    obtain ⟨c, -, hleft, hright⟩ := exists_of_controlsOverlap hfirst
    obtain ⟨held, hheld, hmatches⟩ := exists_of_chordsOverlap left right (by
      simp [chordsOverlap, hlength, hrest])
    refine ⟨c :: held, by simp [hheld], fun expected hexpected => ?_⟩
    have hmem : expected = a ∨ expected = b ∨ expected ∈ left ++ right := by
      simp only [List.cons_append, List.mem_cons, List.mem_append] at hexpected ⊢
      tauto
    rcases hmem with rfl | rfl | hmem
    · exact ⟨c, List.mem_cons_self, hleft⟩
    · exact ⟨c, List.mem_cons_self, hright⟩
    · obtain ⟨d, hd, hmatch⟩ := hmatches expected hmem
      exact ⟨d, List.mem_cons_of_mem _ hd, hmatch⟩

theorem length_normalizedChord (b : InputBinding) : (normalizedChord b).length = b.chord.length :=
  (List.mergeSort_perm _ _).length_eq

/-- Chords that overlap position by position are pressed together. -/
theorem pressedTogether_of_chordsOverlap {b b' : InputBinding}
    (h : chordsOverlap (normalizedChord b) (normalizedChord b') = true) :
    b.chord.length = b'.chord.length ∧ PressedTogether b.chord.length b b' := by
  have hlength : (normalizedChord b).length = (normalizedChord b').length := by
    simpa using (Bool.and_eq_true_iff.1 h).1
  rw [length_normalizedChord, length_normalizedChord] at hlength
  obtain ⟨held, hheld, hmatches⟩ := exists_of_chordsOverlap _ _ h
  refine ⟨hlength, pressedTogether_iff.2 ?_⟩
  rw [← length_normalizedChord b, ← hheld]
  refine card_named_le fun expected hexpected => hmatches expected ?_
  simp only [List.mem_append, mem_normalizedChord] at hexpected ⊢
  exact hexpected

/-- What is refused as a conflict overlaps. -/
theorem overlap_of_conflict : ∀ (index : ℕ) (previous bindings : List InputBinding)
    (error : InputBindingError),
    error ∈ validateFrom index (previous.map fun b => (b, normalizedChord b)) bindings →
      error.code = .conflictingBinding →
        ∃ b ∈ bindings, ∃ b' ∈ previous ++ bindings, b.action ≠ b'.action
          ∧ chordsOverlap (normalizedChord b) (normalizedChord b') = true
  | _, _, [], _, h, _ => by simp [validateFrom] at h
  | index, previous, binding :: rest, error, h, hcode => by
    rw [validateFrom, List.mem_append, List.mem_append, Option.mem_toList, Option.mem_toList] at h
    rcases h with (h | h) | h
    · -- the errors of a chord alone have other codes
      unfold chordError at h
      split_ifs at h <;> cases h <;> cases hcode
    · obtain ⟨p, hp, rfl⟩ := Option.map_eq_some_iff.1 h
      have hmem := List.mem_of_find?_eq_some hp
      have hclash := List.find?_some hp
      obtain ⟨b', hb', rfl⟩ := List.mem_map.1 hmem
      have haction : binding.action ≠ b'.action := by
        intro heq
        rw [if_pos heq] at hcode
        cases hcode
      refine ⟨binding, List.mem_cons_self, b', List.mem_append_left _ hb', haction, ?_⟩
      simp only [Bool.or_eq_true, decide_eq_true_eq, Bool.and_eq_true] at hclash
      rcases hclash with hsame | ⟨-, hoverlap⟩
      · rw [hsame]
        exact chordsOverlap_self _
      · exact hoverlap
    · have hrest := overlap_of_conflict (index + 1) (previous ++ [binding]) rest error
      rw [List.map_append, List.map_singleton] at hrest
      obtain ⟨b, hb, b', hb', hoverlap⟩ := hrest h hcode
      refine ⟨b, List.mem_cons_of_mem _ hb, b', ?_, hoverlap⟩
      simpa [or_assoc] using hb'

/-! ## The order of controls -/

/-- What `controlLess` compares, as a comparison. -/
def controlCompare : InputControl → InputControl → Ordering :=
  compareLex (compareOn fun control => control.deviceKind.ctorIdx)
    (compareLex (compareOn InputControl.usagePage) (compareLex (compareOn InputControl.code)
      (compareLex (compareOn InputControl.extended) (compareOn InputControl.deviceId))))

instance : Std.TransCmp controlCompare := by
  unfold controlCompare
  infer_instance

theorem controlLess_eq (left right : InputControl) :
    controlLess left right = decide (controlCompare left right = .lt) := rfl

theorem ctorIdx_inj {left right : InputDeviceKind} (h : left.ctorIdx = right.ctorIdx) :
    left = right := by
  cases left <;> cases right <;> first | rfl | cases h

/-- The comparison without the device. -/
def buttonCompare (left right : InputControl) : Ordering :=
  (compare left.deviceKind.ctorIdx right.deviceKind.ctorIdx).then
    ((compare left.usagePage right.usagePage).then
      ((compare left.code right.code).then (compare left.extended right.extended)))

theorem controlCompare_eq (left right : InputControl) : controlCompare left right
    = (buttonCompare left right).then (compare left.deviceId right.deviceId) := by
  simp [controlCompare, buttonCompare, compareLex, compareOn, Ordering.then_assoc]

/-- The button of a control, on any device. -/
def button (control : InputControl) : InputControl := { control with deviceId := [] }

theorem buttonCompare_eq_iff {left right : InputControl} :
    buttonCompare left right = .eq ↔ button left = button right := by
  obtain ⟨kind, page, code, extended, device⟩ := left
  obtain ⟨kind', page', code', extended', device'⟩ := right
  simp only [buttonCompare, button, Ordering.then_eq_eq, Std.LawfulEqCmp.compare_eq_iff_eq,
    InputControl.mk.injEq, and_true]
  exact and_congr_left fun _ => ⟨ctorIdx_inj, fun h => h ▸ rfl⟩

instance : Std.LawfulEqCmp controlCompare where
  eq_of_compare {left right} h := by
    rw [controlCompare_eq, Ordering.then_eq_eq, buttonCompare_eq_iff,
      Std.LawfulEqCmp.compare_eq_iff_eq] at h
    obtain ⟨hbutton, hdevice⟩ := h
    obtain ⟨kind, page, code, extended, device⟩ := left
    simp only [button, InputControl.mk.injEq] at hbutton
    simp_all

/-- Controls of different buttons are in the order of these. -/
theorem controlCompare_congr {left right left' right' : InputControl}
    (hne : button left ≠ button right) (hleft : button left' = button left)
    (hright : button right' = button right) :
    controlCompare left' right' = controlCompare left right := by
  have hbutton : buttonCompare left' right' = buttonCompare left right := by
    simp only [button, InputControl.mk.injEq] at hleft hright
    simp [buttonCompare, hleft, hright]
  have hlt : buttonCompare left right ≠ .eq := mt buttonCompare_eq_iff.1 hne
  rw [controlCompare_eq, controlCompare_eq, hbutton]
  cases h : buttonCompare left right <;> simp_all

theorem isLE_of_not_lt {left right : InputControl} (h : ¬controlCompare right left = .lt) :
    (controlCompare left right).isLE = true := by
  rcases hcompare : controlCompare left right with _ | _ | _
  · rfl
  · rfl
  · exact absurd (Std.OrientedCmp.gt_iff_lt.1 hcompare) h

theorem pairwise_normalizedChord (b : InputBinding) :
    (normalizedChord b).Pairwise fun left right => controlCompare right left ≠ .lt := by
  have h : (normalizedChord b).Pairwise fun left right => (!controlLess right left) = true := by
    refine List.pairwise_mergeSort (fun left middle right => ?_) (fun left right => ?_) b.chord
    · simp only [controlLess_eq, Bool.not_eq_true', decide_eq_false_iff_not]
      intro hleft hright
      have hle := Std.TransCmp.isLE_trans (isLE_of_not_lt hleft) (isLE_of_not_lt hright)
      exact fun h => absurd hle (by rw [Std.OrientedCmp.gt_iff_lt.2 h]; decide)
    · simp only [controlLess_eq, Bool.or_eq_true, Bool.not_eq_true', decide_eq_false_iff_not]
      by_cases h : controlCompare right left = .lt
      · exact .inr (by rw [Std.OrientedCmp.gt_iff_lt.2 h]; decide)
      · exact .inl h
  exact h.imp fun {left right} hle => by simpa [controlLess_eq] using hle

theorem eq_of_not_lt {left right : InputControl} (h : controlCompare right left ≠ .lt)
    (h' : controlCompare left right ≠ .lt) : left = right := by
  rcases hcompare : controlCompare left right with _ | _ | _
  · exact absurd hcompare h'
  · exact Std.LawfulEqCmp.eq_of_compare hcompare
  · exact absurd (Std.OrientedCmp.gt_iff_lt.1 hcompare) h

/-- In a sorted chord, a control that is named twice stands beside itself. -/
theorem hasAdjacent_iff : ∀ {chord : List InputControl},
    (chord.Pairwise fun left right => controlCompare right left ≠ .lt) →
      (hasAdjacent chord = true ↔ ¬chord.Nodup)
  | [], _ => by simp [hasAdjacent]
  | [_], _ => by simp [hasAdjacent]
  | a :: b :: rest, h => by
    obtain ⟨ha, hrest⟩ := List.pairwise_cons.1 h
    have hmem : a ∈ b :: rest ↔ a = b := by
      refine ⟨fun hmem => ?_, fun heq => heq ▸ List.mem_cons_self⟩
      rcases List.mem_cons.1 hmem with heq | hmem
      · exact heq
      · exact eq_of_not_lt (ha b List.mem_cons_self) ((List.pairwise_cons.1 hrest).1 a hmem)
    have hnodup : (a :: b :: rest).Nodup ↔ a ≠ b ∧ (b :: rest).Nodup := by
      rw [List.nodup_cons, hmem]
    rw [hasAdjacent, Bool.or_eq_true, decide_eq_true_eq, hasAdjacent_iff hrest, hnodup,
      not_and_or, not_not]

/-- A chord that names each control once is strictly sorted. -/
theorem normalizedChord_sorted {b : InputBinding} (h : b.chord.Nodup) :
    (normalizedChord b).Pairwise fun left right => controlCompare left right = .lt := by
  have hnodup : (normalizedChord b).Nodup := (List.mergeSort_perm _ _).nodup_iff.2 h
  refine ((pairwise_normalizedChord b).and hnodup).imp fun {left right} hle => ?_
  exact not_not.1 fun hlt => hle.2 (eq_of_not_lt hle.1 hlt)

theorem nodup_of_sorted {chord : List InputControl}
    (h : chord.Pairwise fun left right => controlCompare left right = .lt) : chord.Nodup :=
  h.imp fun {left right} hlt heq => by
    have hself : controlCompare right right = .eq := Std.ReflCmp.compare_self
    rw [heq, hself] at hlt
    cases hlt

/-- Strictly sorted lists of the same controls are equal. -/
theorem eq_of_sorted {left right : List InputControl}
    (hleft : left.Pairwise fun a b => controlCompare a b = .lt)
    (hright : right.Pairwise fun a b => controlCompare a b = .lt)
    (h : ∀ control, control ∈ left ↔ control ∈ right) : left = right := by
  have hperm := (List.perm_ext_iff_of_nodup (nodup_of_sorted hleft) (nodup_of_sorted hright)).2 h
  refine hperm.eq_of_pairwise (fun a b _ _ hab hba => ?_) hleft hright
  rw [Std.OrientedCmp.gt_iff_lt.2 hba] at hab
  cases hab

theorem normalizedChord_eq_iff {b b' : InputBinding} :
    normalizedChord b = normalizedChord b' ↔ b.chord.Perm b'.chord := by
  constructor
  · intro h
    exact (List.mergeSort_perm _ _).symm.trans ((List.Perm.of_eq h).trans (List.mergeSort_perm _ _))
  · intro h
    have hperm : (normalizedChord b).Perm (normalizedChord b') :=
      (List.mergeSort_perm _ _).trans (h.trans (List.mergeSort_perm _ _).symm)
    exact hperm.eq_of_pairwise (fun left right _ _ hleft hright => eq_of_not_lt hleft hright)
      (pairwise_normalizedChord b) (pairwise_normalizedChord b')

/-- The controls of a chord alone are in order: there are some, all are valid, and each is named
once. -/
theorem chordError_eq_none_iff {index : ℕ} {b : InputBinding} :
    chordError index (normalizedChord b) = none
      ↔ b.chord ≠ [] ∧ (∀ control ∈ b.chord, validControl control = true) ∧ b.chord.Nodup := by
  have hnil : normalizedChord b = [] ↔ b.chord = [] := by
    rw [← List.length_eq_zero_iff, length_normalizedChord, List.length_eq_zero_iff]
  have hvalid : ((normalizedChord b).any fun control => !validControl control) = true
      ↔ ¬∀ control ∈ b.chord, validControl control = true := by
    simp [mem_normalizedChord]
  have hadjacent : hasAdjacent (normalizedChord b) = true ↔ ¬b.chord.Nodup := by
    rw [hasAdjacent_iff (pairwise_normalizedChord b)]
    exact not_congr (List.mergeSort_perm _ _).nodup_iff
  unfold chordError
  simp only [hnil, hvalid, hadjacent]
  split_ifs <;> simp_all

/-! ## Chords that are compared completely -/

/-- The chord names a button both on any device and on a certain one. -/
def Mixed (chord : List InputControl) : Prop :=
  ∃ control ∈ chord, control.deviceId ≠ [] ∧ button control ∈ chord

theorem button_of_matches {expected held : InputControl}
    (h : heldControlMatches expected held = true) : button held = button expected := by
  rw [(heldControlMatches_iff.1 h).1]
  rfl

/-- What is pressed by one control overlaps. -/
theorem controlsOverlap_of_matches {left right held : InputControl}
    (hleft : heldControlMatches left held = true) (hright : heldControlMatches right held = true) :
    controlsOverlap left right = true := by
  have hbutton : button left = button right :=
    (button_of_matches hleft).symm.trans (button_of_matches hright)
  simp only [button, InputControl.mk.injEq] at hbutton
  have hdevice := (heldControlMatches_iff.1 hleft).2
  have hdevice' := (heldControlMatches_iff.1 hright).2
  simp only [controlsOverlap, hbutton, decide_true, Bool.true_and, Bool.or_eq_true,
    decide_eq_true_eq]
  rcases hdevice with h | h
  · exact .inl (.inl h)
  · rcases hdevice' with h' | h'
    · exact .inl (.inr h')
    · exact .inr (h.trans h'.symm)

/-- In a chord that is not mixed, the controls that answer its own are in the same order. -/
theorem sorted_answers {chord : List InputControl} (hmixed : ¬Mixed chord)
    {answer : InputControl → InputControl}
    (hanswer : ∀ control ∈ chord, heldControlMatches control (answer control) = true)
    (hsorted : chord.Pairwise fun left right => controlCompare left right = .lt) :
    (chord.map answer).Pairwise fun left right => controlCompare left right = .lt := by
  refine List.pairwise_map.2 (hsorted.imp_of_mem fun {left right} hleft hright hlt => ?_)
  by_cases hbutton : button left = button right
  · have hne : left ≠ right := by
      rintro rfl
      exact absurd (Std.ReflCmp.compare_self : controlCompare left left = .eq) (by rw [hlt]; decide)
    -- the same button on two certain devices
    have hcertain : left.deviceId ≠ [] ∧ right.deviceId ≠ [] := by
      by_contra hwild
      rcases not_and_or.1 hwild with hdevice | hdevice
      · have hself : left = button left := by rw [button, ← not_not.1 hdevice]
        by_cases hdevice' : right.deviceId = []
        · have hself' : right = button right := by rw [button, ← hdevice']
          exact hne (hself.trans (hbutton.trans hself'.symm))
        · exact hmixed ⟨right, hright, hdevice', by rw [← hbutton, ← hself]; exact hleft⟩
      · have hself : right = button right := by rw [button, ← not_not.1 hdevice]
        by_cases hdevice' : left.deviceId = []
        · have hself' : left = button left := by rw [button, ← hdevice']
          exact hne (hself'.trans (hbutton.trans hself.symm))
        · exact hmixed ⟨left, hleft, hdevice', by rw [hbutton, ← hself]; exact hright⟩
    rw [eq_of_matches (hanswer left hleft) hcertain.1,
      eq_of_matches (hanswer right hright) hcertain.2]
    exact hlt
  · rw [controlCompare_congr hbutton (button_of_matches (hanswer left hleft))
      (button_of_matches (hanswer right hright))]
    exact hlt

theorem forall_zip_of_map_eq {answer : InputControl → InputControl} :
    ∀ {left right : List InputControl}, left.map answer = right.map answer →
      ∀ p ∈ left.zip right, answer p.1 = answer p.2
  | [], _, _, p, hp => by simp at hp
  | _ :: _, [], _, p, hp => by simp at hp
  | a :: left, b :: right, h, p, hp => by
    obtain ⟨hhead, htail⟩ := List.cons.inj h
    rcases List.mem_cons.1 hp with rfl | hp
    · exact hhead
    · exact forall_zip_of_map_eq htail p hp

/-- Two sorted chords that are not mixed and name together no more controls than each of them has
overlap position by position: both are answered by all the controls they name, in order. -/
theorem chordsOverlap_of_card_le {left right : List InputControl}
    (hleft : left.Pairwise fun a b => controlCompare a b = .lt)
    (hright : right.Pairwise fun a b => controlCompare a b = .lt) (hmixed : ¬Mixed left)
    (hmixed' : ¬Mixed right) (hlength : left.length = right.length)
    (hcard : (named left right).card ≤ left.length) : chordsOverlap left right = true := by
  have hnamed : ∀ control ∈ left ++ right, ∃ d ∈ named left right,
      heldControlMatches control d = true := by
    intro control hcontrol
    obtain ⟨d, hd, hmatches⟩ := exists_named hcontrol
    exact ⟨d, hd, hmatches⟩
  choose! answer hmem hmatches using hnamed
  have hall : ∀ chord : List InputControl, chord ⊆ left ++ right → ¬Mixed chord →
      chord.length = left.length →
      chord.Pairwise (fun a b => controlCompare a b = .lt) →
      (chord.map answer).Pairwise (fun a b => controlCompare a b = .lt)
        ∧ ∀ control, control ∈ chord.map answer ↔ control ∈ named left right := by
    intro chord hsub hmixed hlength hsorted
    have hanswers := sorted_answers hmixed (fun c hc => hmatches c (hsub hc)) hsorted
    have hfinset : (chord.map answer).toFinset = named left right := by
      refine Finset.eq_of_subset_of_card_le (fun c hc => ?_) ?_
      · obtain ⟨d, hd, rfl⟩ := List.mem_map.1 (List.mem_toFinset.1 hc)
        exact hmem d (hsub hd)
      · rw [List.toFinset_card_of_nodup (nodup_of_sorted hanswers), List.length_map, hlength]
        exact hcard
    exact ⟨hanswers, fun control => by rw [← hfinset, List.mem_toFinset]⟩
  obtain ⟨hsorted, hmem⟩ := hall left (List.subset_append_left _ _) hmixed rfl hleft
  obtain ⟨hsorted', hmem'⟩ := hall right (List.subset_append_right _ _) hmixed' hlength.symm hright
  have heq := eq_of_sorted hsorted hsorted' fun control => (hmem control).trans (hmem' control).symm
  unfold chordsOverlap
  rw [decide_eq_true hlength, Bool.true_and, List.all_eq_true]
  intro p hp
  obtain ⟨hp₁, hp₂⟩ := List.of_mem_zip hp
  refine controlsOverlap_of_matches (hmatches p.1 (List.mem_append_left _ hp₁)) ?_
  rw [forall_zip_of_map_eq heq p hp]
  exact hmatches p.2 (List.mem_append_right _ hp₂)

/-! ## Conflicts -/

/-- An accepted list has no two bindings of different actions that as few controls as each of their
chords has press together, and a list that is refused for a conflict has. -/
def ConflictsExact (bindings : List InputBinding) : Prop :=
  (validateBindings bindings = [] → ∀ b ∈ bindings, ∀ b' ∈ bindings, b.action ≠ b'.action →
    b.chord.length = b'.chord.length → ¬PressedTogether b.chord.length b b')
  ∧ ((∃ error ∈ validateBindings bindings, error.code = .conflictingBinding) →
    ∃ b ∈ bindings, ∃ b' ∈ bindings, b.action ≠ b'.action ∧ b.chord.length = b'.chord.length
      ∧ PressedTogether b.chord.length b b')

theorem conflict_pressedTogether {bindings : List InputBinding}
    (h : ∃ error ∈ validateBindings bindings, error.code = .conflictingBinding) :
    ∃ b ∈ bindings, ∃ b' ∈ bindings, b.action ≠ b'.action ∧ b.chord.length = b'.chord.length
      ∧ PressedTogether b.chord.length b b' := by
  obtain ⟨error, herror, hcode⟩ := h
  obtain ⟨b, hb, b', hb', haction, hoverlap⟩ :=
    overlap_of_conflict 0 [] bindings error herror hcode
  exact ⟨b, hb, b', hb', haction, pressedTogether_of_chordsOverlap hoverlap⟩

theorem chordsOverlap_comm (left right : List InputControl)
    (h : chordsOverlap left right = true) : chordsOverlap right left = true := by
  simp only [chordsOverlap, Bool.and_eq_true, decide_eq_true_eq, List.all_eq_true] at h ⊢
  refine ⟨h.1.symm, fun p hp => ?_⟩
  have hswap : p.swap ∈ left.zip right := by
    rw [← List.zip_swap, List.mem_map]
    exact ⟨p, hp, rfl⟩
  have hoverlap := h.2 p.swap hswap
  simp only [controlsOverlap, Bool.and_eq_true, Bool.or_eq_true, decide_eq_true_eq, Prod.fst_swap,
    Prod.snd_swap] at hoverlap ⊢
  tauto

/-- What `validateBindings` refuses: a chord alone, a chord that two bindings have, or two of
different actions that overlap position by position. -/
theorem accepted_iff {bindings : List InputBinding} :
    validateBindings bindings = []
      ↔ (∀ b ∈ bindings, b.chord ≠ [] ∧ (∀ control ∈ b.chord, validControl control = true)
          ∧ b.chord.Nodup)
        ∧ bindings.Pairwise fun b b' => ¬b.chord.Perm b'.chord ∧ (b.action ≠ b'.action →
          chordsOverlap (normalizedChord b) (normalizedChord b') = false) := by
  rw [validateBindings_eq_nil_iff]
  refine and_congr (forall₂_congr fun b _ => chordError_eq_none_iff) ?_
  refine List.Pairwise.iff fun b b' => ?_
  rw [Clashes, not_or, not_and, normalizedChord_eq_iff, List.perm_comm, ne_comm,
    Bool.not_eq_true]
  refine and_congr_right fun _ => forall_congr' fun _ => ?_
  rw [Bool.eq_false_iff, Bool.eq_false_iff]
  exact not_congr ⟨chordsOverlap_comm _ _, chordsOverlap_comm _ _⟩

/-- Of two accepted chords of different actions that are pressed together, one is mixed. -/
theorem mixed_of_pressedTogether {bindings : List InputBinding}
    (haccepted : validateBindings bindings = []) {b b' : InputBinding} (hb : b ∈ bindings)
    (hb' : b' ∈ bindings) (haction : b.action ≠ b'.action)
    (hlength : b.chord.length = b'.chord.length)
    (hcard : (named b.chord b'.chord).card ≤ b.chord.length) :
    Mixed b.chord ∨ Mixed b'.chord := by
  obtain ⟨hsound, hpairs⟩ := accepted_iff.1 haccepted
  by_contra hmixed
  obtain ⟨hmixed, hmixed'⟩ := not_or.1 hmixed
  have hmem : ∀ (b : InputBinding) control, control ∈ normalizedChord b ↔ control ∈ b.chord :=
    fun b control => mem_normalizedChord
  have hnamed : named (normalizedChord b) (normalizedChord b') = named b.chord b'.chord := by
    ext control
    simp only [mem_named, List.mem_append, hmem]
  have hnormal : ∀ b : InputBinding, ¬Mixed b.chord → ¬Mixed (normalizedChord b) := by
    intro b h
    simpa only [Mixed, hmem] using h
  have hoverlap : chordsOverlap (normalizedChord b) (normalizedChord b') = true :=
    chordsOverlap_of_card_le (normalizedChord_sorted (hsound b hb).2.2)
      (normalizedChord_sorted (hsound b' hb').2.2) (hnormal b hmixed) (hnormal b' hmixed')
      (by rw [length_normalizedChord, length_normalizedChord, hlength])
      (by rwa [hnamed, length_normalizedChord])
  have hdifferent := List.Pairwise.forall_of_forall_of_flip (l := bindings)
    (R := fun c c' => c.action ≠ c'.action →
      chordsOverlap (normalizedChord c) (normalizedChord c') = false)
    (fun c _ hne => absurd rfl hne) (hpairs.imp fun {c c'} h => h.2)
    (hpairs.imp fun {c c'} h hne => Bool.eq_false_iff.2 fun hflip =>
      Bool.eq_false_iff.1 (h.2 hne.symm) (chordsOverlap_comm _ _ hflip))
  exact Bool.eq_false_iff.1 (hdifferent hb hb' haction) hoverlap

/-- Conflicts are found exactly iff a chord is refused alone, two bindings have one chord, two of
different actions overlap position by position, or whatever two chords of different actions, one
of them mixed, name more controls than each of them has. -/
theorem conflictsExact_iff (bindings : List InputBinding) :
    ConflictsExact bindings
      ↔ (∃ b ∈ bindings, b.chord = [] ∨ (∃ control ∈ b.chord, validControl control = false)
          ∨ ¬b.chord.Nodup)
        ∨ (¬bindings.Pairwise fun b b' => ¬b.chord.Perm b'.chord ∧ (b.action ≠ b'.action →
          chordsOverlap (normalizedChord b) (normalizedChord b') = false))
        ∨ ∀ b ∈ bindings, ∀ b' ∈ bindings, b.action ≠ b'.action →
          b.chord.length = b'.chord.length → Mixed b.chord ∨ Mixed b'.chord →
          b.chord.length < (named b.chord b'.chord).card := by
  have hlist : (∃ b ∈ bindings, b.chord = [] ∨ (∃ control ∈ b.chord, validControl control = false)
        ∨ ¬b.chord.Nodup)
      ∨ (¬bindings.Pairwise fun b b' => ¬b.chord.Perm b'.chord ∧ (b.action ≠ b'.action →
        chordsOverlap (normalizedChord b) (normalizedChord b') = false))
      ↔ validateBindings bindings ≠ [] := by
    rw [ne_eq, accepted_iff, not_and_or]
    refine or_congr_left ?_
    simp only [not_forall, not_and_or, exists_prop, ne_eq, not_not, Bool.not_eq_true]
  rw [← or_assoc, hlist, or_iff_not_imp_left, ne_eq, not_not]
  constructor
  · intro h haccepted b hb b' hb' haction hlength _
    exact Nat.lt_of_not_le (mt pressedTogether_iff.2 (h.1 haccepted b hb b' hb' haction hlength))
  · intro h
    refine ⟨fun haccepted b hb b' hb' haction hlength htogether => ?_, conflict_pressedTogether⟩
    have hcard := pressedTogether_iff.1 htogether
    exact Nat.not_lt.2 hcard (h haccepted b hb b' hb' haction hlength
      (mixed_of_pressedTogether haccepted hb hb' haction hlength hcard))

section Sample

/-- A button of a game controller, on any device. -/
def trigger : InputControl := ⟨.gameController, 9, 1, false, []⟩

def triggerOn (device : UInt8) : InputControl := { trigger with deviceId := [device] }

/-- The trigger of any device with that of the second one, and with that of the first one. -/
def crossedTriggers : List InputBinding :=
  [⟨.team, [trigger, triggerOn 2]⟩, ⟨.group, [trigger, triggerOn 1]⟩]

theorem normalizedChord_of_sorted {b : InputBinding}
    (h : b.chord.Pairwise fun left right => (!controlLess right left) = true) :
    normalizedChord b = b.chord :=
  List.mergeSort_of_pairwise h

/-- Both triggers press both bindings, and the list is accepted. -/
theorem conflictsExact_crossed : ¬ConflictsExact crossedTriggers := by
  have hteam : normalizedChord ⟨.team, [trigger, triggerOn 2]⟩ = [trigger, triggerOn 2] :=
    normalizedChord_of_sorted (by decide)
  have hgroup : normalizedChord ⟨.group, [trigger, triggerOn 1]⟩ = [trigger, triggerOn 1] :=
    normalizedChord_of_sorted (by decide)
  have haccepted : validateBindings crossedTriggers = [] := by
    rw [validateBindings_eq_nil_iff]
    simp only [crossedTriggers, List.forall_mem_cons, List.pairwise_cons, Clashes, hteam, hgroup]
    decide
  intro h
  refine h.1 haccepted _ List.mem_cons_self _ (List.mem_cons_of_mem _ List.mem_cons_self)
    (by decide) rfl ⟨[triggerOn 1, triggerOn 2], ?_⟩
  decide

end Sample

end VoxTree

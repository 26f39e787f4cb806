import VoxTree.Proofs.JsonStrings

/-!
# The client's parser and its grammar

`parse` accepts the texts of the values that the client has, in the white space of `std::isspace`
and with surrogates in pairs only, and gives the value back (`parse_eq_some`). Soundness is an
induction on the fuel, completeness on the value; three calls for each byte are fuel enough.
-/

namespace VoxTree

open Json (Blank Slot Spells SpellsElements SpellsMembers Quoted)

namespace JsonValue

-- the value as the grammar has it
mutual

def toJson : JsonValue → Json.Value
  | .null => .null
  | .string value => .string value
  | .unsigned value => .number (decimal value)
  | .boolean value => .boolean value
  | .object members => .object (toJsonMembers members)
  | .array elements => .array (toJsonElements elements)

def toJsonMembers : List (Bytes × JsonValue) → List (Bytes × Json.Value)
  | [] => []
  | (name, value) :: members => (name, toJson value) :: toJsonMembers members

def toJsonElements : List JsonValue → List Json.Value
  | [] => []
  | value :: elements => toJson value :: toJsonElements elements

end

end JsonValue

namespace JsonParser

open JsonValue

/-! ## Numbers -/

theorem parseUnsigned_sound {input rest : Bytes} {value : JsonValue}
    (h : parseUnsigned input = some (value, rest)) :
    ∃ number < UInt64.size, value = .unsigned number ∧ input = decimal number ++ rest := by
  unfold parseUnsigned at h
  simp only at h
  split_ifs at h with hzero
  obtain ⟨number, hread, heq⟩ := Option.map_eq_some_iff.1 h
  obtain ⟨rfl, rfl⟩ := Prod.mk.inj heq
  obtain ⟨hsize, hdigits, rfl⟩ := fromChars_sound hread
  refine ⟨_, hsize, rfl, ?_⟩
  have hleading : (input.takeWhile isDigit).head? = some 0x30 →
      input.takeWhile isDigit = [0x30] := by
    intro hhead
    obtain ⟨tail, htail⟩ := List.head?_eq_some_iff.1 hhead
    have hlength : ¬1 < (input.takeWhile isDigit).length := fun hlong => hzero ⟨hlong, hhead⟩
    rw [htail, List.length_cons] at hlength
    rw [htail, List.eq_nil_of_length_eq_zero (show tail.length = 0 by omega)]
  have htext := Encoding.decimal_foldl hdigits.1 hdigits.2 hleading
  exact (List.takeWhile_append_dropWhile.symm.trans (congrArg (· ++ _) htext.symm))

/-! ## Rounds -/

section Rounds

variable {fuel : ℕ} {input rest a b c d : Bytes}

theorem skipWhitespace_blank (h : Blank dialect input a) (ha : Json.Solid a) :
    skipWhitespace input = a :=
  h.dropWhile_eq ha

theorem blank_skipWhitespace (input : Bytes) : Blank dialect input (skipWhitespace input) :=
  .dropWhile input

/-- Behind the colon of a member stands the input for its value. -/
theorem parseString_colon {name : Bytes} :
    ((parseString input).bind fun r => (consume 0x3a (skipWhitespace r.2)).map fun rest =>
        (r.1, rest)) = some (name, c)
      ↔ Slot dialect (Quoted dialect name) 0x3a input c := by
  constructor
  · intro h
    obtain ⟨⟨name, b⟩, hname, h⟩ := Option.bind_eq_some_iff.1 h
    obtain ⟨rest, hcolon, heq⟩ := Option.map_eq_some_iff.1 h
    obtain ⟨rfl, rfl⟩ := Prod.mk.inj heq
    obtain ⟨a, hfront, hquoted⟩ := parseString_eq_some.1 hname
    have hbehind := blank_skipWhitespace b
    rw [Network.consume_eq_some.1 hcolon] at hbehind
    exact ⟨a, b, hfront, hquoted, hbehind⟩
  · rintro ⟨a, b, hfront, hquoted, hbehind⟩
    have hskip := skipWhitespace_blank hbehind (Json.solid_cons Json.token_colon.solid)
    rw [parseString_eq_some.2 ⟨a, hfront, hquoted⟩, Option.bind_some, hskip]
    rfl

theorem slot_of_skipWhitespace {P : Bytes → Bytes → Prop} {token : UInt8}
    (hfront : Blank dialect input a) (htext : P a b) (hbehind : skipWhitespace b = token :: c) :
    Slot dialect P token input c :=
  ⟨a, b, hfront, htext, hbehind ▸ blank_skipWhitespace b⟩

/-- What a loop does behind a member's value. -/
theorem parseMembers_succ {name : Bytes} {value : JsonValue}
    {members : List (Bytes × JsonValue)} (hname : Slot dialect (Quoted dialect name) 0x3a input c)
    (hvalue : parseValue fuel c = some (value, d)) :
    parseMembers (fuel + 1) members input
      = if members.any fun member => member.1 = name then none
        else if (skipWhitespace d).head? = some 0x7d then
          some (.object (members ++ [(name, value)]), (skipWhitespace d).tail)
        else if (skipWhitespace d).head? = some 0x2c then
          parseMembers fuel (members ++ [(name, value)])
            (skipWhitespace (skipWhitespace d).tail)
        else none := by
  obtain ⟨⟨name, b⟩, hparse, h⟩ := Option.bind_eq_some_iff.1 (parseString_colon.2 hname)
  obtain ⟨rest, hcolon, heq⟩ := Option.map_eq_some_iff.1 h
  obtain ⟨rfl, rfl⟩ := Prod.mk.inj heq
  rw [parseMembers]
  simp only [Option.bind_eq_bind, hparse, hcolon, hvalue, Option.bind_some]
  refine if_congr Iff.rfl rfl ?_
  split
  · rename_i hclose
    rw [hclose]
    rfl
  · rename_i hcomma
    rw [hcomma]
    rfl
  · rename_i hclose hcomma
    rw [if_neg (head?_ne_of_forall hclose), if_neg (head?_ne_of_forall hcomma)]

theorem parseElements_succ {value : JsonValue} {elements : List JsonValue}
    (hvalue : parseValue fuel input = some (value, d)) :
    parseElements (fuel + 1) elements input
      = if (skipWhitespace d).head? = some 0x5d then
          some (.array (elements ++ [value]), (skipWhitespace d).tail)
        else if (skipWhitespace d).head? = some 0x2c then
          parseElements fuel (elements ++ [value]) (skipWhitespace d).tail
        else none := by
  rw [parseElements]
  simp only [Option.bind_eq_bind, hvalue, Option.bind_some]
  split
  · rename_i hclose
    rw [hclose]
    rfl
  · rename_i hcomma
    rw [hcomma]
    rfl
  · rename_i hclose hcomma
    rw [if_neg (head?_ne_of_forall hclose), if_neg (head?_ne_of_forall hcomma)]

end Rounds

/-! ## Soundness -/

theorem eq_of_isPrefixOf {word input : Bytes} (h : word.isPrefixOf input = true) :
    input = word ++ input.drop word.length := by
  obtain ⟨tail, rfl⟩ := List.isPrefixOf_iff_prefix.1 h
  rw [List.drop_left]

theorem nodup_snoc {members : List (Bytes × JsonValue)} {name : Bytes} {value : JsonValue}
    (hnames : (members.map Prod.fst).Nodup)
    (h : ¬(members.any fun member => member.1 = name) = true) :
    ((members ++ [(name, value)]).map Prod.fst).Nodup := by
  rw [List.map_append, List.map_singleton, List.nodup_append]
  refine ⟨hnames, List.nodup_singleton _, ?_⟩
  rintro known hknown _ hname rfl
  obtain rfl := List.mem_singleton.1 hname
  obtain ⟨member, hmember, rfl⟩ := List.mem_map.1 hknown
  exact h (List.any_eq_true.2 ⟨member, hmember, by simp⟩)

-- the induction is on the fuel
mutual

theorem parseValue_sound : ∀ {fuel : ℕ} {input rest : Bytes} {value : JsonValue},
    parseValue fuel input = some (value, rest) →
      value.Readable ∧ ∃ a, Blank dialect input a ∧ Spells dialect value.toJson a rest
  | 0, _, _, _, h => by cases h
  | fuel + 1, input, rest, value, h => by
    have hblank := blank_skipWhitespace input
    unfold parseValue at h
    simp only at h
    split at h
    · cases h
    · obtain ⟨⟨text, rest⟩, hread, heq⟩ := Option.map_eq_some_iff.1 h
      obtain ⟨rfl, rfl⟩ := Prod.mk.inj heq
      obtain ⟨a, hfront, hquoted⟩ := parseString_eq_some.1 hread
      exact ⟨trivial, a, hblank.trans hfront, hquoted⟩
    · obtain ⟨members, rfl, hread, hmembers⟩ := parseObject_sound h
      exact ⟨hread, _, hblank, hmembers⟩
    · obtain ⟨elements, rfl, hread, helements⟩ := parseArray_sound h
      exact ⟨hread, _, hblank, helements⟩
    · split_ifs at h with hnull htrue hfalse
      · obtain ⟨rfl, rfl⟩ := Prod.mk.inj (Option.some.inj h)
        exact ⟨trivial, _, hblank, eq_of_isPrefixOf hnull⟩
      · obtain ⟨rfl, rfl⟩ := Prod.mk.inj (Option.some.inj h)
        exact ⟨trivial, _, hblank, eq_of_isPrefixOf htrue⟩
      · obtain ⟨rfl, rfl⟩ := Prod.mk.inj (Option.some.inj h)
        exact ⟨trivial, _, hblank, eq_of_isPrefixOf hfalse⟩
      · obtain ⟨number, hsize, rfl, hnumber⟩ := parseUnsigned_sound h
        exact ⟨hsize, _, hblank, (Json.whole_decimal _ number).number, hnumber⟩

theorem parseObject_sound : ∀ {fuel : ℕ} {input rest : Bytes} {value : JsonValue},
    parseObject fuel input = some (value, rest) → ∃ members, value = .object members
      ∧ (JsonValue.object members).Readable
      ∧ Spells dialect (.object (toJsonMembers members)) input rest
  | 0, _, _, _, h => by cases h
  | fuel + 1, input, rest, value, h => by
    unfold parseObject at h
    simp only [Option.bind_eq_bind] at h
    obtain ⟨tail, hopen, hbody⟩ := Option.bind_eq_some_iff.1 h
    obtain rfl := Network.consume_eq_some.1 hopen
    have hblank := blank_skipWhitespace tail
    split at hbody
    · rename_i hclose
      obtain ⟨rfl, rfl⟩ := Prod.mk.inj (Option.some.inj hbody)
      rw [hclose] at hblank
      exact ⟨[], rfl, ⟨List.nodup_nil, trivial⟩, tail, rfl, hblank⟩
    · obtain ⟨members, -, rfl, hnames, hread, hmembers⟩ := parseMembers_sound hbody List.nodup_nil
      exact ⟨members, rfl, ⟨hnames, hread⟩, tail, rfl, hmembers.pad hblank⟩

theorem parseMembers_sound : ∀ {fuel : ℕ} {members : List (Bytes × JsonValue)}
    {input rest : Bytes} {value : JsonValue}, parseMembers fuel members input = some (value, rest) →
      (members.map Prod.fst).Nodup → ∃ tail, tail ≠ [] ∧ value = .object (members ++ tail)
        ∧ ((members ++ tail).map Prod.fst).Nodup ∧ ReadableMembers tail
        ∧ SpellsMembers dialect (toJsonMembers tail) input rest
  | 0, _, _, _, _, h, _ => by cases h
  | fuel + 1, members, input, rest, value, h, hnames => by
    have hparse := h
    unfold parseMembers at hparse
    simp only [Option.bind_eq_bind] at hparse
    obtain ⟨⟨name, b⟩, hname, hparse⟩ := Option.bind_eq_some_iff.1 hparse
    obtain ⟨c, hcolon, hparse⟩ := Option.bind_eq_some_iff.1 hparse
    obtain ⟨⟨first, d⟩, hvalue, -⟩ := Option.bind_eq_some_iff.1 hparse
    have hslot : Slot dialect (Quoted dialect name) 0x3a input c := by
      refine parseString_colon.1 ?_
      rw [hname, Option.bind_some, hcolon]
      rfl
    obtain ⟨hread, a, hfront, hspells⟩ := parseValue_sound hvalue
    rw [parseMembers_succ hslot hvalue] at h
    split_ifs at h with hknown hclose hcomma
    · obtain ⟨rfl, rfl⟩ := Prod.mk.inj (Option.some.inj h)
      refine ⟨[(name, first)], List.cons_ne_nil _ _, rfl, nodup_snoc hnames hknown,
        ⟨hread, trivial⟩, c, hslot, ?_⟩
      exact slot_of_skipWhitespace hfront hspells (head?_eq_cons hclose)
    · obtain ⟨tail, hne, rfl, hnodup, hreadTail, hrest⟩ :=
        parseMembers_sound h (nodup_snoc hnames hknown)
      obtain ⟨next, tail, rfl⟩ := List.exists_cons_of_ne_nil hne
      refine ⟨(name, first) :: next :: tail, List.cons_ne_nil _ _, by simp, by simpa using hnodup,
        ⟨hread, hreadTail⟩, c, (skipWhitespace d).tail, hslot, ?_, ?_⟩
      · exact slot_of_skipWhitespace hfront hspells (head?_eq_cons hcomma)
      · exact hrest.pad (blank_skipWhitespace _)

theorem parseArray_sound : ∀ {fuel : ℕ} {input rest : Bytes} {value : JsonValue},
    parseArray fuel input = some (value, rest) → ∃ elements, value = .array elements
      ∧ ReadableElements elements ∧ Spells dialect (.array (toJsonElements elements)) input rest
  | 0, _, _, _, h => by cases h
  | fuel + 1, input, rest, value, h => by
    unfold parseArray at h
    simp only [Option.bind_eq_bind] at h
    obtain ⟨tail, hopen, hbody⟩ := Option.bind_eq_some_iff.1 h
    obtain rfl := Network.consume_eq_some.1 hopen
    have hblank := blank_skipWhitespace tail
    split at hbody
    · rename_i hclose
      obtain ⟨rfl, rfl⟩ := Prod.mk.inj (Option.some.inj hbody)
      rw [hclose] at hblank
      exact ⟨[], rfl, trivial, tail, rfl, hblank⟩
    · obtain ⟨elements, -, rfl, hread, helements⟩ := parseElements_sound hbody
      exact ⟨elements, rfl, hread, tail, rfl, helements.pad hblank⟩

theorem parseElements_sound : ∀ {fuel : ℕ} {elements : List JsonValue} {input rest : Bytes}
    {value : JsonValue}, parseElements fuel elements input = some (value, rest) →
      ∃ tail, tail ≠ [] ∧ value = .array (elements ++ tail) ∧ ReadableElements tail
        ∧ SpellsElements dialect (toJsonElements tail) input rest
  | 0, _, _, _, _, h => by cases h
  | fuel + 1, elements, input, rest, value, h => by
    have hparse := h
    unfold parseElements at hparse
    simp only [Option.bind_eq_bind] at hparse
    obtain ⟨⟨first, d⟩, hvalue, -⟩ := Option.bind_eq_some_iff.1 hparse
    obtain ⟨hread, a, hfront, hspells⟩ := parseValue_sound hvalue
    rw [parseElements_succ hvalue] at h
    split_ifs at h with hclose hcomma
    · obtain ⟨rfl, rfl⟩ := Prod.mk.inj (Option.some.inj h)
      refine ⟨[first], List.cons_ne_nil _ _, rfl, ⟨hread, trivial⟩, ?_⟩
      exact slot_of_skipWhitespace hfront hspells (head?_eq_cons hclose)
    · obtain ⟨tail, hne, rfl, hreadTail, hrest⟩ := parseElements_sound h
      obtain ⟨next, tail, rfl⟩ := List.exists_cons_of_ne_nil hne
      refine ⟨first :: next :: tail, List.cons_ne_nil _ _, by simp, ⟨hread, hreadTail⟩, _, ?_, hrest⟩
      exact slot_of_skipWhitespace hfront hspells (head?_eq_cons hcomma)

end

/-! ## Completeness -/

theorem closed_of_ends {rest : Bytes} (h : Json.Ends rest) : Closed rest := by
  rcases rest with _ | ⟨character, rest⟩
  · rfl
  · have hnumeric := h character rfl
    simp only [Json.isNumeric, Bool.or_eq_false_iff] at hnumeric
    exact closed_cons hnumeric.1.1.1.1.1 rest

theorem parseValue_blank {input a : Bytes} (h : Blank dialect input a) (ha : Json.Solid a)
    (fuel : ℕ) : parseValue (fuel + 1) input = parseValue (fuel + 1) a := by
  unfold parseValue
  rw [skipWhitespace_blank h ha, skipWhitespace_blank .refl ha]

theorem parseValue_front {value : JsonValue} {fuel : ℕ} {input a b : Bytes}
    (h : Blank dialect input a) (ha : Json.Solid a) (hvalue : parseValue fuel a = some (value, b)) :
    parseValue fuel input = some (value, b) := by
  rcases fuel with _ | fuel
  · cases hvalue
  · rw [parseValue_blank h ha, hvalue]

theorem parseValue_string {value a rest : Bytes} (h : Quoted dialect value a rest) (fuel : ℕ) :
    parseValue (fuel + 1) a = some (.string value, rest) := by
  have hread := parseString_eq_some.2 ⟨a, .refl, h⟩
  have hskip := skipWhitespace_blank .refl h.solid
  obtain ⟨pieces, tail, rfl, -⟩ := h
  unfold parseValue
  rw [hskip]
  show (parseString (0x22 :: tail)).map _ = _
  rw [hread]
  rfl

theorem parseValue_object (fuel : ℕ) (tail : Bytes) :
    parseValue (fuel + 2) (0x7b :: tail)
      = if (skipWhitespace tail).head? = some 0x7d then
          some (.object [], (skipWhitespace tail).tail)
        else parseMembers fuel [] (skipWhitespace tail) := by
  have hopen : consume 0x7b (0x7b :: tail) = some tail := rfl
  show parseObject (fuel + 1) (0x7b :: tail) = _
  rw [parseObject, hopen]
  simp only [Option.bind_eq_bind, Option.bind_some]
  split
  · rename_i hclose
    rw [hclose]
    rfl
  · rename_i hclose
    rw [if_neg (head?_ne_of_forall hclose)]

theorem parseValue_array (fuel : ℕ) (tail : Bytes) :
    parseValue (fuel + 2) (0x5b :: tail)
      = if (skipWhitespace tail).head? = some 0x5d then
          some (.array [], (skipWhitespace tail).tail)
        else parseElements fuel [] (skipWhitespace tail) := by
  have hopen : consume 0x5b (0x5b :: tail) = some tail := rfl
  show parseArray (fuel + 1) (0x5b :: tail) = _
  rw [parseArray, hopen]
  simp only [Option.bind_eq_bind, Option.bind_some]
  split
  · rename_i hclose
    rw [hclose]
    rfl
  · rename_i hclose
    rw [if_neg (head?_ne_of_forall hclose)]

/-- The list behind an opening bracket does not begin with the closing one. -/
theorem head?_ne_bracket {elements : List Json.Value} {tail rest : Bytes} (hne : elements ≠ [])
    (h : SpellsElements dialect elements tail rest) :
    (skipWhitespace tail).head? ≠ some 0x5d := by
  obtain ⟨value, elements, rfl⟩ := List.exists_cons_of_ne_nil hne
  intro hhead
  have hclose := blank_skipWhitespace tail
  rw [head?_eq_cons hhead] at hclose
  exact h.not_close hclose

theorem head?_ne_brace {members : List (Bytes × Json.Value)} {tail rest : Bytes}
    (hne : members ≠ []) (h : SpellsMembers dialect members tail rest) :
    (skipWhitespace tail).head? ≠ some 0x7d := by
  obtain ⟨member, members, rfl⟩ := List.exists_cons_of_ne_nil hne
  intro hhead
  have hclose := blank_skipWhitespace tail
  rw [head?_eq_cons hhead] at hclose
  exact h.not_close hclose

theorem length_skipWhitespace_le (input : Bytes) :
    (skipWhitespace input).length ≤ input.length :=
  (blank_skipWhitespace input).length_le

-- the induction is on the value; an element takes three calls and at least one byte
mutual

theorem parseValue_complete : ∀ {value : JsonValue} {fuel : ℕ} {a rest : Bytes},
    value.Readable → Spells dialect value.toJson a rest → Json.Ends rest → 3 * a.length ≤ fuel →
      parseValue fuel a = some (value, rest)
  | value, 0, a, rest, _, h, _, hfuel => by
    have hlength := h.length_lt
    omega
  | value, 1, a, rest, _, h, _, hfuel => by
    have hlength := h.length_lt
    omega
  | .null, fuel + 2, a, rest, _, h, _, _ => by
    rw [show a = _ from h]
    rfl
  | .boolean value, fuel + 2, a, rest, _, h, _, _ => by
    rw [show a = _ from h]
    cases value <;> rfl
  | .string value, fuel + 2, a, rest, _, h, _, _ => parseValue_string h _
  | .unsigned value, fuel + 2, a, rest, hsize, ⟨_, heq⟩, hends, _ => by
    rw [heq]
    exact parseValue_decimal hsize (closed_of_ends hends) _
  | .object [], fuel + 2, a, rest, _, ⟨tail, heq, h⟩, _, _ => by
    have hskip := skipWhitespace_blank h (Json.solid_cons Json.token_brace.solid)
    rw [heq, parseValue_object, hskip]
    rfl
  | .object (member :: members), fuel + 2, a, rest, hread, ⟨tail, heq, h⟩, _, hfuel => by
    have hlength := length_skipWhitespace_le tail
    rw [heq, List.length_cons] at hfuel
    rw [heq, parseValue_object, if_neg (head?_ne_brace (List.cons_ne_nil _ _) h)]
    exact parseMembers_complete (List.cons_ne_nil _ _) hread.2 hread.1 h.trim (by omega)
  | .array [], fuel + 2, a, rest, _, ⟨tail, heq, h⟩, _, _ => by
    have hskip := skipWhitespace_blank h (Json.solid_cons Json.token_bracket.solid)
    rw [heq, parseValue_array, hskip]
    rfl
  | .array (value :: elements), fuel + 2, a, rest, hread, ⟨tail, heq, h⟩, _, hfuel => by
    have hlength := length_skipWhitespace_le tail
    rw [heq, List.length_cons] at hfuel
    rw [heq, parseValue_array, if_neg (head?_ne_bracket (List.cons_ne_nil _ _) h)]
    exact parseElements_complete (List.cons_ne_nil _ _) hread h.trim (by omega)

theorem parseMembers_complete : ∀ {tail members : List (Bytes × JsonValue)} {fuel : ℕ}
    {input rest : Bytes}, tail ≠ [] → ReadableMembers tail →
      ((members ++ tail).map Prod.fst).Nodup →
      SpellsMembers dialect (toJsonMembers tail) input rest → 3 * input.length + 1 ≤ fuel →
        parseMembers fuel members input = some (.object (members ++ tail), rest)
  | [], _, _, _, _, hne, _, _, _, _ => absurd rfl hne
  | _ :: _, _, 0, _, _, _, _, _, _, hfuel => absurd hfuel (by omega)
  | [(name, value)], members, fuel + 1, input, rest, _, hread, hnames, ⟨c, hname, h⟩, hfuel => by
    have hcolon := hname.length_lt fun _ _ h => h.length_lt
    obtain ⟨a, b, hfront, hspells, hbehind⟩ := h
    have hlength := hfront.length_le
    have hvalue : parseValue fuel c = _ := parseValue_front hfront hspells.solid
      (parseValue_complete hread.1 hspells
        (hbehind.ends Json.token_brace.ends) (by omega))
    rw [parseMembers_succ hname hvalue, any_name_eq_false (fst_notMem hnames),
      skipWhitespace_blank hbehind (Json.solid_cons Json.token_brace.solid)]
    rfl
  | (name, value) :: next :: tail, members, fuel + 1, input, rest, _, hread, hnames,
      ⟨c, d, hname, h, hrest⟩, hfuel => by
    have hcolon := hname.length_lt fun _ _ h => h.length_lt
    have hcomma := h.length_lt fun _ _ h => h.length_lt
    obtain ⟨a, b, hfront, hspells, hbehind⟩ := h
    have hlength := hfront.length_le
    have hlengthRest := length_skipWhitespace_le d
    have hvalue : parseValue fuel c = _ := parseValue_front hfront hspells.solid
      (parseValue_complete hread.1 hspells
        (hbehind.ends Json.token_comma.ends) (by omega))
    have hnext : parseMembers fuel (members ++ [(name, value)]) (skipWhitespace d)
        = some (.object (members ++ [(name, value)] ++ next :: tail), rest) :=
      parseMembers_complete (List.cons_ne_nil _ _) hread.2 (by simpa using hnames) hrest.trim
        (by omega)
    rw [parseMembers_succ hname hvalue, any_name_eq_false (fst_notMem hnames),
      skipWhitespace_blank hbehind (Json.solid_cons Json.token_comma.solid)]
    rw [List.append_assoc] at hnext
    exact hnext

theorem parseElements_complete : ∀ {tail elements : List JsonValue} {fuel : ℕ}
    {input rest : Bytes}, tail ≠ [] → ReadableElements tail →
      SpellsElements dialect (toJsonElements tail) input rest → 3 * input.length + 1 ≤ fuel →
        parseElements fuel elements input = some (.array (elements ++ tail), rest)
  | [], _, _, _, _, hne, _, _, _ => absurd rfl hne
  | _ :: _, _, 0, _, _, _, _, _, hfuel => absurd hfuel (by omega)
  | [value], elements, fuel + 1, input, rest, _, hread, ⟨a, b, hfront, hspells, hbehind⟩,
      hfuel => by
    have hlength := hfront.length_le
    have hvalue : parseValue fuel input = _ := parseValue_front hfront hspells.solid
      (parseValue_complete hread.1 hspells
        (hbehind.ends Json.token_bracket.ends) (by omega))
    rw [parseElements_succ hvalue,
      skipWhitespace_blank hbehind (Json.solid_cons Json.token_bracket.solid)]
    rfl
  | value :: next :: tail, elements, fuel + 1, input, rest, _, hread, ⟨c, h, hrest⟩, hfuel => by
    have hcomma := h.length_lt fun _ _ h => h.length_lt
    obtain ⟨a, b, hfront, hspells, hbehind⟩ := h
    have hlength := hfront.length_le
    have hvalue : parseValue fuel input = _ := parseValue_front hfront hspells.solid
      (parseValue_complete hread.1 hspells
        (hbehind.ends Json.token_comma.ends) (by omega))
    have hnext : parseElements fuel (elements ++ [value]) c
        = some (.array (elements ++ [value] ++ next :: tail), rest) :=
      parseElements_complete (List.cons_ne_nil _ _) hread.2 hrest (by omega)
    rw [parseElements_succ hvalue,
      skipWhitespace_blank hbehind (Json.solid_cons Json.token_comma.solid)]
    rw [List.append_assoc] at hnext
    exact hnext

end

/-- From three calls for each byte on, the fuel does not matter. -/
theorem parseValue_document {input : Bytes} {value : JsonValue} {fuel : ℕ}
    (hfuel : 3 * input.length ≤ fuel) :
    (∃ rest, parseValue fuel (skipWhitespace input) = some (value, rest)
        ∧ skipWhitespace rest = [])
      ↔ value.Readable ∧ Json.Document dialect value.toJson input := by
  have hblank := blank_skipWhitespace input
  constructor
  · rintro ⟨rest, hvalue, hend⟩
    obtain ⟨hread, a, hfront, hspells⟩ := parseValue_sound hvalue
    have hbehind := blank_skipWhitespace rest
    rw [hend] at hbehind
    exact ⟨hread, a, rest, hblank.trans hfront, hspells, hbehind⟩
  · rintro ⟨hread, a, rest, hfront, hspells, hbehind⟩
    have hends : Json.Ends [] := by nofun
    have hlength := hfront.length_le
    rw [skipWhitespace_blank hfront hspells.solid]
    exact ⟨rest, parseValue_complete hread hspells (hbehind.ends hends) (by omega),
      skipWhitespace_blank hbehind (by nofun)⟩

/-- The client accepts exactly the texts of its values and gives each back, whatever the fuel. -/
theorem parse_eq_some (input : Bytes) (value : JsonValue) :
    (parse input = some value ↔
        value.Readable ∧ Json.Document dialect value.toJson input)
      ∧ ∀ fuel, 3 * input.length ≤ fuel →
        ((∃ rest, parseValue fuel (skipWhitespace input) = some (value, rest)
          ∧ skipWhitespace rest = []) ↔ parse input = some value) := by
  have hparse : parse input = some value ↔
      ∃ rest, parseValue (3 * input.length) (skipWhitespace input) = some (value, rest)
        ∧ skipWhitespace rest = [] := by
    unfold parse
    constructor
    · intro h
      obtain ⟨⟨value, rest⟩, hvalue, h⟩ := Option.bind_eq_some_iff.1 h
      simp only at h
      split_ifs at h with hend
      obtain rfl := Option.some.inj h
      exact ⟨rest, hvalue, hend⟩
    · rintro ⟨rest, hvalue, hend⟩
      rw [hvalue]
      exact if_pos hend
  have hdocument := hparse.trans (parseValue_document (Nat.le_refl _))
  exact ⟨hdocument, fun fuel hfuel => (parseValue_document hfuel).trans hdocument.symm⟩

end JsonParser

end VoxTree

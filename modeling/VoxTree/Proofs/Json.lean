import Mathlib.Data.List.Nodup
import VoxTree.ControlPlaneHttp
import VoxTree.JsonParser
import VoxTree.Lib.Encoding

/-!
# The JSON of the adapter read by the client

A value is written the way the adapter writes it, without whitespace. The client's parser reads
back every value whose numbers fit a `std::uint64_t` and whose objects repeat no name
(`parse_encode`).
-/

namespace VoxTree

namespace JsonValue

-- the adapter's writer
mutual

def encode : JsonValue → Bytes
  | .null => bytes "null"
  | .string value => Network.escapeJson value
  | .unsigned value => decimal value
  | .boolean value => Network.jsonBoolean value
  | .object members => 0x7b :: [0x2c].intercalate (encodeMembers members) ++ [0x7d]
  | .array elements => 0x5b :: [0x2c].intercalate (encodeElements elements) ++ [0x5d]

def encodeMembers : List (Bytes × JsonValue) → List Bytes
  | [] => []
  | (name, value) :: members => (Network.escapeJson name ++ 0x3a :: encode value)
      :: encodeMembers members

def encodeElements : List JsonValue → List Bytes
  | [] => []
  | value :: elements => encode value :: encodeElements elements

end

-- what the parser can give back
mutual

def Readable : JsonValue → Prop
  | .unsigned value => value < UInt64.size
  | .object members => (members.map Prod.fst).Nodup ∧ ReadableMembers members
  | .array elements => ReadableElements elements
  | _ => True

def ReadableMembers : List (Bytes × JsonValue) → Prop
  | [] => True
  | (_, value) :: members => Readable value ∧ ReadableMembers members

def ReadableElements : List JsonValue → Prop
  | [] => True
  | value :: elements => Readable value ∧ ReadableElements elements

end

theorem encodeMembers_cons_cons (name : Bytes) (value : JsonValue) (next : Bytes × JsonValue)
    (members : List (Bytes × JsonValue)) :
    [0x2c].intercalate (encodeMembers ((name, value) :: next :: members))
      = Network.escapeJson name ++ 0x3a :: value.encode
        ++ 0x2c :: [0x2c].intercalate (encodeMembers (next :: members)) := by
  obtain ⟨nextName, nextValue⟩ := next
  simp [encodeMembers]

theorem encodeElements_cons_cons (value next : JsonValue) (values : List JsonValue) :
    [0x2c].intercalate (encodeElements (value :: next :: values))
      = value.encode ++ 0x2c :: [0x2c].intercalate (encodeElements (next :: values)) := by
  simp [encodeElements]

/-- A first member opens with a quote. -/
theorem encodeMembers_cons (member : Bytes × JsonValue) (members : List (Bytes × JsonValue)) :
    ∃ tail, [0x2c].intercalate (encodeMembers (member :: members)) = 0x22 :: tail :=
  ⟨_, List.intercalate_cons_cons_left⟩

/-! ## Objects with named members -/

/-- The object with these members. -/
def ofMembers (members : List (String × JsonValue)) : JsonValue :=
  .object (members.map fun member => (bytes member.1, member.2))

theorem encodeMembers_map : ∀ members : List (String × JsonValue),
    encodeMembers (members.map fun member => (bytes member.1, member.2))
      = (members.map fun member => (member.1, encode member.2)).map fun member =>
        Network.escapeJson (bytes member.1) ++ 0x3a :: member.2
  | [] => rfl
  | member :: members => by
    rw [List.map_cons, encodeMembers, encodeMembers_map members]
    rfl

theorem encode_ofMembers (members : List (String × JsonValue)) :
    (ofMembers members).encode
      = Network.jsonObject (members.map fun member => (member.1, member.2.encode)) := by
  rw [ofMembers, encode, encodeMembers_map]
  rfl

theorem encodeElements_eq : ∀ elements : List JsonValue,
    encodeElements elements = elements.map encode
  | [] => rfl
  | element :: elements => by rw [encodeElements, encodeElements_eq elements, List.map_cons]

theorem encode_array (elements : List JsonValue) :
    (array elements).encode = Network.jsonArray (elements.map encode) := by
  rw [encode, encodeElements_eq]
  rfl

theorem readableMembers_iff : ∀ {members : List (Bytes × JsonValue)},
    ReadableMembers members ↔ ∀ member ∈ members, member.2.Readable
  | [] => by simp [ReadableMembers]
  | member :: members => by
    rw [List.forall_mem_cons, ← readableMembers_iff]
    rfl

theorem readableElements_iff : ∀ {elements : List JsonValue},
    ReadableElements elements ↔ ∀ element ∈ elements, element.Readable
  | [] => by simp [ReadableElements]
  | element :: elements => by
    rw [List.forall_mem_cons, ← readableElements_iff]
    rfl

theorem readable_ofMembers {members : List (String × JsonValue)}
    (hnames : (members.map Prod.fst).Nodup) (h : ∀ member ∈ members, member.2.Readable) :
    (ofMembers members).Readable := by
  refine ⟨?_, readableMembers_iff.2 ?_⟩
  · rw [List.map_map]
    have hnodup := hnames.map bytes_injective
    rwa [List.map_map] at hnodup
  · simp only [List.mem_map]
    rintro _ ⟨member, hmember, rfl⟩
    exact h member hmember

/-- A member is found by its name. -/
theorem field_ofMembers {α : Type*} (members : List (String × JsonValue)) (name : String)
    (get : JsonValue → Option α) :
    field (ofMembers members) (bytes name) get
      = (members.find? fun member => member.1 = name).bind fun member => get member.2 := by
  unfold field ofMembers
  dsimp only
  rw [List.find?_map]
  simp only [Function.comp_def, bytes_injective.eq_iff]
  cases members.find? fun member => member.1 = name <;> rfl

end JsonValue

namespace JsonParser

/-! ## Texts -/

theorem hexDigit_hexDigits : ∀ digit < 16,
    hexDigit (Network.hexDigits.getD digit 0) = some digit := by
  decide

/-- A control character that is written by its number. -/
theorem parseHexCodeUnit_control {character : UInt8} (h : character < 0x20) (rest : Bytes) :
    parseHexCodeUnit (0x30 :: 0x30 :: Network.hexDigits.getD (character.toNat >>> 4) 0
      :: Network.hexDigits.getD (character.toNat &&& 0x0f) 0 :: rest)
      = some (character.toNat, rest) := by
  have hsmall : character.toNat < 32 := h
  have hhigh : character.toNat >>> 4 = character.toNat / 16 := Nat.shiftRight_eq_div_pow _ _
  have hlow : character.toNat &&& 0x0f = character.toNat % 16 := Nat.and_two_pow_sub_one_eq_mod _ 4
  have hzero : hexDigit 0x30 = some 0 := rfl
  have hvalue : ((0 * 16 + 0) * 16 + character.toNat / 16) * 16 + character.toNat % 16
      = character.toNat := by omega
  rw [hhigh, hlow]
  simp only [parseHexCodeUnit, hzero, hexDigit_hexDigits (character.toNat / 16) (by omega),
    hexDigit_hexDigits (character.toNat % 16) (by omega), Option.bind_eq_bind, Option.bind_some,
    Option.pure_def, hvalue]

theorem parseEscapedCodePoint_control {character : UInt8} (h : character < 0x20) (rest : Bytes) :
    parseEscapedCodePoint (0x30 :: 0x30 :: Network.hexDigits.getD (character.toNat >>> 4) 0
      :: Network.hexDigits.getD (character.toNat &&& 0x0f) 0 :: rest)
      = some ([character], rest) := by
  have hsmall : character.toNat < 32 := h
  unfold parseEscapedCodePoint
  rw [parseHexCodeUnit_control h]
  show (if 0xd800 ≤ character.toNat ∧ character.toNat ≤ 0xdbff then _ else _) = _
  rw [if_neg (by omega), if_neg (by omega)]
  unfold utf8
  rw [if_pos (by omega), UInt8.ofNat_toNat]
  rfl

/-- One character that the adapter wrote. -/
theorem parseCharacters_escaped (character : UInt8) (fuel : ℕ) (rest : Bytes) :
    parseCharacters (fuel + 1) (Network.escapeCharacter character ++ rest)
      = (parseCharacters fuel rest).map (Prod.map (character :: ·) id) := by
  unfold Network.escapeCharacter
  split
  · rfl
  · rfl
  · rfl
  · rfl
  · rfl
  · rfl
  · rfl
  · rename_i hquote hbackslash _ _ _ _ _
    split
    · rename_i hcontrol
      show (parseEscapedCodePoint (0x30 :: 0x30 :: _ :: _ :: rest)).bind _ = _
      rw [parseEscapedCodePoint_control hcontrol]
      rfl
    · rename_i hprinted
      show parseCharacters (fuel + 1) (character :: rest) = _
      conv_lhs => unfold parseCharacters
      rw [if_neg hquote, if_neg hprinted, if_pos hbackslash]

/-- A text is read back in front of anything. -/
theorem parseCharacters_escapeJson : ∀ (value : Bytes) {fuel : ℕ} (rest : Bytes),
    value.length < fuel →
      parseCharacters fuel (value.flatMap Network.escapeCharacter ++ 0x22 :: rest)
        = some (value, rest)
  | [], fuel + 1, rest, _ => rfl
  | character :: value, fuel + 1, rest, h => by
    have hlength : value.length < fuel := by simpa using h
    rw [List.flatMap_cons, List.append_assoc, parseCharacters_escaped,
      parseCharacters_escapeJson value rest hlength]
    rfl

theorem length_le_flatMap_escapeCharacter (value : Bytes) :
    value.length ≤ (value.flatMap Network.escapeCharacter).length := by
  induction value with
  | nil => simp
  | cons character value ih =>
    have hpos : 0 < (Network.escapeCharacter character).length := by
      unfold Network.escapeCharacter
      split <;> try decide
      split
      · simp [bytes]
      · simp
    rw [List.flatMap_cons, List.length_append, List.length_cons]
    omega

theorem parseString_escapeJson (value rest : Bytes) :
    parseString (Network.escapeJson value ++ rest) = some (value, rest) := by
  have hquoted : Network.escapeJson value ++ rest
      = 0x22 :: (value.flatMap Network.escapeCharacter ++ 0x22 :: rest) := by
    simp [Network.escapeJson]
  rw [hquoted]
  show parseCharacters _ _ = _
  refine parseCharacters_escapeJson value rest ?_
  have := length_le_flatMap_escapeCharacter value
  simp only [List.length_append, List.length_cons]
  omega

/-! ## Numbers -/

/-- What may stand behind a number. -/
def Closed (rest : Bytes) : Prop := rest.head?.all (!isDigit ·) = true

theorem closed_cons {character : UInt8} (h : isDigit character = false) (rest : Bytes) :
    Closed (character :: rest) := by
  simp [Closed, h]

theorem takeWhile_decimal_append (value : ℕ) {rest : Bytes} (hrest : Closed rest) :
    (decimal value ++ rest).takeWhile isDigit = decimal value := by
  have hnone : rest.takeWhile isDigit = [] := by
    rcases rest with _ | ⟨character, rest⟩
    · rfl
    · have hcharacter : isDigit character = false := by simpa [Closed] using hrest
      simp [hcharacter]
  have hall : ∀ digit ∈ decimal value, isDigit digit = true := fun _ =>
    Encoding.isDigit_of_mem_decimal
  rw [List.takeWhile_append_of_pos hall, hnone, List.append_nil]

theorem fromChars_decimal {value : ℕ} (hvalue : value < UInt64.size) :
    fromChars (decimal value) = some value := by
  have hclosed : Closed [] := rfl
  have hread := Encoding.readDecimal_decimal value hclosed
  have htake := takeWhile_decimal_append value hclosed
  rw [List.append_nil] at hread htake
  have hfold : (decimal value).foldl (fun value digit => 10 * value + (digit.toNat - 0x30)) 0
      = value := htake ▸ (Prod.mk.inj hread).1
  have hfits : (decimal value).foldl (fun value digit => 10 * value + (digit.toNat - 0x30)) 0
      < UInt64.size := by
    rw [hfold]
    exact hvalue
  have hall : (decimal value).all isDigit = true :=
    List.all_eq_true.2 fun _ => Encoding.isDigit_of_mem_decimal
  unfold fromChars
  rw [if_pos ⟨Encoding.decimal_ne_nil value, hall, hfits⟩, hfold]

theorem parseUnsigned_decimal {value : ℕ} (hvalue : value < UInt64.size) {rest : Bytes}
    (hrest : Closed rest) :
    parseUnsigned (decimal value ++ rest) = some (.unsigned value, rest) := by
  have hread := Encoding.readDecimal_decimal value hrest
  have htake := takeWhile_decimal_append value hrest
  have hdrop : (decimal value ++ rest).dropWhile isDigit = rest := (Prod.mk.inj hread).2
  have hzero : ¬(1 < (decimal value).length ∧ (decimal value).head? = some 0x30) := by
    rintro ⟨hlong, hhead⟩
    rcases Nat.eq_zero_or_pos value with rfl | hpos
    · exact absurd hlong (by decide)
    · exact Encoding.head?_decimal_ne hpos hhead
  unfold parseUnsigned
  rw [htake, if_neg hzero, fromChars_decimal hvalue, hdrop]
  rfl

/-! ## Whole values -/

theorem decimal_cons (value : ℕ) :
    ∃ digit digits, decimal value = digit :: digits ∧ isDigit digit = true := by
  rcases hdigits : decimal value with _ | ⟨digit, digits⟩
  · exact absurd hdigits (Encoding.decimal_ne_nil value)
  · have hmem : digit ∈ decimal value := hdigits ▸ List.mem_cons_self
    exact ⟨digit, digits, rfl, Encoding.isDigit_of_mem_decimal hmem⟩

theorem skipWhitespace_decimal (value : ℕ) (rest : Bytes) :
    skipWhitespace (decimal value ++ rest) = decimal value ++ rest := by
  obtain ⟨digit, digits, hdigits, hdigit⟩ := decimal_cons value
  have hspace : digit ≠ 0x20 ∧ ¬digit ≤ 0x0d := by
    simp only [isDigit, Bool.and_eq_true, decide_eq_true_eq, UInt8.le_iff_toNat_le] at hdigit
    refine ⟨?_, ?_⟩
    · rintro rfl
      simp at hdigit
    · rw [UInt8.le_iff_toNat_le]
      simp only [UInt8.reduceToNat] at hdigit ⊢
      omega
  simp [skipWhitespace, hdigits, hspace]

theorem skipWhitespace_encode (value : JsonValue) (rest : Bytes) :
    skipWhitespace (value.encode ++ rest) = value.encode ++ rest := by
  cases value with
  | unsigned value => exact skipWhitespace_decimal value rest
  | boolean value => cases value <;> rfl
  | _ => rfl

/-! ### One round of a loop -/

section Rounds

variable {fuel : ℕ} {value : JsonValue} {rest : Bytes} {name : Bytes}

theorem any_name_eq_false {before : List (Bytes × JsonValue)} (h : name ∉ before.map Prod.fst) :
    (before.any fun member => member.1 = name) = false := by
  rw [List.any_eq_false]
  intro member hmember heq
  exact h (List.mem_map.2 ⟨member, hmember, by simpa using heq⟩)

theorem parseMembers_last {before : List (Bytes × JsonValue)} (h : name ∉ before.map Prod.fst)
    (hvalue : parseValue fuel (value.encode ++ 0x7d :: rest) = some (value, 0x7d :: rest)) :
    parseMembers (fuel + 1) before (Network.escapeJson name ++ 0x3a :: value.encode ++ 0x7d :: rest)
      = some (.object (before ++ [(name, value)]), rest) := by
  have hcolon : consume 0x3a (skipWhitespace (0x3a :: (value.encode ++ 0x7d :: rest)))
      = some (value.encode ++ 0x7d :: rest) := rfl
  have hclose : skipWhitespace (0x7d :: rest) = 0x7d :: rest := rfl
  rw [List.append_assoc, parseMembers, parseString_escapeJson]
  simp only [Option.bind_eq_bind, Option.bind_some, List.cons_append, hcolon, hvalue, hclose,
    any_name_eq_false h]
  rfl

theorem parseMembers_next {before : List (Bytes × JsonValue)} (h : name ∉ before.map Prod.fst)
    (hvalue : parseValue fuel (value.encode ++ 0x2c :: rest) = some (value, 0x2c :: rest)) :
    parseMembers (fuel + 1) before (Network.escapeJson name ++ 0x3a :: value.encode ++ 0x2c :: rest)
      = parseMembers fuel (before ++ [(name, value)]) (skipWhitespace rest) := by
  have hcolon : consume 0x3a (skipWhitespace (0x3a :: (value.encode ++ 0x2c :: rest)))
      = some (value.encode ++ 0x2c :: rest) := rfl
  have hcomma : skipWhitespace (0x2c :: rest) = 0x2c :: rest := rfl
  rw [List.append_assoc, parseMembers, parseString_escapeJson]
  simp only [Option.bind_eq_bind, Option.bind_some, List.cons_append, hcolon, hvalue, hcomma,
    any_name_eq_false h]
  rfl

theorem parseElements_last {before : List JsonValue}
    (hvalue : parseValue fuel (value.encode ++ 0x5d :: rest) = some (value, 0x5d :: rest)) :
    parseElements (fuel + 1) before (value.encode ++ 0x5d :: rest)
      = some (.array (before ++ [value]), rest) := by
  rw [parseElements, hvalue]
  rfl

theorem parseElements_next {before : List JsonValue}
    (hvalue : parseValue fuel (value.encode ++ 0x2c :: rest) = some (value, 0x2c :: rest)) :
    parseElements (fuel + 1) before (value.encode ++ 0x2c :: rest)
      = parseElements fuel (before ++ [value]) rest := by
  rw [parseElements, hvalue]
  rfl

end Rounds

/-! ### Every value -/

/-- No element is written like the end of an array. -/
theorem encode_ne_close (value : JsonValue) (rest : Bytes) :
    ∃ character tail, value.encode ++ rest = character :: tail ∧ character ≠ 0x5d := by
  cases value with
  | unsigned value =>
    obtain ⟨digit, digits, hdigits, hdigit⟩ := decimal_cons value
    refine ⟨digit, digits ++ rest, by rw [JsonValue.encode, hdigits]; rfl, ?_⟩
    rintro rfl
    exact absurd hdigit (by decide)
  | boolean value => cases value <;> exact ⟨_, _, rfl, by decide⟩
  | _ => exact ⟨_, _, rfl, by decide⟩

/-- An array whose first element does not look like its end. -/
theorem parseValue_elements (value : JsonValue) (values : List JsonValue) (fuel : ℕ)
    (rest : Bytes) :
    parseValue (fuel + 2)
        (0x5b :: ([0x2c].intercalate (JsonValue.encodeElements (value :: values)) ++ rest))
      = parseElements fuel []
        ([0x2c].intercalate (JsonValue.encodeElements (value :: values)) ++ rest) := by
  obtain ⟨tail, htail⟩ : ∃ tail,
      [0x2c].intercalate (JsonValue.encodeElements (value :: values)) ++ rest
        = value.encode ++ tail := by
    cases values with
    | nil => exact ⟨rest, by simp [JsonValue.encodeElements]⟩
    | cons next values =>
      rw [JsonValue.encodeElements_cons_cons, List.append_assoc]
      exact ⟨_, rfl⟩
  have hskip := skipWhitespace_encode value tail
  obtain ⟨character, remaining, heq, hclose⟩ := encode_ne_close value tail
  rw [htail, heq]
  rw [heq] at hskip
  show parseArray (fuel + 1) (0x5b :: character :: remaining) = _
  simp only [parseArray, consume, if_true, Option.bind_eq_bind, Option.bind_some, hskip]
  split
  · rename_i hend
    exact absurd (List.cons.inj hend).1 hclose
  · rfl

/-- An object with a first member, so one that opens with a quote. -/
theorem parseValue_members (member : Bytes × JsonValue) (members : List (Bytes × JsonValue))
    (fuel : ℕ) (rest : Bytes) :
    parseValue (fuel + 2)
        (0x7b :: ([0x2c].intercalate (JsonValue.encodeMembers (member :: members)) ++ rest))
      = parseMembers fuel []
        ([0x2c].intercalate (JsonValue.encodeMembers (member :: members)) ++ rest) := by
  obtain ⟨tail, htail⟩ := JsonValue.encodeMembers_cons member members
  rw [htail]
  rfl

theorem ne_of_isDigit {digit character : UInt8} (h : isDigit digit = true)
    (hcharacter : isDigit character = false) : digit ≠ character := by
  rintro rfl
  rw [h] at hcharacter
  cases hcharacter

theorem isPrefixOf_of_isDigit {digit character : UInt8} (h : isDigit digit = true)
    (hcharacter : isDigit character = false) (word rest : Bytes) :
    (character :: word).isPrefixOf (digit :: rest) = false := by
  simp [List.isPrefixOf, (ne_of_isDigit h hcharacter).symm]

/-- A number is read as one, nothing else starting with a digit. -/
theorem parseValue_decimal {value : ℕ} (hvalue : value < UInt64.size) {rest : Bytes}
    (hrest : Closed rest) (fuel : ℕ) :
    parseValue (fuel + 1) (decimal value ++ rest) = some (.unsigned value, rest) := by
  have hparse := parseUnsigned_decimal hvalue hrest
  have hskip := skipWhitespace_decimal value rest
  obtain ⟨digit, digits, hdigits, hdigit⟩ := decimal_cons value
  have hne : ∀ character, isDigit character = false → digit ≠ character := fun _ =>
    ne_of_isDigit hdigit
  have hnull : (bytes "null").isPrefixOf (digit :: (digits ++ rest)) = false :=
    isPrefixOf_of_isDigit hdigit (show isDigit 0x6e = false by decide) (bytes "ull") _
  have htrue : (bytes "true").isPrefixOf (digit :: (digits ++ rest)) = false :=
    isPrefixOf_of_isDigit hdigit (show isDigit 0x74 = false by decide) (bytes "rue") _
  have hfalse : (bytes "false").isPrefixOf (digit :: (digits ++ rest)) = false :=
    isPrefixOf_of_isDigit hdigit (show isDigit 0x66 = false by decide) (bytes "alse") _
  rw [hdigits] at hparse hskip
  rw [hdigits, List.cons_append]
  rw [List.cons_append] at hparse hskip
  unfold parseValue
  rw [hskip]
  dsimp only
  split
  · rename_i heq
    cases heq
  · rename_i heq
    exact absurd (List.cons.inj heq).1 (hne _ (by decide))
  · rename_i heq
    exact absurd (List.cons.inj heq).1 (hne _ (by decide))
  · rename_i heq
    exact absurd (List.cons.inj heq).1 (hne _ (by decide))
  · rw [hnull, htrue, hfalse]
    exact hparse

theorem fst_notMem {name : Bytes} {value : JsonValue} {before members : List (Bytes × JsonValue)}
    (h : ((before ++ (name, value) :: members).map Prod.fst).Nodup) :
    name ∉ before.map Prod.fst := by
  rw [List.map_append] at h
  exact fun hmem => (List.nodup_append.1 h).2.2 name hmem name (by simp) rfl

-- the fuel of the whole parser: three calls for each byte
mutual

/-- A value that the adapter wrote is read back, in front of anything but a digit. -/
theorem parseValue_encode : ∀ (value : JsonValue) (fuel : ℕ) (rest : Bytes), value.Readable →
    Closed rest → 3 * value.encode.length ≤ fuel →
      parseValue fuel (value.encode ++ rest) = some (value, rest)
  | .null, fuel + 1, rest, _, _, _ => rfl
  | .string value, fuel + 1, rest, _, _, _ => by
    show (parseString (Network.escapeJson value ++ rest)).map _ = _
    rw [parseString_escapeJson]
    rfl
  | .unsigned value, 0, rest, _, _, hfuel => by
    have hpos : 0 < (decimal value).length :=
      List.length_pos_of_ne_nil (Encoding.decimal_ne_nil value)
    have hlength : 3 * (decimal value).length ≤ 0 := hfuel
    omega
  | .unsigned value, fuel + 1, rest, hvalue, hrest, _ => parseValue_decimal hvalue hrest fuel
  | .boolean true, fuel + 1, rest, _, _, _ => rfl
  | .boolean false, fuel + 1, rest, _, _, _ => rfl
  | .object [], fuel + 2, rest, _, _, _ => rfl
  | .object (member :: members), fuel + 2, rest, hmembers, _, hfuel => by
    have hread := parseMembers_encode (member :: members) [] fuel rest (List.cons_ne_nil _ _)
      hmembers.2 hmembers.1
      (by simp only [JsonValue.encode, List.length_append, List.length_cons] at hfuel; omega)
    rw [JsonValue.encode, List.cons_append, List.cons_append, List.append_assoc]
    exact (parseValue_members member members fuel _).trans hread
  | .array [], fuel + 2, rest, _, _, _ => rfl
  | .array (value :: values), fuel + 2, rest, hvalues, _, hfuel => by
    have hread := parseElements_encode (value :: values) [] fuel rest (List.cons_ne_nil _ _) hvalues
      (by simp only [JsonValue.encode, List.length_append, List.length_cons] at hfuel; omega)
    rw [JsonValue.encode, List.cons_append, List.cons_append, List.append_assoc]
    exact (parseValue_elements value values fuel _).trans hread

theorem parseMembers_encode : ∀ (members before : List (Bytes × JsonValue)) (fuel : ℕ)
    (rest : Bytes), members ≠ [] → JsonValue.ReadableMembers members →
      ((before ++ members).map Prod.fst).Nodup →
      3 * ([0x2c].intercalate (JsonValue.encodeMembers members)).length ≤ fuel →
        parseMembers fuel before
            ([0x2c].intercalate (JsonValue.encodeMembers members) ++ 0x7d :: rest)
          = some (.object (before ++ members), rest)
  | [(name, value)], before, fuel + 1, rest, _, hread, hnames, hfuel => by
    rw [JsonValue.encodeMembers, JsonValue.encodeMembers, List.intercalate_singleton] at hfuel ⊢
    rw [List.length_append, List.length_cons] at hfuel
    have hvalue := parseValue_encode value fuel (0x7d :: rest) hread.1 (closed_cons rfl rest)
      (by omega)
    rw [parseMembers_last (fst_notMem hnames) hvalue]
  | (name, value) :: next :: members, before, fuel + 1, rest, _, hread, hnames, hfuel => by
    rw [JsonValue.encodeMembers_cons_cons] at hfuel ⊢
    simp only [List.length_append, List.length_cons] at hfuel
    have hnext := parseMembers_encode (next :: members) (before ++ [(name, value)]) fuel rest
      (List.cons_ne_nil _ _) hread.2 (by simpa using hnames) (by omega)
    obtain ⟨tail, htail⟩ := JsonValue.encodeMembers_cons next members
    rw [htail] at hnext hfuel ⊢
    have hvalue := parseValue_encode value fuel (0x2c :: 0x22 :: (tail ++ 0x7d :: rest)) hread.1
      (closed_cons rfl _) (by omega)
    rw [List.append_assoc]
    rw [List.append_assoc] at hnext
    exact (parseMembers_next (fst_notMem hnames) hvalue).trans hnext

theorem parseElements_encode : ∀ (values before : List JsonValue) (fuel : ℕ) (rest : Bytes),
    values ≠ [] → JsonValue.ReadableElements values →
      3 * ([0x2c].intercalate (JsonValue.encodeElements values)).length + 1 ≤ fuel →
        parseElements fuel before
            ([0x2c].intercalate (JsonValue.encodeElements values) ++ 0x5d :: rest)
          = some (.array (before ++ values), rest)
  | [value], before, fuel + 1, rest, _, hread, hfuel => by
    rw [JsonValue.encodeElements, JsonValue.encodeElements, List.intercalate_singleton] at hfuel ⊢
    have hvalue := parseValue_encode value fuel (0x5d :: rest) hread.1 (closed_cons rfl rest)
      (by omega)
    rw [parseElements_last hvalue]
  | value :: next :: values, before, fuel + 1, rest, _, hread, hfuel => by
    rw [JsonValue.encodeElements_cons_cons] at hfuel ⊢
    simp only [List.length_append, List.length_cons] at hfuel
    have hnext := parseElements_encode (next :: values) (before ++ [value]) fuel rest
      (List.cons_ne_nil _ _) hread.2 (by omega)
    have hvalue := parseValue_encode value fuel
      (0x2c :: ([0x2c].intercalate (JsonValue.encodeElements (next :: values)) ++ 0x5d :: rest))
      hread.1 (closed_cons rfl _) (by omega)
    rw [List.append_assoc]
    rw [List.append_assoc] at hnext
    exact (parseElements_next hvalue).trans hnext

end

/-- The client reads back what the adapter wrote. -/
theorem parse_encode {value : JsonValue} (h : value.Readable) :
    parse value.encode = some value := by
  have hskip := skipWhitespace_encode value []
  have hread := parseValue_encode value (3 * value.encode.length) [] h rfl (Nat.le_refl _)
  rw [List.append_nil] at hskip hread
  unfold parse
  rw [hskip, hread]
  rfl

end JsonParser

end VoxTree

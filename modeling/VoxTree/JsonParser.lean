import VoxTree.FlatJson

/-!
# The JSON parser of the client

`JsonParser` reads a whole JSON value, numbers being unsigned. An offset is the input from there
on. The members of an object are a list in which no name repeats.
-/

namespace VoxTree

inductive JsonValue
  | null
  | string (value : Bytes)
  | unsigned (value : ℕ)
  | boolean (value : Bool)
  | object (members : List (Bytes × JsonValue))
  | array (elements : List JsonValue)

namespace JsonParser

/-- `std::isspace`, so also the vertical tab and the form feed. -/
def skipWhitespace (input : Bytes) : Bytes :=
  input.dropWhile fun character => character = 0x20 || (0x09 ≤ character && character ≤ 0x0d)

def hexDigit (character : UInt8) : Option ℕ :=
  if isDigit character then some (character.toNat - 0x30)
  else if 0x61 ≤ character ∧ character ≤ 0x66 then some (character.toNat - 0x61 + 10)
  else if 0x41 ≤ character ∧ character ≤ 0x46 then some (character.toNat - 0x41 + 10)
  else none

def parseHexCodeUnit : Bytes → Option (ℕ × Bytes)
  | a :: b :: c :: d :: rest => do
    let a ← hexDigit a
    let b ← hexDigit b
    let c ← hexDigit c
    let d ← hexDigit d
    pure (((a * 16 + b) * 16 + c) * 16 + d, rest)
  | _ => none

/-- `appendUtf8`. -/
def utf8 (codePoint : ℕ) : Bytes :=
  let continuation := fun shift : ℕ => UInt8.ofNat (0x80 ||| ((codePoint >>> shift) &&& 0x3f))
  if codePoint ≤ 0x7f then [UInt8.ofNat codePoint]
  else if codePoint ≤ 0x7ff then [UInt8.ofNat (0xc0 ||| (codePoint >>> 6)), continuation 0]
  else if codePoint ≤ 0xffff then
    [UInt8.ofNat (0xe0 ||| (codePoint >>> 12)), continuation 6, continuation 0]
  else
    [UInt8.ofNat (0xf0 ||| (codePoint >>> 18)), continuation 12, continuation 6, continuation 0]

/-- `appendEscapedCodePoint`, behind the `u`: what it appends, and the input behind it. -/
def parseEscapedCodePoint (input : Bytes) : Option (Bytes × Bytes) := do
  let (first, rest) ← parseHexCodeUnit input
  if 0xd800 ≤ first ∧ first ≤ 0xdbff then
    let rest ← (consume 0x5c rest).bind (consume 0x75)
    let (second, rest) ← parseHexCodeUnit rest
    if 0xdc00 ≤ second ∧ second ≤ 0xdfff then
      pure (utf8 (0x10000 + ((first - 0xd800) <<< 10 ||| (second - 0xdc00))), rest)
    else none
  else if 0xdc00 ≤ first ∧ first ≤ 0xdfff then none
  else pure (utf8 first, rest)

/-- The loop of `parseString`, behind the opening quote. A character takes at least one byte, so
the length of the input is fuel enough. -/
def parseCharacters : ℕ → Bytes → Option (Bytes × Bytes)
  | 0, _ => none
  | _ + 1, [] => none
  | fuel + 1, character :: rest =>
    if character = 0x22 then some ([], rest)
    else if character < 0x20 then none
    else if character ≠ 0x5c then (parseCharacters fuel rest).map (Prod.map (character :: ·) id)
    else
      match rest with
      | [] => none
      | 0x75 :: rest =>
        (parseEscapedCodePoint rest).bind fun r =>
          (parseCharacters fuel r.2).map (Prod.map (r.1 ++ ·) id)
      | escaped :: rest =>
        (unescape escaped).bind fun value =>
          (parseCharacters fuel rest).map (Prod.map (value :: ·) id)

def parseString (input : Bytes) : Option (Bytes × Bytes) :=
  (consume 0x22 (skipWhitespace input)).bind fun rest => parseCharacters rest.length rest

def parseUnsigned (input : Bytes) : Option (JsonValue × Bytes) :=
  let digits := input.takeWhile isDigit
  if 1 < digits.length ∧ digits.head? = some 0x30 then none
  else (fromChars digits).map fun value => (.unsigned value, input.dropWhile isDigit)

-- the fuel: a value inside another one is three calls deeper and at least one byte further
mutual

def parseValue : ℕ → Bytes → Option (JsonValue × Bytes)
  | 0, _ => none
  | fuel + 1, input =>
    let input := skipWhitespace input
    match input with
    | [] => none
    | 0x22 :: _ => (parseString input).map (Prod.map .string id)
    | 0x7b :: _ => parseObject fuel input
    | 0x5b :: _ => parseArray fuel input
    | _ =>
      if (bytes "null").isPrefixOf input then some (.null, input.drop 4)
      else if (bytes "true").isPrefixOf input then some (.boolean true, input.drop 4)
      else if (bytes "false").isPrefixOf input then some (.boolean false, input.drop 5)
      else parseUnsigned input

def parseObject : ℕ → Bytes → Option (JsonValue × Bytes)
  | 0, _ => none
  | fuel + 1, input => do
    let rest ← consume 0x7b input
    match skipWhitespace rest with
    | 0x7d :: rest => pure (.object [], rest)
    | rest => parseMembers fuel [] rest

/-- The loop of `parseObject`. -/
def parseMembers : ℕ → List (Bytes × JsonValue) → Bytes → Option (JsonValue × Bytes)
  | 0, _, _ => none
  | fuel + 1, members, input => do
    let (name, rest) ← parseString input
    let rest ← consume 0x3a (skipWhitespace rest)
    let (value, rest) ← parseValue fuel rest
    if members.any fun member => member.1 = name then none
    else
      match skipWhitespace rest with
      | 0x7d :: rest => pure (.object (members ++ [(name, value)]), rest)
      | 0x2c :: rest => parseMembers fuel (members ++ [(name, value)]) (skipWhitespace rest)
      | _ => none

def parseArray : ℕ → Bytes → Option (JsonValue × Bytes)
  | 0, _ => none
  | fuel + 1, input => do
    let rest ← consume 0x5b input
    match skipWhitespace rest with
    | 0x5d :: rest => pure (.array [], rest)
    | rest => parseElements fuel [] rest

/-- The loop of `parseArray`. -/
def parseElements : ℕ → List JsonValue → Bytes → Option (JsonValue × Bytes)
  | 0, _, _ => none
  | fuel + 1, elements, input => do
    let (value, rest) ← parseValue fuel input
    match skipWhitespace rest with
    | 0x5d :: rest => pure (.array (elements ++ [value]), rest)
    | 0x2c :: rest => parseElements fuel (elements ++ [value]) rest
    | _ => none

end

def parse (input : Bytes) : Option JsonValue := do
  let (value, rest) ← parseValue (3 * input.length) (skipWhitespace input)
  if skipWhitespace rest = [] then some value else none

end JsonParser

/-! ## Fields -/

namespace JsonValue

def string? : JsonValue → Option Bytes
  | .string value => some value
  | _ => none

def unsigned? : JsonValue → Option ℕ
  | .unsigned value => some value
  | _ => none

def boolean? : JsonValue → Option Bool
  | .boolean value => some value
  | _ => none

def array? : JsonValue → Option (List JsonValue)
  | .array elements => some elements
  | _ => none

def object? : JsonValue → Option JsonValue
  | .object members => some (.object members)
  | _ => none

def null? : JsonValue → Option Unit
  | .null => some ()
  | _ => none

end JsonValue

/-- `field`; `get` stands for its type, and the values of other types have none. -/
def field {α : Type*} (object : JsonValue) (name : Bytes) (get : JsonValue → Option α) : Option α :=
  match object with
  | .object members => (members.find? fun member => member.1 = name).bind fun member => get member.2
  | _ => none

end VoxTree

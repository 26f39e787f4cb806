import VoxTree.Domain

/-!
# The JSON of the control-plane adapter

The texts the adapter writes and the flat objects it reads: texts, unsigned numbers and booleans
under names that do not repeat. A position in the input is the input from there on.
-/

namespace VoxTree

/-! ## Texts -/

/-- The lambda of `asciiLower` and of the client's `asciiHeaderNameEquals`. -/
def lowerAscii (character : UInt8) : UInt8 :=
  if 0x41 ≤ character && character ≤ 0x5a then character + 0x20 else character

def isDigit (character : UInt8) : Bool := 0x30 ≤ character && character ≤ 0x39

/-- `std::from_chars` for a `std::uint64_t` that has to reach the end of the text. -/
def fromChars (text : Bytes) : Option ℕ :=
  let value := text.foldl (fun value digit => 10 * value + (digit.toNat - 0x30)) 0
  if text ≠ [] ∧ text.all isDigit ∧ value < UInt64.size then some value else none

/-- `consume`, also where the source compares a byte and steps over it. -/
def consume (expected : UInt8) : Bytes → Option Bytes
  | [] => none
  | character :: rest => if character = expected then some rest else none

/-- What the character after a backslash stands for; the adapter knows no other, the client also
`u`. -/
def unescape (escaped : UInt8) : Option UInt8 :=
  match escaped with
  | 0x22 => some 0x22
  | 0x5c => some 0x5c
  | 0x2f => some 0x2f
  | 0x62 => some 0x08
  | 0x66 => some 0x0c
  | 0x6e => some 0x0a
  | 0x72 => some 0x0d
  | 0x74 => some 0x09
  | _ => none

namespace Network

def asciiLower (value : Bytes) : Bytes := value.map lowerAscii

def hexDigits : Bytes := bytes "0123456789abcdef"

/-- One character of `escapeJson`. -/
def escapeCharacter (character : UInt8) : Bytes :=
  match character with
  | 0x22 => bytes "\\\""
  | 0x5c => bytes "\\\\"
  | 0x08 => bytes "\\b"
  | 0x0c => bytes "\\f"
  | 0x0a => bytes "\\n"
  | 0x0d => bytes "\\r"
  | 0x09 => bytes "\\t"
  | _ =>
    if character < 0x20 then
      bytes "\\u00" ++ [hexDigits.getD (character.toNat >>> 4) 0,
        hexDigits.getD (character.toNat &&& 0x0f) 0]
    else [character]

def escapeJson (value : Bytes) : Bytes := 0x22 :: value.flatMap escapeCharacter ++ [0x22]

/-! ## Reading -/

def skipWhitespace (input : Bytes) : Bytes :=
  input.dropWhile fun character =>
    character = 0x20 || character = 0x09 || character = 0x0d || character = 0x0a

/-- The loop of `parseJsonString`, behind the opening quote. -/
def parseCharacters : Bytes → Option (Bytes × Bytes)
  | [] => none
  | character :: rest =>
    if character = 0x22 then some ([], rest)
    else if character ≠ 0x5c then
      if character < 0x20 then none
      else (parseCharacters rest).map (Prod.map (character :: ·) id)
    else
      match rest with
      | [] => none
      | escaped :: rest =>
        (unescape escaped).bind fun value => (parseCharacters rest).map (Prod.map (value :: ·) id)

/-- The text that starts the input, and the input behind it. -/
def parseJsonString (input : Bytes) : Option (Bytes × Bytes) :=
  (consume 0x22 input).bind parseCharacters

def parseJsonUnsigned (input : Bytes) : Option (ℕ × Bytes) :=
  (fromChars (input.takeWhile isDigit)).map fun value => (value, input.dropWhile isDigit)

inductive JsonScalar
  | string (value : Bytes)
  | unsigned (value : ℕ)
  | boolean (value : Bool)
  deriving DecidableEq

abbrev JsonObject := Std.ExtTreeMap Bytes JsonScalar

def parseScalar (input : Bytes) : Option (JsonScalar × Bytes) :=
  if input.head? = some 0x22 then (parseJsonString input).map (Prod.map .string id)
  else if (bytes "true").isPrefixOf input then some (.boolean true, input.drop 4)
  else if (bytes "false").isPrefixOf input then some (.boolean false, input.drop 5)
  else (parseJsonUnsigned input).map (Prod.map .unsigned id)

/-- Nothing but whitespace may follow an object. -/
def endOfObject (object : JsonObject) (rest : Bytes) : Option JsonObject :=
  if skipWhitespace rest = [] then some object else none

/-- The loop of `parseFlatJsonObject`. A member takes at least one byte, so the length of the input
is fuel enough. -/
def parseMembers : ℕ → JsonObject → Bytes → Option JsonObject
  | 0, _, _ => none
  | fuel + 1, object, input => do
    let (key, rest) ← parseJsonString input
    let rest ← consume 0x3a (skipWhitespace rest)
    let (scalar, rest) ← parseScalar (skipWhitespace rest)
    if object.contains key then none
    else
      let object := object.insert key scalar
      match skipWhitespace rest with
      | 0x7d :: rest => endOfObject object rest
      | 0x2c :: rest => parseMembers fuel object (skipWhitespace rest)
      | _ => none

def parseFlatJsonObject (input : Bytes) : Option JsonObject := do
  let rest ← consume 0x7b (skipWhitespace input)
  match skipWhitespace rest with
  | 0x7d :: rest => endOfObject ∅ rest
  | rest => parseMembers rest.length ∅ rest

def hasOnlyFields (object : JsonObject) (allowed : List Bytes) : Bool :=
  object.keys.all (allowed.contains ·)

def stringField (object : JsonObject) (name : Bytes) : Option Bytes :=
  match object[name]? with
  | some (.string value) => some value
  | _ => none

def unsignedField (object : JsonObject) (name : Bytes) : Option ℕ :=
  match object[name]? with
  | some (.unsigned value) => some value
  | _ => none

def booleanField (object : JsonObject) (name : Bytes) : Option Bool :=
  match object[name]? with
  | some (.boolean value) => some value
  | _ => none

end Network

end VoxTree

import VoxTree.LiveKitToken

/-!
# The loops of the signature

`sha256`, `hmacSha256` and `base64Url` statement by statement: an array is read and written at an
index, and the whole is `none` where an index is out of range. `LiveKit.sha256`,
`LiveKit.hmacSha256` and `LiveKit.base64Url` are what they compute.
-/

namespace VoxTree.LiveKit.Loops

/-- `array[index] = value`. -/
def store {α : Type} (array : List α) (index : ℕ) (value : α) : Option (List α) :=
  if index < array.length then some (array.set index value) else none

/-! ## The hash -/

/-- `while (message.size() % 64U != 56U)`. -/
def fillZeros (message : Bytes) : Bytes :=
  if message.length % 64 = 56 then message else fillZeros (message ++ [0])
termination_by (120 - message.length % 64) % 64
decreasing_by
  rw [List.length_append, List.length_singleton]
  omega

def paddedMessage (input : Bytes) : Bytes :=
  let bitLength := UInt64.ofNat input.length * 8
  ([56, 48, 40, 32, 24, 16, 8, 0] : List UInt64).foldl
    (fun message shift => message ++ [(bitLength >>> shift).toUInt8]) (fillZeros (input ++ [0x80]))

/-- The body of the loop that reads the words of a block. -/
def readWord (message : Bytes) (offset : ℕ) (words : List UInt32) (index : ℕ) :
    Option (List UInt32) := do
  let byteOffset := offset + index * 4
  let byte0 ← message[byteOffset]?
  let byte1 ← message[byteOffset + 1]?
  let byte2 ← message[byteOffset + 2]?
  let byte3 ← message[byteOffset + 3]?
  store words index ((byte0.toUInt32 <<< 24) ||| (byte1.toUInt32 <<< 16) ||| (byte2.toUInt32 <<< 8)
    ||| byte3.toUInt32)

/-- The body of the loop that extends the words of a block. -/
def extendWord (words : List UInt32) (index : ℕ) : Option (List UInt32) := do
  let word15 ← words[index - 15]?
  let left := rotr word15 7 ^^^ rotr word15 18 ^^^ (word15 >>> 3)
  let word2 ← words[index - 2]?
  let right := rotr word2 17 ^^^ rotr word2 19 ^^^ (word2 >>> 10)
  let word16 ← words[index - 16]?
  let word7 ← words[index - 7]?
  store words index (word16 + left + word7 + right)

/-- The body of the loop over the rounds. -/
def roundAt (words : List UInt32) (working : HashState) (index : ℕ) : Option HashState := do
  let constant ← roundConstants[index]?
  let word ← words[index]?
  some (working.round constant word)

def readState (state : List UInt32) : Option HashState := do
  some ⟨← state[0]?, ← state[1]?, ← state[2]?, ← state[3]?, ← state[4]?, ← state[5]?, ← state[6]?,
    ← state[7]?⟩

/-- `state[index] += value`. -/
def addTo (state : List UInt32) (entry : ℕ × UInt32) : Option (List UInt32) := do
  store state entry.1 ((← state[entry.1]?) + entry.2)

/-- The body of the loop over the blocks. -/
def blockAt (message : Bytes) (offset : ℕ) (state : List UInt32) : Option (List UInt32) := do
  let words ← (List.range 16).foldlM (readWord message offset) (List.replicate 64 0)
  let words ← (List.range' 16 48).foldlM extendWord words
  let r ← (List.range 64).foldlM (roundAt words) (← readState state)
  [(0, r.a), (1, r.b), (2, r.c), (3, r.d), (4, r.e), (5, r.f), (6, r.g), (7, r.h)].foldlM addTo
    state

/-- `for (offset = 0; offset < message.size(); offset += 64U)`. -/
def blocksFrom (message : Bytes) (offset : ℕ) (state : List UInt32) : Option (List UInt32) :=
  if offset < message.length then
    (blockAt message offset state).bind fun state => blocksFrom message (offset + 64) state
  else some state
termination_by message.length - offset

/-- The body of the loop that writes the result. -/
def writeWord (state : List UInt32) (result : Bytes) (index : ℕ) : Option Bytes := do
  let byteOffset := index * 4
  let word ← state[index]?
  let result ← store result byteOffset (word >>> 24).toUInt8
  let result ← store result (byteOffset + 1) (word >>> 16).toUInt8
  let result ← store result (byteOffset + 2) (word >>> 8).toUInt8
  store result (byteOffset + 3) word.toUInt8

def sha256 (input : Bytes) : Option Bytes := do
  let state ← blocksFrom (paddedMessage input) 0
    [0x6a09e667, 0xbb67ae85, 0x3c6ef372, 0xa54ff53a, 0x510e527f, 0x9b05688c, 0x1f83d9ab, 0x5be0cd19]
  (List.range 8).foldlM (writeWord state) (List.replicate 32 0)

/-! ## The keyed hash -/

/-- `std::ranges::copy(source, target.begin())`. -/
def copy (source target : Bytes) : Option Bytes :=
  source.zipIdx.foldlM (fun target entry => store target entry.2 entry.1) target

/-- The body of the loop that pads the key. -/
def padAt (normalized : Bytes) (pads : Bytes × Bytes) (index : ℕ) : Option (Bytes × Bytes) := do
  let byte ← normalized[index]?
  some (← store pads.1 index (byte ^^^ 0x36), ← store pads.2 index (byte ^^^ 0x5c))

def hmacSha256 (key message : Bytes) : Option Bytes := do
  let normalized ←
    if 64 < key.length then copy (← sha256 key) (List.replicate 64 0)
    else copy key (List.replicate 64 0)
  let pads ← (List.range 64).foldlM (padAt normalized) (List.replicate 64 0, List.replicate 64 0)
  let innerHash ← sha256 (pads.1 ++ message)
  sha256 (pads.2 ++ innerHash)

/-! ## The segments of a token -/

def base64Alphabet : Bytes :=
  bytes "ABCDEFGHIJKLMNOPQRSTUVWXYZabcdefghijklmnopqrstuvwxyz0123456789-_"

/-- `output.push_back(alphabet[shifted & 63U])`. -/
def pushCharacter (output : Bytes) (shifted : UInt32) : Option Bytes := do
  some (output ++ [← base64Alphabet[(shifted &&& 63).toNat]?])

/-- `static_cast<std::uint32_t>(data[index]) << shift`. -/
def shiftedByte (data : Bytes) (index : ℕ) (shift : UInt32) : Option UInt32 := do
  some ((← data[index]?).toUInt32 <<< shift)

/-- The body of the loop of `base64Url`. -/
def encodeGroup (data : Bytes) (size index : ℕ) (output : Bytes) : Option Bytes := do
  let remaining := size - index
  let first ← shiftedByte data index 16
  let second ← if 1 < remaining then shiftedByte data (index + 1) 8 else some 0
  let third ← if 2 < remaining then (data[index + 2]?).map (·.toUInt32) else some 0
  let value := first ||| second ||| third
  let output ← pushCharacter output (value >>> 18)
  let output ← pushCharacter output (value >>> 12)
  let output ← if 1 < remaining then pushCharacter output (value >>> 6) else some output
  if 2 < remaining then pushCharacter output value else some output

/-- `for (index = 0; index < size; index += 3U)`. -/
def encodeFrom (data : Bytes) (size index : ℕ) (output : Bytes) : Option Bytes :=
  if index < size then
    (encodeGroup data size index output).bind fun output => encodeFrom data size (index + 3) output
  else some output
termination_by size - index

/-- `base64Url(data, size)`. -/
def base64Url (data : Bytes) (size : ℕ) : Option Bytes := encodeFrom data size 0 []

/-- How `issue` puts a token together. -/
def token (credentials : LiveKitCredentials) (payload : Bytes) : Option Bytes := do
  let algorithm := bytes "\x7b\"alg\":\"HS256\",\"typ\":\"JWT\"\x7d"
  let signingInput := (← base64Url algorithm algorithm.length) ++ 0x2e
    :: (← base64Url payload payload.length)
  let signature ← hmacSha256 credentials.apiSecret signingInput
  some (signingInput ++ 0x2e :: (← base64Url signature signature.length))

end VoxTree.LiveKit.Loops

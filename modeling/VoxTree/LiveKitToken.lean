import VoxTree.ClientTypes
import VoxTree.Lib.Encoding
import VoxTree.Publication
import VoxTree.Services

/-!
# Access tokens for the voice rooms

`LiveKitTokenAdapter` turns voice-grant claims into one signed token for each scope of the claims.
A token is a JSON payload in base64 with an HMAC behind it; the adapter writes the payload as text.
-/

namespace VoxTree.LiveKit

/-! ## Signatures -/

def roundConstants : List UInt32 :=
  [0x428a2f98, 0x71374491, 0xb5c0fbcf, 0xe9b5dba5, 0x3956c25b, 0x59f111f1, 0x923f82a4, 0xab1c5ed5,
    0xd807aa98, 0x12835b01, 0x243185be, 0x550c7dc3, 0x72be5d74, 0x80deb1fe, 0x9bdc06a7, 0xc19bf174,
    0xe49b69c1, 0xefbe4786, 0x0fc19dc6, 0x240ca1cc, 0x2de92c6f, 0x4a7484aa, 0x5cb0a9dc, 0x76f988da,
    0x983e5152, 0xa831c66d, 0xb00327c8, 0xbf597fc7, 0xc6e00bf3, 0xd5a79147, 0x06ca6351, 0x14292967,
    0x27b70a85, 0x2e1b2138, 0x4d2c6dfc, 0x53380d13, 0x650a7354, 0x766a0abb, 0x81c2c92e, 0x92722c85,
    0xa2bfe8a1, 0xa81a664b, 0xc24b8b70, 0xc76c51a3, 0xd192e819, 0xd6990624, 0xf40e3585, 0x106aa070,
    0x19a4c116, 0x1e376c08, 0x2748774c, 0x34b0bcb5, 0x391c0cb3, 0x4ed8aa4a, 0x5b9cca4f, 0x682e6ff3,
    0x748f82ee, 0x78a5636f, 0x84c87814, 0x8cc70208, 0x90befffa, 0xa4506ceb, 0xbef9a3f7, 0xc67178f2]

def rotr (value count : UInt32) : UInt32 := (value >>> count) ||| (value <<< (32 - count))

def bigEndian (value : UInt32) : Bytes :=
  [(value >>> 24).toUInt8, (value >>> 16).toUInt8, (value >>> 8).toUInt8, value.toUInt8]

/-- The padded message: a one bit, zeros, and the length in bits. -/
def pad (input : Bytes) : Bytes :=
  let bitLength := UInt64.ofNat input.length * 8
  input ++ (0x80 : UInt8) :: List.replicate ((119 - input.length % 64) % 64) 0
    ++ ([56, 48, 40, 32, 24, 16, 8, 0] : List UInt64).map fun shift =>
      (bitLength >>> shift).toUInt8

/-- The words of a block of 64 bytes. -/
def schedule (block : Bytes) : Array UInt32 :=
  (List.range 64).foldl (fun words index =>
    if index < 16 then
      words.push <| ((block.getD (4 * index) 0).toUInt32 <<< 24)
        ||| ((block.getD (4 * index + 1) 0).toUInt32 <<< 16)
        ||| ((block.getD (4 * index + 2) 0).toUInt32 <<< 8)
        ||| (block.getD (4 * index + 3) 0).toUInt32
    else
      let w15 := words.getD (index - 15) 0
      let w2 := words.getD (index - 2) 0
      let left := rotr w15 7 ^^^ rotr w15 18 ^^^ (w15 >>> 3)
      let right := rotr w2 17 ^^^ rotr w2 19 ^^^ (w2 >>> 10)
      words.push (words.getD (index - 16) 0 + left + words.getD (index - 7) 0 + right)) #[]

structure HashState where
  a : UInt32
  b : UInt32
  c : UInt32
  d : UInt32
  e : UInt32
  f : UInt32
  g : UInt32
  h : UInt32

namespace HashState

def initial : HashState :=
  ⟨0x6a09e667, 0xbb67ae85, 0x3c6ef372, 0xa54ff53a, 0x510e527f, 0x9b05688c, 0x1f83d9ab, 0x5be0cd19⟩

def round (s : HashState) (constant word : UInt32) : HashState :=
  let sum1 := rotr s.e 6 ^^^ rotr s.e 11 ^^^ rotr s.e 25
  let choice := (s.e &&& s.f) ^^^ (~~~s.e &&& s.g)
  let temp1 := s.h + sum1 + choice + constant + word
  let sum0 := rotr s.a 2 ^^^ rotr s.a 13 ^^^ rotr s.a 22
  let majority := (s.a &&& s.b) ^^^ (s.a &&& s.c) ^^^ (s.b &&& s.c)
  let temp2 := sum0 + majority
  ⟨temp1 + temp2, s.a, s.b, s.c, s.d + temp1, s.e, s.f, s.g⟩

def compress (s : HashState) (block : Bytes) : HashState :=
  let r := (roundConstants.zip (schedule block).toList).foldl (fun s p => s.round p.1 p.2) s
  ⟨s.a + r.a, s.b + r.b, s.c + r.c, s.d + r.d, s.e + r.e, s.f + r.f, s.g + r.g, s.h + r.h⟩

def bytes (s : HashState) : Bytes := [s.a, s.b, s.c, s.d, s.e, s.f, s.g, s.h].flatMap bigEndian

end HashState

def sha256 (input : Bytes) : Bytes :=
  let message := pad input
  ((List.range (message.length / 64)).foldl (fun s block =>
    s.compress ((message.drop (64 * block)).take 64)) HashState.initial).bytes

def hmacSha256 (key message : Bytes) : Bytes :=
  let key := if 64 < key.length then sha256 key else key
  let normalized := key ++ List.replicate (64 - key.length) 0
  let inner := normalized.map (· ^^^ 0x36)
  let outer := normalized.map (· ^^^ 0x5c)
  sha256 (outer ++ sha256 (inner ++ message))

def base64Url (value : Bytes) : Bytes := Encoding.Base64Url.encode value

/-! ## Payloads -/

def jsonEscape (value : Bytes) : Bytes :=
  0x22 :: (value.flatMap fun character =>
    if character = 0x22 ∨ character = 0x5c then [0x5c, character] else [character]) ++ [0x22]

/-- `std::to_string` of a signed number. -/
def signedDecimal (value : Int) : Bytes := bytes (toString value)

/-- `LiveKitCredentials`, with what its constructor checks. -/
structure LiveKitCredentials where
  apiKey : Bytes
  apiSecret : Bytes
  apiKey_nonempty : apiKey ≠ []
  apiSecret_nonempty : apiSecret ≠ []

def roomFor (claims : VoiceGrantClaims) : VoiceScope → Bytes
  | .team => bytes "team:" ++ claims.teamId.value
  | .specialization => bytes "specialization:" ++ claims.specializationId.value
  | .group => bytes "group:" ++ claims.groupId.value

/-- The whole seconds of a time since the epoch, cut off towards it. -/
def secondsSinceEpoch (time : TimePoint) : Int := time.tdiv 1000000000

namespace LiveKitTokenAdapter

variable (credentials : LiveKitCredentials) (claims : VoiceGrantClaims)

def metadata : Bytes :=
  bytes "\x7b\"device_id\":" ++ jsonEscape claims.deviceId.value
    ++ bytes ",\"membership_version\":" ++ decimal claims.membershipVersion ++ bytes "\x7d"

def payload (room : Bytes) (canSubscribe : Bool) : Bytes :=
  bytes "\x7b\"iss\":" ++ jsonEscape credentials.apiKey
    ++ bytes ",\"sub\":" ++ jsonEscape claims.playerId.value
    ++ bytes ",\"exp\":" ++ signedDecimal (secondsSinceEpoch claims.expiresAt)
    ++ bytes ",\"metadata\":" ++ jsonEscape (metadata claims)
    ++ bytes ",\"video\":\x7b\"roomJoin\":true,\"room\":" ++ jsonEscape room
    ++ bytes ",\"canPublish\":false" ++ bytes ",\"canSubscribe\":"
    ++ bytes (if canSubscribe then "true" else "false") ++ bytes "\x7d\x7d"

def token (payload : Bytes) : Bytes :=
  let signingInput := base64Url (bytes "\x7b\"alg\":\"HS256\",\"typ\":\"JWT\"\x7d") ++ 0x2e
    :: base64Url payload
  signingInput ++ 0x2e :: base64Url (hmacSha256 credentials.apiSecret signingInput)

def issue : List IssuedVoiceRoomGrant :=
  [VoiceScope.team, .specialization, .group].filterMap fun scope =>
    let canTransmit := claims.transmitScopes.contains scope
    let canSubscribe := claims.receiveScopes.contains scope
    if !canTransmit && !canSubscribe then none
    else
      let room := roomFor claims scope
      some ⟨scope, room, token credentials (payload credentials claims room canSubscribe)⟩

end LiveKitTokenAdapter

end VoxTree.LiveKit

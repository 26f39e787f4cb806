import Mathlib.Data.List.Basic
import Mathlib.Data.Nat.Bitwise
import Mathlib.Data.Nat.Find
import Mathlib.Tactic.Common
import Mathlib.Tactic.Ring

/-!
# The secure hash standard

SHA-256 as FIPS 180-4 defines it on messages of bits, and the keyed hash that RFC 2104 makes of a
hash function of bytes. The length of a message is written in 64 bits, so the standard asks for
fewer than `2 ^ 64`; of a longer one the lowest are written.
-/

namespace SecureHash

/-! ## Bits -/

/-- A number in binary with this many bits, the most significant first. -/
def toBits (width n : ℕ) : List Bool := (List.range width).map fun i => n.testBit (width - 1 - i)

/-- The number that bits are in binary. -/
def ofBits (bits : List Bool) : ℕ := bits.foldl (fun n b => 2 * n + b.toNat) 0

/-- The bits of bytes. -/
def bits (message : List UInt8) : List Bool := message.flatMap fun b => toBits 8 b.toNat

/-- The bytes of bits. -/
def toBytes (bits : List Bool) : List UInt8 :=
  (List.range (bits.length / 8)).map fun i => UInt8.ofNat (ofBits ((bits.drop (8 * i)).take 8))

theorem toBits_succ (width n : ℕ) :
    toBits (width + 1) n = n.testBit width :: toBits width n := by
  unfold toBits
  rw [List.range_succ_eq_map, List.map_cons, List.map_map]
  refine congrArg _ (List.map_congr_left fun i _ => ?_)
  show n.testBit (width + 1 - 1 - (i + 1)) = n.testBit (width - 1 - i)
  congr 1
  omega

@[simp] theorem length_toBits (width n : ℕ) : (toBits width n).length = width := by
  simp [toBits]

/-- Only the lowest bits are written. -/
theorem toBits_mod (width n : ℕ) : toBits width (n % 2 ^ width) = toBits width n := by
  refine List.map_congr_left fun i hi => ?_
  have hlt := List.mem_range.1 hi
  have hbit : width - 1 - i < width := by omega
  simp [Nat.testBit_mod_two_pow, hbit]

/-- The upper bits stand before the lower ones. -/
theorem toBits_add (upper lower n : ℕ) :
    toBits (upper + lower) n = toBits upper (n >>> lower) ++ toBits lower n := by
  induction upper with
  | zero => simp [toBits]
  | succ upper ih =>
    rw [Nat.succ_add, toBits_succ, ih, toBits_succ, Nat.testBit_shiftRight, Nat.add_comm lower]
    rfl

theorem ofBits_cons (b : Bool) (l : List Bool) :
    ofBits (b :: l) = b.toNat * 2 ^ l.length + ofBits l := by
  have hfoldl : ∀ (l : List Bool) (n : ℕ), l.foldl (fun n b => 2 * n + b.toNat) n
      = n * 2 ^ l.length + l.foldl (fun n b => 2 * n + b.toNat) 0 := by
    intro l
    induction l with
    | nil => simp
    | cons b l ih =>
      intro n
      rw [List.foldl_cons, List.foldl_cons, ih, ih (2 * 0 + b.toNat), List.length_cons]
      ring
  unfold ofBits
  rw [List.foldl_cons, hfoldl]
  simp

theorem ofBits_append (l l' : List Bool) :
    ofBits (l ++ l') = ofBits l * 2 ^ l'.length + ofBits l' := by
  induction l with
  | nil => simp [ofBits]
  | cons b l ih =>
    rw [List.cons_append, ofBits_cons, ih, ofBits_cons, List.length_append]
    ring

theorem ofBits_toBits (width n : ℕ) : ofBits (toBits width n) = n % 2 ^ width := by
  induction width with
  | zero => simp [toBits, ofBits, Nat.mod_one]
  | succ width ih =>
    have hbit : (n.testBit width).toNat = n / 2 ^ width % 2 := by
      rw [Nat.testBit_eq_decide_div_mod_eq]
      rcases Nat.mod_two_eq_zero_or_one (n / 2 ^ width) with h | h <;> simp [h]
    rw [toBits_succ, ofBits_cons, length_toBits, ih, hbit, Nat.mod_pow_succ]
    ring

/-! ### Bytes -/

theorem bits_cons (b : UInt8) (l : List UInt8) : bits (b :: l) = toBits 8 b.toNat ++ bits l := rfl

theorem bits_append (l l' : List UInt8) : bits (l ++ l') = bits l ++ bits l' :=
  List.flatMap_append

@[simp] theorem length_bits (l : List UInt8) : (bits l).length = 8 * l.length := by
  induction l with
  | nil => rfl
  | cons b l ih =>
    rw [bits_cons, List.length_append, length_toBits, ih, List.length_cons]
    ring

/-- The bits of the first bytes and of the others. -/
theorem bits_split (l : List UInt8) (n : ℕ) : bits l = bits (l.take n) ++ bits (l.drop n) := by
  rw [← bits_append, List.take_append_drop]

theorem bits_drop (l : List UInt8) (n : ℕ) : bits (l.drop n) = (bits l).drop (8 * n) := by
  rcases Nat.lt_or_ge l.length n with hlt | hle
  · rw [List.drop_eq_nil_of_le (Nat.le_of_lt hlt), List.drop_eq_nil_of_le (by simp; omega)]
    rfl
  · have hlength : (bits (l.take n)).length = 8 * n := by
      rw [length_bits, List.length_take, Nat.min_eq_left hle]
    rw [bits_split l n, List.drop_left' hlength]

theorem bits_take (l : List UInt8) (n : ℕ) : bits (l.take n) = (bits l).take (8 * n) := by
  rcases Nat.lt_or_ge l.length n with hlt | hle
  · rw [List.take_of_length_le (Nat.le_of_lt hlt), List.take_of_length_le (by simp; omega)]
  · have hlength : (bits (l.take n)).length = 8 * n := by
      rw [length_bits, List.length_take, Nat.min_eq_left hle]
    rw [bits_split l n, List.take_left' hlength]

theorem ofBits_bits_cons (b : UInt8) (l : List UInt8) :
    ofBits (bits (b :: l)) = b.toNat * 256 ^ l.length + ofBits (bits l) := by
  have hpow : (256 : ℕ) ^ l.length = 2 ^ (8 * l.length) := by
    rw [Nat.pow_mul]
  rw [bits_cons, ofBits_append, ofBits_toBits, length_bits, hpow,
    Nat.mod_eq_of_lt b.toNat_lt]

/-- What bytes are made of are their bits. -/
theorem toBytes_bits (l : List UInt8) : toBytes (bits l) = l := by
  have hbyte : ∀ b : UInt8, UInt8.ofNat (ofBits (bits [b])) = b := by
    intro b
    rw [ofBits_bits_cons]
    simp [ofBits, bits]
  unfold toBytes
  rw [length_bits, Nat.mul_div_cancel_left _ (by omega)]
  refine List.ext_getElem (by simp) fun i hi hi' => ?_
  rw [List.getElem_map, List.getElem_range, ← bits_drop]
  have htake : (bits (l.drop i)).take 8 = bits ((l.drop i).take 1) := (bits_take _ 1).symm
  rw [htake, List.drop_eq_getElem_cons hi']
  exact hbyte _

/-! ## SHA-256 -/

/-- `ROTR`. -/
def rotr (x n : UInt32) : UInt32 := (x >>> n) ||| (x <<< (32 - n))

/-- `Ch`. -/
def ch (x y z : UInt32) : UInt32 := (x &&& y) ^^^ (~~~x &&& z)

/-- `Maj`. -/
def maj (x y z : UInt32) : UInt32 := (x &&& y) ^^^ (x &&& z) ^^^ (y &&& z)

/-- `Σ₀`. -/
def bigSigma0 (x : UInt32) : UInt32 := rotr x 2 ^^^ rotr x 13 ^^^ rotr x 22

/-- `Σ₁`. -/
def bigSigma1 (x : UInt32) : UInt32 := rotr x 6 ^^^ rotr x 11 ^^^ rotr x 25

/-- `σ₀`. -/
def smallSigma0 (x : UInt32) : UInt32 := rotr x 7 ^^^ rotr x 18 ^^^ (x >>> 3)

/-- `σ₁`. -/
def smallSigma1 (x : UInt32) : UInt32 := rotr x 17 ^^^ rotr x 19 ^^^ (x >>> 10)

/-- The constants `K`: the first 32 bits of the fractional parts of the cube roots of the first 64
primes. -/
def constants : List UInt32 :=
  [0x428a2f98, 0x71374491, 0xb5c0fbcf, 0xe9b5dba5, 0x3956c25b, 0x59f111f1, 0x923f82a4, 0xab1c5ed5,
    0xd807aa98, 0x12835b01, 0x243185be, 0x550c7dc3, 0x72be5d74, 0x80deb1fe, 0x9bdc06a7, 0xc19bf174,
    0xe49b69c1, 0xefbe4786, 0x0fc19dc6, 0x240ca1cc, 0x2de92c6f, 0x4a7484aa, 0x5cb0a9dc, 0x76f988da,
    0x983e5152, 0xa831c66d, 0xb00327c8, 0xbf597fc7, 0xc6e00bf3, 0xd5a79147, 0x06ca6351, 0x14292967,
    0x27b70a85, 0x2e1b2138, 0x4d2c6dfc, 0x53380d13, 0x650a7354, 0x766a0abb, 0x81c2c92e, 0x92722c85,
    0xa2bfe8a1, 0xa81a664b, 0xc24b8b70, 0xc76c51a3, 0xd192e819, 0xd6990624, 0xf40e3585, 0x106aa070,
    0x19a4c116, 0x1e376c08, 0x2748774c, 0x34b0bcb5, 0x391c0cb3, 0x4ed8aa4a, 0x5b9cca4f, 0x682e6ff3,
    0x748f82ee, 0x78a5636f, 0x84c87814, 0x8cc70208, 0x90befffa, 0xa4506ceb, 0xbef9a3f7, 0xc67178f2]

/-- The working variables, or the words of a hash value. -/
structure Working where
  a : UInt32
  b : UInt32
  c : UInt32
  d : UInt32
  e : UInt32
  f : UInt32
  g : UInt32
  h : UInt32

/-- The initial hash value: the first 32 bits of the fractional parts of the square roots of the
first eight primes. -/
def initial : Working :=
  ⟨0x6a09e667, 0xbb67ae85, 0x3c6ef372, 0xa54ff53a, 0x510e527f, 0x9b05688c, 0x1f83d9ab, 0x5be0cd19⟩

theorem exists_zeros (length : ℕ) : ∃ k, (length + 1 + k) % 512 = 448 :=
  ⟨(448 + 511 * (length + 1)) % 512, by omega⟩

/-- The smallest solution of `length + 1 + k ≡ 448 mod 512`. -/
def zeros (length : ℕ) : ℕ := Nat.find (exists_zeros length)

/-- The zeros behind a message of bytes. -/
theorem zeros_eight_mul (n : ℕ) : zeros (8 * n) = 7 + 8 * ((119 - n % 64) % 64) := by
  refine (Nat.find_eq_iff (exists_zeros (8 * n))).2 ⟨by omega, fun k hk => ?_⟩
  omega

/-- The message, a one, zeros, and the length of the message. -/
def pad (message : List Bool) : List Bool :=
  message ++ true :: List.replicate (zeros message.length) false ++ toBits 64 message.length

/-- The blocks of a padded message. -/
def blocks (padded : List Bool) : List (List Bool) :=
  (List.range (padded.length / 512)).map fun i => (padded.drop (512 * i)).take 512

/-- A word of a block. -/
def word (block : List Bool) (t : ℕ) : UInt32 :=
  UInt32.ofNat (ofBits ((block.drop (32 * t)).take 32))

/-- The message schedule `W`. -/
def schedule (block : List Bool) (t : ℕ) : UInt32 :=
  if t < 16 then word block t
  else
    smallSigma1 (schedule block (t - 2)) + schedule block (t - 7)
      + smallSigma0 (schedule block (t - 15)) + schedule block (t - 16)
termination_by t

def round (w : Working) (constant word : UInt32) : Working :=
  let t1 := w.h + bigSigma1 w.e + ch w.e w.f w.g + constant + word
  let t2 := bigSigma0 w.a + maj w.a w.b w.c
  ⟨t1 + t2, w.a, w.b, w.c, w.d + t1, w.e, w.f, w.g⟩

/-- The working variables after the first rounds on a block. -/
def rounds (block : List Bool) (w : Working) : ℕ → Working
  | 0 => w
  | t + 1 => round (rounds block w t) (constants.getD t 0) (schedule block t)

/-- The next hash value. -/
def compress (w : Working) (block : List Bool) : Working :=
  let r := rounds block w 64
  ⟨r.a + w.a, r.b + w.b, r.c + w.c, r.d + w.d, r.e + w.e, r.f + w.f, r.g + w.g, r.h + w.h⟩

/-- The words of a hash value behind each other. -/
def digest (w : Working) : List Bool :=
  [w.a, w.b, w.c, w.d, w.e, w.f, w.g, w.h].flatMap fun word => toBits 32 word.toNat

def sha256 (message : List Bool) : List Bool :=
  digest ((blocks (pad message)).foldl compress initial)

/-! ## Keyed hashes -/

section Hmac

variable (H : List UInt8 → List UInt8) (B : ℕ)

/-- A key of the length of a block: a longer one is hashed, a shorter one filled up with zeros. -/
def keyBlock (key : List UInt8) : List UInt8 :=
  let key := if B < key.length then H key else key
  key ++ List.replicate (B - key.length) 0

/-- `H(K XOR opad, H(K XOR ipad, text))`. -/
def hmac (key text : List UInt8) : List UInt8 :=
  H ((keyBlock H B key).map (· ^^^ 0x5c) ++ H ((keyBlock H B key).map (· ^^^ 0x36) ++ text))

end Hmac

/-- SHA-256 of bytes. -/
def sha256Bytes (message : List UInt8) : List UInt8 := toBytes (sha256 (bits message))

end SecureHash

import VoxTree.Lib.Base64
import VoxTree.Proofs.Signature

/-!
# The segments of a token

The loop of `base64Url` reads no byte behind the input (`Loops.base64Url_eq`) and writes what
RFC 4648 reads back. No character that it writes is a dot, so the dots of a token part it into its
three segments (`base64Url_recoverable`).
-/

namespace VoxTree.LiveKit

open Encoding
open SecureHash (bits ofBits)

namespace Loops

/-! ## The words of a group -/

/-- Three bytes are a number of 24 bits, the first one highest. -/
theorem toNat_group (a b c : UInt8) :
    ((a.toUInt32 <<< 16) ||| (b.toUInt32 <<< 8) ||| c.toUInt32).toNat
      = a.toNat * 65536 + b.toNat * 256 + c.toNat := by
  have ha := a.toNat_lt
  have hb := b.toNat_lt
  have hc := c.toNat_lt
  have hword := word_of_bytes 0 a b c
  rw [show (0 : UInt8).toUInt32 <<< 24 = 0 from rfl, UInt32.zero_or] at hword
  rw [hword, UInt32.toNat_ofNat']
  simp only [SecureHash.ofBits_bits_cons, List.length_cons, List.length_nil, UInt8.toNat_zero]
  have hempty : ofBits (bits []) = 0 := rfl
  rw [hempty]
  omega

theorem pushCharacter_eq (output : Bytes) (shifted : UInt32) :
    pushCharacter output shifted = some (output ++ [Base64Url.sextet shifted.toNat]) := by
  have hindex : (shifted &&& 63).toNat = shifted.toNat % 64 := by
    rw [UInt32.toNat_and]
    exact Nat.and_two_pow_sub_one_eq_mod _ 6
  have hlt : shifted.toNat % 64 < base64Alphabet.length := Nat.mod_lt _ (by decide)
  have hread : base64Alphabet[shifted.toNat % 64]? = some (Base64Url.sextet shifted.toNat) := by
    rw [List.getElem?_eq_getElem hlt]
    exact congrArg some (List.getD_eq_getElem _ _ hlt).symm
  unfold pushCharacter
  rw [hindex, hread]
  rfl

/-- A round of the loop writes up to three bytes. -/
theorem encodeGroup_eq {data rest : Bytes} {index : ℕ} (output : Bytes)
    (hdrop : data.drop index = rest) (hrest : rest ≠ []) :
    encodeGroup data data.length index output
      = some (output ++ Base64Url.encode (rest.take 3)) := by
  have hremaining : data.length - index = rest.length := by rw [← hdrop, List.length_drop]
  have hfirst : data[index]? = rest[0]? := by rw [← hdrop, List.getElem?_drop, Nat.add_zero]
  have hread : ∀ k, data[index + k]? = rest[k]? := fun k => by rw [← hdrop, List.getElem?_drop]
  have h18 : ∀ value : UInt32, (value >>> 18).toNat = value.toNat / 262144 := fun value => by
    simp [Nat.shiftRight_eq_div_pow]
  have h12 : ∀ value : UInt32, (value >>> 12).toNat = value.toNat / 4096 := fun value => by
    simp [Nat.shiftRight_eq_div_pow]
  have h6 : ∀ value : UInt32, (value >>> 6).toNat = value.toNat / 64 := fun value => by
    simp [Nat.shiftRight_eq_div_pow]
  unfold encodeGroup shiftedByte
  simp only [hremaining, hfirst, hread, pushCharacter_eq, h18, h12, h6]
  rcases rest with _ | ⟨a, _ | ⟨b, _ | ⟨c, rest⟩⟩⟩
  · exact absurd rfl hrest
  · have hvalue : (a.toUInt32 <<< 16).toNat = a.toNat * 65536 := by
      simpa [-UInt32.toNat_shiftLeft] using toNat_group a 0 0
    simp [-UInt32.toNat_shiftLeft, hvalue, Base64Url.encode]
  · have hvalue : (a.toUInt32 <<< 16 ||| b.toUInt32 <<< 8).toNat
        = a.toNat * 65536 + b.toNat * 256 := by
      simpa [-UInt32.toNat_or] using toNat_group a b 0
    simp [-UInt32.toNat_or, hvalue, Base64Url.encode]
  · simp [-UInt32.toNat_or, toNat_group, Base64Url.encode]

theorem encode_take_append_drop : ∀ l : Bytes,
    Base64Url.encode (l.take 3) ++ Base64Url.encode (l.drop 3) = Base64Url.encode l
  | [] => rfl
  | [_] => rfl
  | [_, _] => rfl
  | _ :: _ :: _ :: _ => rfl

theorem encodeFrom_eq (data : Bytes) (index : ℕ) (output : Bytes) :
    encodeFrom data data.length index output
      = some (output ++ Base64Url.encode (data.drop index)) := by
  fun_induction encodeFrom data data.length index output with
  | case1 index output h ih =>
    have hrest : data.drop index ≠ [] := by simpa using h
    rw [encodeGroup_eq output rfl hrest, Option.bind_some, ih]
    rw [← List.drop_drop, List.append_assoc, encode_take_append_drop]
  | case2 index output h =>
    rw [List.drop_eq_nil_of_le (Nat.not_lt.1 h)]
    simp [Base64Url.encode]

theorem base64Url_eq (value : Bytes) :
    base64Url value value.length = some (LiveKit.base64Url value) :=
  encodeFrom_eq value 0 []

/-- The token is the one that `issue` hands out. -/
theorem token_eq (credentials : LiveKitCredentials) (payload : Bytes) :
    token credentials payload = some (LiveKitTokenAdapter.token credentials payload) := by
  unfold token
  simp only [base64Url_eq, hmacSha256_eq, Option.bind_eq_bind, Option.bind_some]
  rfl

end Loops

/-! ## Taking a token apart -/

theorem dot_notMem_base64Url (value : Bytes) : (0x2e : UInt8) ∉ base64Url value :=
  Base64Url.dot_notMem_encode value

/-- The dots of three segments part them. -/
theorem splitOn_segments (header payload signature : Bytes) :
    (base64Url header ++ 0x2e :: base64Url payload ++ 0x2e :: base64Url signature).splitOn 0x2e
      = [base64Url header, base64Url payload, base64Url signature] := by
  rw [List.append_assoc, List.cons_append,
    List.splitOn_append_cons_self_of_not_mem (dot_notMem_base64Url header),
    List.splitOn_append_cons_self_of_not_mem (dot_notMem_base64Url payload),
    List.splitOn_eq_singleton (dot_notMem_base64Url signature)]

theorem base64Url_recoverable :
    (∀ value : Bytes, ∃ text, Loops.base64Url value value.length = some text
      ∧ Base64Url.read text = some value
      ∧ (∀ character ∈ text, character ∈ Base64Url.alphabet)
      ∧ text.length = (4 * value.length + 2) / 3)
    ∧ ∀ (credentials : LiveKitCredentials) (payload : Bytes), ∃ token header body signature,
      Loops.token credentials payload = some token
      ∧ token.splitOn 0x2e = [header, body, signature]
      ∧ Base64Url.read header = some (bytes "\x7b\"alg\":\"HS256\",\"typ\":\"JWT\"\x7d")
      ∧ Base64Url.read body = some payload
      ∧ Base64Url.read signature
        = Loops.hmacSha256 credentials.apiSecret (header ++ 0x2e :: body) := by
  constructor
  · intro value
    exact ⟨base64Url value, Loops.base64Url_eq value, Base64Url.read_encode value,
      fun character => Base64Url.mem_alphabet_of_mem_encode, Base64Url.length_encode value⟩
  · intro credentials payload
    refine ⟨_, _, _, _, Loops.token_eq credentials payload, splitOn_segments _ _ _,
      Base64Url.read_encode _, Base64Url.read_encode _, ?_⟩
    rw [Loops.hmacSha256_eq]
    exact Base64Url.read_encode _

end VoxTree.LiveKit

import VoxTree.Lib.Encoding
import VoxTree.Lib.SecureHash

/-!
# Base64 in bits

RFC 4648 reads a text as the bits its characters stand for, six each (`read`): octets, and behind
them fewer bits than a character has, all of them zero. Grouping three bytes at a time writes just
these bits (`bitsOf_encode`).
-/

namespace Encoding.Base64Url

open SecureHash (toBits bits toBytes)

/-- The bits that characters stand for. -/
def bitsOf (text : List UInt8) : List Bool :=
  text.flatMap fun character => toBits 6 (index character)

/-- The bytes of a text without padding characters. -/
def read (text : List UInt8) : Option (List UInt8) :=
  if text.all alphabet.contains ∧ (bitsOf text).length % 8 < 6
      ∧ ((bitsOf text).drop (8 * ((bitsOf text).length / 8))).all (!·) then
    some (toBytes (bitsOf text))
  else none

theorem sextet_mem (value : ℕ) : sextet value ∈ alphabet := by
  have hlt : value % 64 < alphabet.length := Nat.mod_lt _ (by decide)
  unfold sextet
  rw [List.getD_eq_getElem _ _ hlt]
  exact List.getElem_mem hlt

theorem mem_alphabet_of_mem_encode : ∀ {l : List UInt8} {character : UInt8},
    character ∈ encode l → character ∈ alphabet
  | [], _, h => by simp [encode] at h
  | [_], _, h => by
    simp only [encode, List.mem_cons, List.not_mem_nil, or_false] at h
    rcases h with rfl | rfl <;> exact sextet_mem _
  | [_, _], _, h => by
    simp only [encode, List.mem_cons, List.not_mem_nil, or_false] at h
    rcases h with rfl | rfl | rfl <;> exact sextet_mem _
  | _ :: _ :: _ :: rest, _, h => by
    simp only [encode, List.mem_cons] at h
    rcases h with rfl | rfl | rfl | rfl | h
    iterate 4 exact sextet_mem _
    exact mem_alphabet_of_mem_encode h

theorem length_encode : ∀ l : List UInt8, (encode l).length = (4 * l.length + 2) / 3
  | [] => rfl
  | [_] => by simp [encode]
  | [_, _] => by simp [encode]
  | _ :: _ :: _ :: rest => by
    simp only [encode, List.length_cons, length_encode rest]
    omega

/-! ## The bits of a group -/

theorem bitsOf_cons_sextet (value : ℕ) (text : List UInt8) :
    bitsOf (sextet value :: text) = toBits 6 value ++ bitsOf text := by
  unfold bitsOf
  rw [List.flatMap_cons, index_sextet]
  congr 1
  exact SecureHash.toBits_mod 6 value

/-- The 24 bits of a group, as four characters. -/
theorem toBits_sextets (value : ℕ) : toBits 24 value = toBits 6 (value / 262144)
    ++ (toBits 6 (value / 4096) ++ (toBits 6 (value / 64) ++ toBits 6 value)) := by
  rw [show 24 = 6 + (6 + (6 + 6)) from rfl, SecureHash.toBits_add, SecureHash.toBits_add,
    SecureHash.toBits_add]
  simp only [Nat.shiftRight_eq_div_pow]

/-- The 24 bits of a group, as three bytes. -/
theorem toBits_bytes (a b c : UInt8) :
    toBits 24 (a.toNat * 65536 + b.toNat * 256 + c.toNat) = bits [a, b, c] := by
  have ha := a.toNat_lt
  have hb := b.toNat_lt
  have hc := c.toNat_lt
  generalize hvalue : a.toNat * 65536 + b.toNat * 256 + c.toNat = value
  have hfirst : value / 65536 = a.toNat := by omega
  have hsecond : value / 256 % 256 = b.toNat := by omega
  have hthird : value % 256 = c.toNat := by omega
  calc toBits (8 + (8 + 8)) value
      = toBits 8 (value / 65536) ++ (toBits 8 (value / 256 % 256) ++ toBits 8 (value % 256)) := by
        rw [SecureHash.toBits_add, SecureHash.toBits_add, Nat.shiftRight_eq_div_pow,
          Nat.shiftRight_eq_div_pow, ← SecureHash.toBits_mod 8 (value / 2 ^ 8),
          ← SecureHash.toBits_mod 8 value]
        rfl
    _ = bits [a, b, c] := by
        rw [hfirst, hsecond, hthird]
        simp [bits]

theorem toBits_of_dvd {width n : ℕ} (h : 2 ^ width ∣ n) :
    toBits width n = List.replicate width false := by
  rw [← SecureHash.toBits_mod, Nat.mod_eq_zero_of_dvd h]
  simp [toBits, List.map_const']

/-- The characters of a full group. -/
theorem bitsOf_group (a b c : UInt8) :
    toBits 6 ((a.toNat * 65536 + b.toNat * 256 + c.toNat) / 262144)
      ++ (toBits 6 ((a.toNat * 65536 + b.toNat * 256 + c.toNat) / 4096)
        ++ (toBits 6 ((a.toNat * 65536 + b.toNat * 256 + c.toNat) / 64)
          ++ toBits 6 (a.toNat * 65536 + b.toNat * 256 + c.toNat))) = bits [a, b, c] := by
  rw [← toBits_sextets, toBits_bytes]

/-- The bits written are those of the bytes and the zero bits that fill the last character. -/
theorem bitsOf_encode : ∀ l : List UInt8,
    bitsOf (encode l) = bits l ++ List.replicate (2 * ((3 - l.length % 3) % 3)) false
  | [] => rfl
  | [a] => by
    -- two zero bytes fill the group, and the two characters of zero bits are not written
    have hgroup := bitsOf_group a 0 0
    have hfilled : bits [a, 0, 0] = bits [a] ++ List.replicate 4 false
        ++ (List.replicate 6 false ++ List.replicate 6 false) := by simp [bits, toBits]
    simp only [UInt8.toNat_zero, Nat.zero_mul, Nat.add_zero] at hgroup
    rw [toBits_of_dvd (n := a.toNat * 65536 / 64) (by omega),
      toBits_of_dvd (n := a.toNat * 65536) (by omega), ← List.append_assoc, hfilled] at hgroup
    simp only [encode, bitsOf_cons_sextet]
    exact (congrArg _ (List.append_nil _)).trans (List.append_cancel_right hgroup)
  | [a, b] => by
    have hgroup := bitsOf_group a b 0
    have hfilled : bits [a, b, 0] = bits [a, b] ++ List.replicate 2 false
        ++ List.replicate 6 false := by simp [bits, toBits]
    simp only [UInt8.toNat_zero, Nat.add_zero] at hgroup
    rw [toBits_of_dvd (n := a.toNat * 65536 + b.toNat * 256) (by omega), ← List.append_assoc,
      ← List.append_assoc, hfilled] at hgroup
    simp only [encode, bitsOf_cons_sextet, ← List.append_assoc]
    exact (List.append_nil _).trans (List.append_cancel_right hgroup)
  | a :: b :: c :: rest => by
    have hlength : (a :: b :: c :: rest).length % 3 = rest.length % 3 := by
      simp only [List.length_cons]
      omega
    rw [hlength]
    simp only [encode, bitsOf_cons_sextet, bitsOf_encode rest]
    have hgroup := bitsOf_group a b c
    have hbits : bits (a :: b :: c :: rest) = bits [a, b, c] ++ bits rest :=
      SecureHash.bits_append [a, b, c] rest
    rw [hbits, ← hgroup]
    simp only [List.append_assoc]

/-- Fewer bits than a byte has are not read. -/
theorem toBytes_bits_append {l : List UInt8} {rest : List Bool} (h : rest.length < 8) :
    toBytes (bits l ++ rest) = l := by
  have hcount : (bits l ++ rest).length / 8 = (bits l).length / 8 := by
    rw [List.length_append, SecureHash.length_bits]
    omega
  have hbytes : toBytes (bits l ++ rest) = toBytes (bits l) := by
    unfold toBytes
    rw [hcount]
    refine List.map_congr_left fun i hi => ?_
    have hlt := List.mem_range.1 hi
    rw [List.drop_append_of_le_length (by omega), List.take_append_of_le_length]
    rw [List.length_drop]
    omega
  rw [hbytes, SecureHash.toBytes_bits]

theorem read_encode (l : List UInt8) : read (encode l) = some l := by
  have hall : (encode l).all alphabet.contains = true := by
    simpa using fun character => mem_alphabet_of_mem_encode
  have hpadding : 2 * ((3 - l.length % 3) % 3) < 8 := by omega
  have hlength : (bitsOf (encode l)).length = 8 * l.length + 2 * ((3 - l.length % 3) % 3) := by
    rw [bitsOf_encode]
    simp
  have hdiv : (bitsOf (encode l)).length / 8 = l.length := by omega
  have hbytes : toBytes (bitsOf (encode l)) = l := by
    rw [bitsOf_encode]
    exact toBytes_bits_append (by simpa using hpadding)
  unfold read
  rw [hbytes, if_pos]
  refine ⟨hall, by omega, ?_⟩
  rw [hdiv, bitsOf_encode, List.drop_left' (by simp)]
  simp

end Encoding.Base64Url

import VoxTree.Lib.Results
import VoxTree.Lib.SecureHash
import VoxTree.Signature

/-!
# The signature is the standard's

The loops read and write within their arrays and compute `sha256` and `hmacSha256`
(`Loops.sha256_eq`, `Loops.hmacSha256_eq`), which are SHA-256 on the bits of the bytes
(`bits_sha256`) and the keyed hash over it (`hmacSha256_eq`). Together: `signature_standard`, for
messages of every length.
-/

namespace VoxTree.LiveKit

open SecureHash (bits toBits ofBits Working)

/-! ## Words -/

theorem toNat_byte_shift (b : UInt8) {count : UInt32} (h : count.toNat ≤ 24) :
    (b.toUInt32 <<< count).toNat = 2 ^ count.toNat * b.toNat := by
  have hbyte := b.toNat_lt
  have hlt : 2 ^ count.toNat * b.toNat < 2 ^ 32 :=
    calc 2 ^ count.toNat * b.toNat ≤ 2 ^ 24 * b.toNat :=
          Nat.mul_le_mul_right _ (Nat.pow_le_pow_right (by omega) h)
      _ < 2 ^ 32 := by omega
  have hcount : count.toNat < 32 := by omega
  rw [UInt32.toNat_shiftLeft, Nat.mod_eq_of_lt hcount, UInt8.toNat_toUInt32, Nat.shiftLeft_eq,
    Nat.mul_comm, Nat.mod_eq_of_lt hlt]

/-- Four bytes are a word, the first one highest. -/
theorem word_of_bytes (b0 b1 b2 b3 : UInt8) :
    (b0.toUInt32 <<< 24) ||| (b1.toUInt32 <<< 16) ||| (b2.toUInt32 <<< 8) ||| b3.toUInt32
      = UInt32.ofNat (ofBits (bits [b0, b1, b2, b3])) := by
  have h0 := b0.toNat_lt
  have h1 := b1.toNat_lt
  have h2 := b2.toNat_lt
  have h3 := b3.toNat_lt
  have hvalue : ofBits (bits [b0, b1, b2, b3])
      = 2 ^ 24 * b0.toNat + (2 ^ 16 * b1.toNat + (2 ^ 8 * b2.toNat + b3.toNat)) := by
    rw [SecureHash.ofBits_bits_cons, SecureHash.ofBits_bits_cons, SecureHash.ofBits_bits_cons,
      SecureHash.ofBits_bits_cons]
    simp [bits, ofBits]
    ring
  rw [← UInt32.toNat_inj, hvalue, UInt32.toNat_ofNat_of_lt' (by simp only [UInt32.size]; omega),
    Nat.two_pow_add_eq_or_of_lt (by omega), Nat.two_pow_add_eq_or_of_lt (by omega),
    Nat.two_pow_add_eq_or_of_lt (by omega)]
  simp only [UInt32.toNat_or]
  rw [toNat_byte_shift _ (by decide), toNat_byte_shift _ (by decide),
    toNat_byte_shift _ (by decide)]
  simp only [Nat.or_assoc, UInt8.toNat_toUInt32]
  rfl

theorem take_four {l : Bytes} {k : ℕ} (h : k + 4 ≤ l.length) :
    (l.drop k).take 4 = [l.getD k 0, l.getD (k + 1) 0, l.getD (k + 2) 0, l.getD (k + 3) 0] := by
  refine List.ext_getElem? fun i => ?_
  rw [List.getElem?_take]
  rcases i with _ | _ | _ | _ | i
  · simp [show k < l.length by omega]
  · simp [show k + 1 < l.length by omega]
  · simp [show k + 2 < l.length by omega]
  · simp [show k + 3 < l.length by omega]
  · simp

/-- A word of a block is read from its bytes. -/
theorem word_bits {block : Bytes} {t : ℕ} (h : 4 * t + 4 ≤ block.length) :
    SecureHash.word (bits block) t = ((block.getD (4 * t) 0).toUInt32 <<< 24)
      ||| ((block.getD (4 * t + 1) 0).toUInt32 <<< 16)
      ||| ((block.getD (4 * t + 2) 0).toUInt32 <<< 8) ||| (block.getD (4 * t + 3) 0).toUInt32 := by
  have hbits : ((bits block).drop (32 * t)).take 32 = bits ((block.drop (4 * t)).take 4) := by
    rw [SecureHash.bits_take, SecureHash.bits_drop, ← Nat.mul_assoc]
  rw [word_of_bytes, SecureHash.word, hbits, take_four h]

/-- The bytes of a word are its bits. -/
theorem bits_bigEndian (word : UInt32) : bits (bigEndian word) = toBits 32 word.toNat := by
  have hbyte : ∀ k : UInt32, k.toNat < 32 → toBits 8 (word >>> k).toUInt8.toNat
      = toBits 8 (word.toNat >>> k.toNat) := by
    intro k hk
    rw [UInt32.toNat_toUInt8, SecureHash.toBits_mod, UInt32.toNat_shiftRight, Nat.mod_eq_of_lt hk]
  have hlast : toBits 8 word.toUInt8.toNat = toBits 8 word.toNat := by
    rw [UInt32.toNat_toUInt8, SecureHash.toBits_mod]
  show toBits 8 _ ++ (toBits 8 _ ++ (toBits 8 _ ++ (toBits 8 _ ++ []))) = _
  rw [hbyte 24 (by decide), hbyte 16 (by decide), hbyte 8 (by decide), hlast, List.append_nil,
    show 32 = 8 + (8 + (8 + 8)) from rfl, SecureHash.toBits_add, SecureHash.toBits_add,
    SecureHash.toBits_add]
  rfl

/-! ## Padding -/

/-- The length is written in eight bytes. -/
theorem bits_length (n : ℕ) :
    bits (([56, 48, 40, 32, 24, 16, 8, 0] : List UInt64).map fun shift =>
        ((UInt64.ofNat n * 8) >>> shift).toUInt8)
      = toBits 64 (8 * n) := by
  have hlength : (UInt64.ofNat n * 8).toNat = 8 * n % 2 ^ 64 := by
    simp [Nat.mul_comm]
  have hbyte : ∀ k : UInt64, k.toNat < 64 →
      toBits 8 ((UInt64.ofNat n * 8) >>> k).toUInt8.toNat
        = toBits 8 ((8 * n % 2 ^ 64) >>> k.toNat) := by
    intro k hk
    rw [UInt64.toNat_toUInt8, SecureHash.toBits_mod, UInt64.toNat_shiftRight, Nat.mod_eq_of_lt hk,
      hlength]
  show toBits 8 _ ++ (toBits 8 _ ++ (toBits 8 _ ++ (toBits 8 _ ++ (toBits 8 _ ++ (toBits 8 _
    ++ (toBits 8 _ ++ (toBits 8 _ ++ []))))))) = _
  rw [hbyte 56 (by decide), hbyte 48 (by decide), hbyte 40 (by decide), hbyte 32 (by decide),
    hbyte 24 (by decide), hbyte 16 (by decide), hbyte 8 (by decide), hbyte 0 (by decide),
    List.append_nil, ← SecureHash.toBits_mod 64,
    show 64 = 8 + (8 + (8 + (8 + (8 + (8 + (8 + 8)))))) from rfl, SecureHash.toBits_add,
    SecureHash.toBits_add, SecureHash.toBits_add, SecureHash.toBits_add, SecureHash.toBits_add,
    SecureHash.toBits_add, SecureHash.toBits_add]
  rfl

theorem bits_zeros (n : ℕ) : bits (List.replicate n 0) = List.replicate (8 * n) false := by
  induction n with
  | zero => rfl
  | succ n ih =>
    rw [List.replicate_succ, SecureHash.bits_cons, ih, Nat.mul_succ, Nat.add_comm,
      List.replicate_add]
    rfl

theorem bits_pad (input : Bytes) : bits (pad input) = SecureHash.pad (bits input) := by
  have hone : bits [0x80] = true :: List.replicate 7 false := rfl
  unfold pad SecureHash.pad
  rw [SecureHash.length_bits, SecureHash.zeros_eight_mul, List.replicate_add,
    SecureHash.bits_append, SecureHash.bits_append, bits_length, ← List.singleton_append,
    SecureHash.bits_append, bits_zeros, hone]
  simp

theorem length_pad (input : Bytes) : (pad input).length % 64 = 0 := by
  simp only [pad, List.length_append, List.length_cons, List.length_replicate, List.length_map]
  simp
  omega

/-! ## Blocks -/

/-- The words of a block. -/
def scheduleWords (block : Bytes) : List UInt32 :=
  (List.range 64).map (SecureHash.schedule (bits block))

theorem schedule_lt {block : List Bool} {t : ℕ} (h : t < 16) :
    SecureHash.schedule block t = SecureHash.word block t := by
  rw [SecureHash.schedule, if_pos h]

theorem schedule_ge {block : List Bool} {t : ℕ} (h : 16 ≤ t) :
    SecureHash.schedule block t = SecureHash.schedule block (t - 16)
      + SecureHash.smallSigma0 (SecureHash.schedule block (t - 15))
      + SecureHash.schedule block (t - 7)
      + SecureHash.smallSigma1 (SecureHash.schedule block (t - 2)) := by
  rw [SecureHash.schedule, if_neg (Nat.not_lt.2 h)]
  ac_rfl

theorem schedule_eq {block : Bytes} (h : block.length = 64) :
    schedule block = (scheduleWords block).toArray := by
  have hprefix : ∀ n ≤ 64, (List.range n).foldl (fun words index =>
      if index < 16 then
        words.push <| ((block.getD (4 * index) 0).toUInt32 <<< 24)
          ||| ((block.getD (4 * index + 1) 0).toUInt32 <<< 16)
          ||| ((block.getD (4 * index + 2) 0).toUInt32 <<< 8)
          ||| (block.getD (4 * index + 3) 0).toUInt32
      else
        let w15 := words.getD (index - 15) 0
        let w2 := words.getD (index - 2) 0
        let left := rotr w15 7 ^^^ rotr w15 18 ^^^ (w15 >>> 3)
        let right := rotr w2 17 ^^^ rotr w2 19 ^^^ (w2 >>> 10)
        words.push (words.getD (index - 16) 0 + left + words.getD (index - 7) 0 + right)) #[]
      = ((List.range n).map (SecureHash.schedule (bits block))).toArray := by
    intro n
    induction n with
    | zero => exact fun _ => rfl
    | succ n ih =>
      intro hn
      have hread : ∀ j < n, (((List.range n).map (SecureHash.schedule (bits block))).toArray.getD j
          0) = SecureHash.schedule (bits block) j := fun j hj => by simp [hj]
      rw [List.range_succ, List.foldl_append, ih (by omega), List.map_append]
      simp only [List.foldl_cons, List.foldl_nil]
      split_ifs with hlt
      · rw [← word_bits (by omega), ← schedule_lt hlt]
        simp
      · rw [hread _ (by omega), hread _ (by omega), hread _ (by omega), hread _ (by omega)]
        simp [schedule_ge (Nat.not_lt.1 hlt)]
        rfl
  exact hprefix 64 (Nat.le_refl _)

/-- The words of a hash value. -/
def HashState.working (s : HashState) : Working := ⟨s.a, s.b, s.c, s.d, s.e, s.f, s.g, s.h⟩

/-- The words and constants of the rounds. -/
theorem zip_schedule (block : Bytes) : roundConstants.zip (scheduleWords block)
    = (List.range 64).map fun t =>
      (SecureHash.constants.getD t 0, SecureHash.schedule (bits block) t) := by
  refine List.ext_getElem ?_ fun t ht ht' => ?_
  · simp [scheduleWords, roundConstants]
  · have hconstant : t < SecureHash.constants.length := by
      simpa [SecureHash.constants] using ht'
    rw [List.getElem_zip]
    simp only [scheduleWords, List.getElem_map, List.getElem_range]
    rw [List.getD_eq_getElem _ _ hconstant]
    rfl

theorem rounds_eq (block : Bytes) (s : HashState) (n : ℕ) :
    (((List.range n).map fun t => (SecureHash.constants.getD t 0,
      SecureHash.schedule (bits block) t)).foldl (fun s p => s.round p.1 p.2) s).working
      = SecureHash.rounds (bits block) s.working n := by
  induction n with
  | zero => rfl
  | succ n ih =>
    rw [List.range_succ, List.map_append, List.foldl_append, SecureHash.rounds, ← ih]
    rfl

theorem working_compress (s : HashState) {block : Bytes} (h : block.length = 64) :
    (s.compress block).working = SecureHash.compress s.working (bits block) := by
  have hrounds := rounds_eq block s 64
  unfold HashState.compress SecureHash.compress
  rw [schedule_eq h, List.toList_toArray, zip_schedule, ← hrounds]
  simp only [HashState.working, UInt32.add_comm]

theorem bits_bytes (s : HashState) : bits s.bytes = SecureHash.digest s.working := by
  show bits (bigEndian _ ++ (bigEndian _ ++ (bigEndian _ ++ (bigEndian _ ++ (bigEndian _
    ++ (bigEndian _ ++ (bigEndian _ ++ (bigEndian _ ++ [])))))))) = _
  simp only [SecureHash.bits_append, bits_bigEndian]
  rfl

/-- The hash is SHA-256 on the bits of the bytes. -/
theorem bits_sha256 (input : Bytes) : bits (sha256 input) = SecureHash.sha256 (bits input) := by
  have hblocks : SecureHash.blocks (bits (pad input))
      = (List.range ((pad input).length / 64)).map fun i =>
        bits (((pad input).drop (64 * i)).take 64) := by
    have hcount : 8 * (pad input).length / 512 = (pad input).length / 64 := by omega
    unfold SecureHash.blocks
    rw [SecureHash.length_bits, hcount]
    refine List.map_congr_left fun i _ => ?_
    rw [SecureHash.bits_take, SecureHash.bits_drop, ← Nat.mul_assoc]
  have hfold : ((List.range ((pad input).length / 64)).foldl (fun s i =>
      s.compress (((pad input).drop (64 * i)).take 64)) HashState.initial).working
      = (SecureHash.blocks (bits (pad input))).foldl SecureHash.compress SecureHash.initial := by
    rw [hblocks, List.foldl_map]
    refine List.foldl_rel (r := fun s w => HashState.working s = w) rfl fun i hi s w hw => ?_
    have hlt := List.mem_range.1 hi
    have hlength : (((pad input).drop (64 * i)).take 64).length = 64 := by
      rw [List.length_take, List.length_drop]
      omega
    rw [working_compress s hlength, hw]
  unfold sha256 SecureHash.sha256
  rw [bits_bytes, hfold, bits_pad]

/-- The signature is the keyed hash over SHA-256 with blocks of 64 bytes. -/
theorem hmacSha256_eq (key message : Bytes) :
    hmacSha256 key message = SecureHash.hmac SecureHash.sha256Bytes 64 key message := by
  have hbytes : SecureHash.sha256Bytes = sha256 := by
    funext m
    unfold SecureHash.sha256Bytes
    rw [← bits_sha256, SecureHash.toBytes_bits]
  rw [hbytes]
  rfl

/-! ## The loops -/

namespace Loops

section Arrays

variable {α : Type}

/-- An array whose first entries have been written. -/
def written (value : ℕ → α) (size : ℕ) (rest : α) (k : ℕ) : List α :=
  (List.range k).map value ++ List.replicate (size - k) rest

variable {value : ℕ → α} {size k : ℕ} {rest : α}

theorem written_zero : written value size rest 0 = List.replicate size rest := by simp [written]

theorem written_size : written value size rest size = (List.range size).map value := by
  simp [written]

theorem getElem?_written {j : ℕ} (h : j < k) :
    (written value size rest k)[j]? = some (value j) := by
  have hlength : j < ((List.range k).map value).length := by simpa using h
  rw [written, List.getElem?_append_left hlength]
  simp [h]

/-- Writing the next entry. -/
theorem store_written (h : k < size) :
    store (written value size rest k) k (value k) = some (written value size rest (k + 1)) := by
  have hlength : k < (written value size rest k).length := by simp [written]; omega
  have hrest : List.replicate (size - k) rest = rest :: List.replicate (size - (k + 1)) rest := by
    rw [← List.replicate_succ]
    congr 1
    omega
  have hset : (written value size rest k).set k (value k) = written value size rest (k + 1) := by
    unfold written
    rw [List.set_append_right _ _ (by simp), hrest]
    simp [List.range_succ]
  rw [store, if_pos hlength, hset]

end Arrays

/-! ### Padding -/

theorem fillZeros_eq (message : Bytes) :
    fillZeros message = message ++ List.replicate ((120 - message.length % 64) % 64) 0 := by
  fun_induction fillZeros message with
  | case1 message h => simp [h]
  | case2 message h ih =>
    have hcount : (120 - message.length % 64) % 64
        = (120 - (message ++ [0]).length % 64) % 64 + 1 := by
      rw [List.length_append, List.length_singleton]
      omega
    rw [ih, hcount, List.append_assoc, List.replicate_succ]
    rfl

theorem paddedMessage_eq (input : Bytes) : paddedMessage input = pad input := by
  have hcount : (120 - (input ++ [0x80]).length % 64) % 64 = (119 - input.length % 64) % 64 := by
    rw [List.length_append, List.length_singleton]
    omega
  unfold paddedMessage pad
  rw [fillZeros_eq, hcount]
  simp

/-! ### Blocks -/

section Blocks

variable {message block : Bytes} {offset : ℕ}

/-- The words of the block, as far as they have been written. -/
def wordsTo (block : Bytes) (k : ℕ) : List UInt32 :=
  written (SecureHash.schedule (bits block)) 64 0 k

theorem readWord_eq (hblock : (message.drop offset).take 64 = block) (hlength : block.length = 64)
    {k : ℕ} (hk : k < 16) : readWord message offset (wordsTo block k) k
      = some (wordsTo block (k + 1)) := by
  have hread : ∀ j < 64, message[offset + j]? = some (block.getD j 0) := by
    intro j hj
    have hbyte : block[j]? = message[offset + j]? := by
      rw [← hblock, List.getElem?_take, if_pos hj, List.getElem?_drop]
    rw [← hbyte, List.getD_eq_getElem?_getD, List.getElem?_eq_getElem (by omega)]
    rfl
  have hword : SecureHash.schedule (bits block) k = _ :=
    (schedule_lt hk).trans (word_bits (by omega))
  have hstore : store (wordsTo block k) k (SecureHash.schedule (bits block) k) = _ :=
    store_written (by omega)
  unfold readWord
  simp only [Nat.add_assoc, Nat.mul_comm k 4]
  rw [hread _ (by omega), hread _ (by omega), hread _ (by omega), hread _ (by omega)]
  rw [hword] at hstore
  exact hstore

theorem extendWord_eq {k : ℕ} (hk : 16 ≤ k) (hlt : k < 64) :
    extendWord (wordsTo block k) k = some (wordsTo block (k + 1)) := by
  have hread : ∀ j < k, (wordsTo block k)[j]? = some (SecureHash.schedule (bits block) j) :=
    fun j hj => getElem?_written hj
  have hstore : store (wordsTo block k) k (SecureHash.schedule (bits block) k) = _ :=
    store_written hlt
  unfold extendWord
  rw [hread _ (by omega), hread _ (by omega), hread _ (by omega), hread _ (by omega)]
  rw [schedule_ge hk] at hstore
  exact hstore

/-- The two loops over the words of a block. -/
theorem words_eq (hblock : (message.drop offset).take 64 = block) (hlength : block.length = 64) :
    (List.range 16).foldlM (readWord message offset) (List.replicate 64 0)
        = some (wordsTo block 16)
      ∧ (List.range' 16 48).foldlM extendWord (wordsTo block 16) = some (scheduleWords block) := by
  have hfirst : (List.range' 0 16).foldlM (readWord message offset) (wordsTo block 0)
      = pure (wordsTo block (0 + 16)) := Results.foldlM_range' (wordsTo block) fun k _ hk =>
    readWord_eq hblock hlength (by omega)
  have hrest : (List.range' 16 48).foldlM extendWord (wordsTo block 16)
      = pure (wordsTo block (16 + 48)) := Results.foldlM_range' (wordsTo block) fun k hk hlt =>
    extendWord_eq hk hlt
  have hstart : wordsTo block 0 = List.replicate 64 0 := written_zero
  have hend : wordsTo block (16 + 48) = scheduleWords block := written_size
  rw [hstart, ← List.range_eq_range'] at hfirst
  rw [hend] at hrest
  exact ⟨hfirst, hrest⟩

/-- The words of a hash value in an array. -/
def stateWords (s : HashState) : List UInt32 := [s.a, s.b, s.c, s.d, s.e, s.f, s.g, s.h]

theorem rounds_eq (s : HashState) :
    (List.range 64).foldlM (roundAt (scheduleWords block)) s
      = some ((roundConstants.zip (scheduleWords block)).foldl (fun s p => s.round p.1 p.2) s) := by
  let after : ℕ → HashState := fun k => ((List.range k).map fun t =>
    (SecureHash.constants.getD t 0, SecureHash.schedule (bits block) t)).foldl
      (fun s p => s.round p.1 p.2) s
  have hloop : (List.range' 0 64).foldlM (roundAt (scheduleWords block)) (after 0)
      = pure (after (0 + 64)) := by
    refine Results.foldlM_range' after fun k _ hk => ?_
    have hconstant : roundConstants[k]? = some (SecureHash.constants.getD k 0) := by
      have hlength : k < roundConstants.length := by simpa [roundConstants] using hk
      rw [List.getElem?_eq_getElem hlength]
      exact congrArg some (List.getD_eq_getElem _ _ hlength).symm
    have hword : (scheduleWords block)[k]? = some (SecureHash.schedule (bits block) k) := by
      simp [scheduleWords, show k < 64 by omega]
    have hnext : after (k + 1)
        = (after k).round (SecureHash.constants.getD k 0) (SecureHash.schedule (bits block) k) := by
      simp only [after, List.range_succ, List.map_append, List.foldl_append, List.map_cons,
        List.map_nil, List.foldl_cons, List.foldl_nil]
    unfold roundAt
    rw [hconstant, hword, hnext]
    rfl
  rw [zip_schedule, List.range_eq_range']
  exact hloop

theorem blockAt_eq (hblock : (message.drop offset).take 64 = block) (hlength : block.length = 64)
    (s : HashState) :
    blockAt message offset (stateWords s) = some (stateWords (s.compress block)) := by
  obtain ⟨hfirst, hrest⟩ := words_eq hblock hlength
  have hstate : readState (stateWords s) = some s := rfl
  unfold blockAt
  rw [hfirst, hstate]
  simp only [Option.bind_eq_bind, Option.bind_some]
  rw [hrest]
  simp only [Option.bind_some]
  rw [rounds_eq]
  unfold HashState.compress
  rw [schedule_eq hlength, List.toList_toArray]
  generalize (roundConstants.zip (scheduleWords block)).foldl (fun s p => s.round p.1 p.2) s = r
  rfl

/-- The loop over the blocks, from one of them on. -/
theorem blocksFrom_eq (hmessage : message.length % 64 = 0) (s : HashState) :
    ∀ {count first : ℕ}, first + count = message.length / 64 →
      blocksFrom message (64 * first) (stateWords s)
        = some (stateWords ((List.range' first count).foldl (fun s i =>
          s.compress ((message.drop (64 * i)).take 64)) s)) := by
  intro count
  induction count generalizing s with
  | zero =>
    intro first hfirst
    have hend : ¬64 * first < message.length := by omega
    rw [blocksFrom, if_neg hend]
    rfl
  | succ count ih =>
    intro first hfirst
    have hlt : 64 * first < message.length := by omega
    have hlength : ((message.drop (64 * first)).take 64).length = 64 := by
      rw [List.length_take, List.length_drop]
      omega
    rw [blocksFrom, if_pos hlt, blockAt_eq rfl hlength, Option.bind_some, List.range'_succ,
      List.foldl_cons, ← Nat.mul_succ]
    exact ih _ (by omega)

end Blocks

/-- Writing behind what has been written. -/
theorem store_append {α : Type} {before rest : List α} {x value : α} {index : ℕ}
    (h : before.length = index) :
    store (before ++ x :: rest) index value = some (before ++ [value] ++ rest) := by
  have hlength : index < (before ++ x :: rest).length := by simp; omega
  have hset : (before ++ x :: rest).set index value = before ++ [value] ++ rest := by
    rw [List.set_append_right _ _ (by omega), h, Nat.sub_self]
    simp
  rw [store, if_pos hlength, hset]

theorem writeWord_eq {state : List UInt32} {before rest : Bytes} {word : UInt32} {k : ℕ}
    (hword : state[k]? = some word) (h : before.length = 4 * k) (x0 x1 x2 x3 : UInt8) :
    writeWord state (before ++ x0 :: x1 :: x2 :: x3 :: rest) k
      = some (before ++ bigEndian word ++ rest) := by
  have hstep : ∀ (b : Bytes) (x value : UInt8) (r : Bytes) (i : ℕ), b.length = i →
      store (b ++ x :: r) i value = some (b ++ [value] ++ r) := fun _ _ _ _ _ h => store_append h
  unfold writeWord
  rw [hword]
  simp only [Option.bind_eq_bind, Option.bind_some, Nat.mul_comm k 4]
  rw [hstep _ _ _ _ _ h, Option.bind_some, hstep _ _ _ _ _ (by simp [h]), Option.bind_some,
    hstep _ _ _ _ _ (by simp [h]), Option.bind_some, hstep _ _ _ _ _ (by simp [h])]
  simp [bigEndian]

/-- The bytes of the result. -/
theorem result_eq (s : HashState) :
    (List.range 8).foldlM (writeWord (stateWords s)) (List.replicate 32 0) = some s.bytes := by
  let after : ℕ → Bytes := fun k =>
    ((stateWords s).take k).flatMap bigEndian ++ List.replicate (32 - 4 * k) 0
  have hstart : after 0 = List.replicate 32 0 := by simp [after]
  have hend : after (0 + 8) = s.bytes := by
    simp [after, stateWords, HashState.bytes]
  have hloop : (List.range' 0 8).foldlM (writeWord (stateWords s)) (after 0)
      = pure (after (0 + 8)) := by
    refine Results.foldlM_range' after fun k _ hk => ?_
    have hk : k < (stateWords s).length := by simpa [stateWords] using hk
    have hword : (stateWords s)[k]? = some (stateWords s)[k] := List.getElem?_eq_getElem hk
    have hlength : (((stateWords s).take k).flatMap bigEndian).length = 4 * k := by
      have hfour : ∀ l : List UInt32, (l.flatMap bigEndian).length = 4 * l.length := by
        intro l
        induction l with
        | nil => rfl
        | cons w l ih => simp [bigEndian, ih]; omega
      rw [hfour, List.length_take, Nat.min_eq_left (Nat.le_of_lt hk)]
    have hrest : List.replicate (32 - 4 * k) (0 : UInt8)
        = 0 :: 0 :: 0 :: 0 :: List.replicate (32 - 4 * (k + 1)) 0 := by
      have hcount : 32 - 4 * k = 32 - 4 * (k + 1) + 1 + 1 + 1 + 1 := by
        have hlt : k < 8 := hk
        omega
      rw [hcount]
      simp [List.replicate_succ]
    have hnext : after (k + 1) = ((stateWords s).take k).flatMap bigEndian
        ++ bigEndian (stateWords s)[k] ++ List.replicate (32 - 4 * (k + 1)) 0 := by
      simp only [after]
      rw [List.take_succ_eq_append_getElem hk, List.flatMap_append, List.flatMap_cons,
        List.flatMap_nil, List.append_nil]
    show writeWord (stateWords s) (_ ++ List.replicate (32 - 4 * k) 0) k = _
    rw [hrest, writeWord_eq hword hlength, hnext]
    rfl
  rw [← hstart, ← hend, List.range_eq_range']
  exact hloop

/-- Every index is in range, and the loops compute the hash. -/
theorem sha256_eq (input : Bytes) : sha256 input = some (LiveKit.sha256 input) := by
  have hblocks : blocksFrom (pad input) (64 * 0) (stateWords HashState.initial) = _ :=
    blocksFrom_eq (length_pad input) HashState.initial (Nat.zero_add _)
  unfold sha256
  rw [paddedMessage_eq]
  show (blocksFrom (pad input) (64 * 0) (stateWords HashState.initial)).bind _ = _
  rw [hblocks, Option.bind_some, result_eq, LiveKit.sha256, List.range_eq_range']

/-! ### The keyed hash -/

theorem copy_eq {source : Bytes} {size : ℕ} (h : source.length ≤ size) :
    copy source (List.replicate size 0)
      = some (source ++ List.replicate (size - source.length) 0) := by
  have hfrom : ∀ (rest before : Bytes) (filler : ℕ), rest.length ≤ filler →
      (rest.zipIdx before.length).foldlM (fun target entry => store target entry.2 entry.1)
        (before ++ List.replicate filler 0)
        = some (before ++ rest ++ List.replicate (filler - rest.length) 0) := by
    intro rest
    induction rest with
    | nil =>
      intro before filler _
      simp
    | cons b rest ih =>
      intro before filler hle
      obtain ⟨filler, rfl⟩ : ∃ n, filler = n + 1 :=
        Nat.exists_eq_add_one_of_ne_zero (by simp at hle; omega)
      have hrest := ih (before ++ [b]) filler (by simpa using hle)
      rw [List.length_append, List.length_singleton] at hrest
      rw [List.zipIdx_cons, List.foldlM_cons, List.replicate_succ, store_append rfl]
      simp only [Option.bind_eq_bind, Option.bind_some]
      rw [hrest]
      simp
  have hcopy := hfrom source [] size h
  simpa [copy] using hcopy

theorem pads_eq {normalized : Bytes} (h : normalized.length = 64) :
    (List.range 64).foldlM (padAt normalized) (List.replicate 64 0, List.replicate 64 0)
      = some (normalized.map (· ^^^ 0x36), normalized.map (· ^^^ 0x5c)) := by
  let value : UInt8 → ℕ → UInt8 := fun pad k => normalized.getD k 0 ^^^ pad
  let after : ℕ → Bytes × Bytes := fun k =>
    (written (value 0x36) 64 0 k, written (value 0x5c) 64 0 k)
  have hend : ∀ pad, written (value pad) 64 0 (0 + 64) = normalized.map (· ^^^ pad) := by
    intro pad
    refine List.ext_getElem (by simp [written, h]) fun i hi hi' => ?_
    have hlt : i < normalized.length := by simpa using hi'
    simp [written, value, List.getElem_map, hlt]
  have hloop : (List.range' 0 64).foldlM (padAt normalized) (after 0) = pure (after (0 + 64)) := by
    refine Results.foldlM_range' after fun k _ hk => ?_
    have hbyte : normalized[k]? = some (normalized.getD k 0) := by
      rw [List.getD_eq_getElem?_getD, List.getElem?_eq_getElem (by omega)]
      rfl
    have hinner : store (after k).1 k (normalized.getD k 0 ^^^ 0x36) = some (after (k + 1)).1 :=
      store_written (by omega)
    have houter : store (after k).2 k (normalized.getD k 0 ^^^ 0x5c) = some (after (k + 1)).2 :=
      store_written (by omega)
    unfold padAt
    rw [hbyte]
    simp only [Option.bind_eq_bind, Option.bind_some]
    rw [hinner, Option.bind_some, houter]
    rfl
  have hafter : after (0 + 64) = (normalized.map (· ^^^ 0x36), normalized.map (· ^^^ 0x5c)) :=
    Prod.ext (hend _) (hend _)
  have hstart : after 0 = (List.replicate 64 0, List.replicate 64 0) :=
    Prod.ext written_zero written_zero
  rw [hafter, hstart, ← List.range_eq_range'] at hloop
  exact hloop

theorem length_sha256 (input : Bytes) : (LiveKit.sha256 input).length = 32 := by
  simp [LiveKit.sha256, HashState.bytes, bigEndian]

/-- Every index is in range, and the loops compute the keyed hash. -/
theorem hmacSha256_eq (key message : Bytes) :
    hmacSha256 key message = some (LiveKit.hmacSha256 key message) := by
  have hnormalized : ∀ key : Bytes, key.length ≤ 64 →
      (key ++ List.replicate (64 - key.length) (0 : UInt8)).length = 64 := by
    intro key h
    simp
    omega
  unfold hmacSha256 LiveKit.hmacSha256
  by_cases hlong : 64 < key.length
  · have hlength : (LiveKit.sha256 key).length ≤ 64 := by
      rw [length_sha256]
      omega
    simp only [if_pos hlong, sha256_eq, Option.bind_eq_bind, Option.bind_some, copy_eq hlength,
      pads_eq (hnormalized _ hlength)]
  · have hlength := Nat.not_lt.1 hlong
    simp only [if_neg hlong, sha256_eq, Option.bind_eq_bind, Option.bind_some, copy_eq hlength,
      pads_eq (hnormalized _ hlength)]

end Loops

theorem signature_standard (input key message : Bytes) :
    (∃ hash, Loops.sha256 input = some hash ∧ bits hash = SecureHash.sha256 (bits input)) ∧
      Loops.hmacSha256 key message
        = some (SecureHash.hmac SecureHash.sha256Bytes 64 key message) := by
  refine ⟨⟨sha256 input, Loops.sha256_eq input, bits_sha256 input⟩, ?_⟩
  rw [Loops.hmacSha256_eq, hmacSha256_eq]

end VoxTree.LiveKit

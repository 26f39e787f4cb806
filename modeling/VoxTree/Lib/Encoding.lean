import Mathlib.Data.List.Basic
import Mathlib.Data.List.Induction
import Mathlib.Data.Nat.Digits.Defs
import Mathlib.Tactic.Common

/-!
# Encodings that can be read back

Decimal texts, fields that carry their length, and base64 in the alphabet for file names and
without padding. Each is read back from the front of a longer text, so concatenations are too.
-/

namespace Encoding

/-! ## Decimal numbers -/

/-- The decimal text of a number. -/
def decimal (n : ℕ) : List UInt8 := (toString n).toUTF8.data.toList

def isDigit (b : UInt8) : Bool := 0x30 ≤ b && b ≤ 0x39

/-- The number that starts the input, and the input behind it. -/
def readDecimal (input : List UInt8) : ℕ × List UInt8 :=
  ((input.takeWhile isDigit).foldl (fun value digit => 10 * value + (digit.toNat - 48)) 0,
    input.dropWhile isDigit)

theorem decimal_eq (n : ℕ) :
    decimal n = (Nat.toDigits 10 n).map fun c => UInt8.ofNat c.toNat := by
  have hascii : ∀ c ∈ Nat.toDigits 10 n, String.utf8EncodeChar c = [UInt8.ofNat c.toNat] := by
    intro c hc
    have hdigit := Nat.isDigit_of_mem_toDigits (by omega) (by omega) hc
    have hle : c.val.toNat ≤ 0x7f := by
      simp only [Char.isDigit, Bool.and_eq_true, decide_eq_true_eq] at hdigit
      exact Nat.le_trans (UInt32.le_iff_toNat_le.1 hdigit.2) (by decide)
    rw [String.utf8EncodeChar, if_pos hle]
    rfl
  unfold decimal
  rw [Nat.toString_eq_ofList_toDigits]
  change ((Nat.toDigits 10 n).flatMap String.utf8EncodeChar).toByteArray.data.toList = _
  rw [List.toList_data_toByteArray, List.flatMap_def, List.map_congr_left hascii]
  induction Nat.toDigits 10 n with
  | nil => rfl
  | cons c digits ih => simpa using ih

theorem isDigit_of_mem_decimal {n : ℕ} {b : UInt8} (h : b ∈ decimal n) : isDigit b = true := by
  rw [decimal_eq] at h
  obtain ⟨c, hc, rfl⟩ := List.mem_map.1 h
  have hdigit := Nat.isDigit_of_mem_toDigits (by omega) (by omega) hc
  simp only [Char.isDigit, Bool.and_eq_true, decide_eq_true_eq, UInt32.le_iff_toNat_le] at hdigit
  change 48 ≤ c.toNat ∧ c.toNat ≤ 57 at hdigit
  simp only [isDigit, Bool.and_eq_true, decide_eq_true_eq, UInt8.le_iff_toNat_le,
    UInt8.toNat_ofNat', UInt8.reduceToNat]
  omega

theorem decimal_ne_nil (n : ℕ) : decimal n ≠ [] := by
  rw [decimal_eq]
  simp [Nat.toDigits_ne_nil]

theorem length_decimal_le {n length : ℕ} (hlength : 0 < length) (h : n < 10 ^ length) :
    (decimal n).length ≤ length := by
  rw [decimal_eq, List.length_map]
  exact Nat.toDigits_length 10 n length hlength h

theorem head?_toDigits_ne {n : ℕ} (h : 0 < n) : (Nat.toDigits 10 n).head? ≠ some '0' := by
  induction n using Nat.strongRecOn with
  | ind n ih =>
    rcases Nat.lt_or_ge n 10 with hn | hn
    · rw [Nat.toDigits_of_lt_base hn]
      have hdigit : ∀ m < 10, 0 < m → some m.digitChar ≠ some '0' := by decide
      exact hdigit n hn h
    · have hne : Nat.toDigits 10 (n / 10) ≠ [] := Nat.toDigits_ne_nil
      rw [Nat.toDigits_of_base_le (by omega) hn, List.head?_append_of_ne_nil _ hne]
      exact ih (n / 10) (by omega) (by omega)

/-- No decimal text but that of zero starts with a zero. -/
theorem head?_decimal_ne {n : ℕ} (h : 0 < n) : (decimal n).head? ≠ some 0x30 := by
  rw [decimal_eq, List.head?_map]
  rcases hhead : (Nat.toDigits 10 n).head? with _ | c
  · simp
  · have hdigit := Nat.isDigit_of_mem_toDigits (by omega) (by omega) (List.mem_of_mem_head? hhead)
    have hzero : c ≠ '0' := fun heq => head?_toDigits_ne h (heq ▸ hhead)
    simp only [Char.isDigit, Bool.and_eq_true, decide_eq_true_eq, UInt32.le_iff_toNat_le] at hdigit
    change 48 ≤ c.toNat ∧ c.toNat ≤ 57 at hdigit
    intro heq
    have hnat := congrArg UInt8.toNat (Option.some.inj heq)
    have hc : c.toNat % 256 = 48 := hnat
    exact hzero (Char.toNat_inj.1 (show c.toNat = 48 by omega))

/-- A number is read back in front of anything but a digit. -/
theorem readDecimal_decimal (n : ℕ) {rest : List UInt8} (h : rest.head?.all (!isDigit ·) = true) :
    readDecimal (decimal n ++ rest) = (n, rest) := by
  have hrest : rest.takeWhile isDigit = [] ∧ rest.dropWhile isDigit = rest := by
    rcases rest with _ | ⟨b, rest⟩
    · exact ⟨rfl, rfl⟩
    · have hb : isDigit b = false := by simpa using h
      simp [hb]
  have hall : ∀ b ∈ decimal n, isDigit b = true := fun b hb => isDigit_of_mem_decimal hb
  have hvalue : (decimal n).foldl (fun value digit => 10 * value + (digit.toNat - 48)) 0 = n := by
    rw [decimal_eq, List.foldl_map]
    conv_rhs => rw [← Nat.ofDigitChars_ten_toDigits (n := n)]
    rw [Nat.ofDigitChars_eq_foldl]
    refine List.foldl_ext _ _ _ fun value c hc => ?_
    have hc' := Nat.isDigit_of_mem_toDigits (by omega) (by omega) hc
    simp only [Char.isDigit, Bool.and_eq_true, decide_eq_true_eq, UInt32.le_iff_toNat_le] at hc'
    change 48 ≤ c.toNat ∧ c.toNat ≤ 57 at hc'
    have hsmall : c.toNat % 256 = c.toNat := by omega
    simp [hsmall]
  unfold readDecimal
  rw [List.takeWhile_append_of_pos hall, List.dropWhile_append_of_pos hall, hrest.1, hrest.2,
    List.append_nil, hvalue]

theorem decimal_injective : Function.Injective decimal := by
  intro m n h
  have hm : readDecimal (decimal m ++ []) = (m, []) := readDecimal_decimal m rfl
  have hn : readDecimal (decimal n ++ []) = (n, []) := readDecimal_decimal n rfl
  rw [h] at hm
  exact (Prod.mk.inj (hm.symm.trans hn)).1

theorem digitChar_toNat : ∀ digit < 10,
    UInt8.ofNat digit.digitChar.toNat = UInt8.ofNat (digit + 48) := by
  decide

theorem decimal_of_lt {n : ℕ} (h : n < 10) : decimal n = [UInt8.ofNat (n + 48)] := by
  rw [decimal_eq, Nat.toDigits_of_lt_base h, List.map_singleton, digitChar_toNat n h]

theorem decimal_ten_mul_add {n digit : ℕ} (hn : 0 < n) (hdigit : digit < 10) :
    decimal (10 * n + digit) = decimal n ++ [UInt8.ofNat (digit + 48)] := by
  have hdiv : (10 * n + digit) / 10 = n := by omega
  have hmod : (10 * n + digit) % 10 = digit := by omega
  rw [decimal_eq, decimal_eq, Nat.toDigits_of_base_le (by omega) (by omega), hdiv, hmod,
    List.map_append, List.map_singleton, digitChar_toNat digit hdigit]

/-- Digits are the decimal text of their number, unless they start with a needless zero. -/
theorem decimal_foldl : ∀ {text : List UInt8}, text ≠ [] → (∀ b ∈ text, isDigit b = true) →
    (text.head? = some 0x30 → text = [0x30]) →
      decimal (text.foldl (fun value digit => 10 * value + (digit.toNat - 48)) 0) = text := by
  intro text
  induction text using List.reverseRecOn with
  | nil => exact fun hne => absurd rfl hne
  | append_singleton text b ih =>
    intro _ hall hzero
    have hb : 48 ≤ b.toNat ∧ b.toNat ≤ 57 := by
      have hdigit := hall b (by simp)
      simpa [isDigit, UInt8.le_iff_toNat_le] using hdigit
    have hback : UInt8.ofNat (b.toNat - 48 + 48) = b := by
      rw [Nat.sub_add_cancel hb.1, UInt8.ofNat_toNat]
    rw [List.foldl_append, List.foldl_cons, List.foldl_nil]
    rcases text with _ | ⟨first, text⟩
    · rw [List.foldl_nil, Nat.mul_zero, Nat.zero_add, decimal_of_lt (by omega), hback]
      rfl
    · have hfirst : first ≠ 0x30 := by
        rintro rfl
        simpa using hzero rfl
      have hfront := ih (List.cons_ne_nil _ _) (fun c hc => hall c (List.mem_append_left _ hc))
        fun h => absurd (Option.some.inj h) hfirst
      have hpos :
          0 < (first :: text).foldl (fun value digit => 10 * value + (digit.toNat - 48)) 0 := by
        refine Nat.pos_of_ne_zero fun hvalue => ?_
        rw [hvalue, decimal_of_lt (by decide)] at hfront
        exact hfirst (List.cons.inj hfront).1.symm
      rw [decimal_ten_mul_add hpos (by omega), hback, hfront]

/-- The decimal text of a number with its sign. -/
def signedDecimal (z : Int) : List UInt8 := (toString z).toUTF8.data.toList

def readSigned : List UInt8 → Int × List UInt8
  | [] => (0, [])
  | b :: rest =>
    if b = 0x2d then
      let r := readDecimal rest
      (-(r.1 : Int), r.2)
    else
      let r := readDecimal (b :: rest)
      (r.1, r.2)

theorem signedDecimal_ofNat (n : ℕ) : signedDecimal (.ofNat n) = decimal n := rfl

theorem signedDecimal_negSucc (n : ℕ) : signedDecimal (.negSucc n) = 0x2d :: decimal (n + 1) := by
  simp only [signedDecimal, decimal, toString, Int.repr, String.toUTF8, String.toByteArray_append,
    ByteArray.data_append, Array.toList_append]
  rfl

theorem readSigned_signedDecimal (z : Int) {rest : List UInt8}
    (h : rest.head?.all (!isDigit ·) = true) : readSigned (signedDecimal z ++ rest) = (z, rest) := by
  cases z with
  | ofNat n =>
    have hread := readDecimal_decimal n h
    rw [signedDecimal_ofNat]
    rcases hd : decimal n with _ | ⟨b, digits⟩
    · exact absurd hd (decimal_ne_nil n)
    · have hb : b ≠ 0x2d := by
        rintro rfl
        have hdigit : isDigit 0x2d = true :=
          isDigit_of_mem_decimal (n := n) (hd ▸ List.mem_cons_self)
        simp [isDigit] at hdigit
      rw [hd] at hread
      simp only [List.cons_append] at hread ⊢
      rw [readSigned, if_neg hb, hread]
      rfl
  | negSucc n =>
    rw [signedDecimal_negSucc, List.cons_append, readSigned, if_pos rfl, readDecimal_decimal (n + 1) h]
    rfl

/-! ## Literals and quoted texts -/

/-- The input behind a literal. -/
def readLiteral (literal input : List UInt8) : Option (List UInt8) :=
  if literal.isPrefixOf input then some (input.drop literal.length) else none

@[simp] theorem readLiteral_append (literal rest : List UInt8) :
    readLiteral literal (literal ++ rest) = some rest := by
  simp [readLiteral]

/-- A text in quotation marks, where a backslash stands before every quotation mark and every
backslash of the text. -/
def quote (value : List UInt8) : List UInt8 :=
  0x22 :: (value.flatMap fun b => if b = 0x22 ∨ b = 0x5c then [0x5c, b] else [b]) ++ [0x22]

/-- A quoted text behind its first quotation mark, and the input behind it. -/
def readQuotedTail : List UInt8 → Option (List UInt8 × List UInt8)
  | [] => none
  | b :: rest =>
    if b = 0x22 then some ([], rest)
    else if b = 0x5c then
      match rest with
      | [] => none
      | c :: rest => (readQuotedTail rest).map fun r => (c :: r.1, r.2)
    else (readQuotedTail rest).map fun r => (b :: r.1, r.2)

def readQuoted : List UInt8 → Option (List UInt8 × List UInt8)
  | [] => none
  | b :: rest => if b = 0x22 then readQuotedTail rest else none

theorem readQuotedTail_escaped (rest : List UInt8) : ∀ value : List UInt8,
    readQuotedTail ((value.flatMap fun b => if b = 0x22 ∨ b = 0x5c then [0x5c, b] else [b])
      ++ 0x22 :: rest) = some (value, rest)
  | [] => by
    rw [List.flatMap_nil, List.nil_append]
    unfold readQuotedTail
    rw [if_pos rfl]
  | b :: value => by
    have ih := readQuotedTail_escaped rest value
    rw [List.flatMap_cons, List.append_assoc]
    by_cases hb : b = 0x22 ∨ b = 0x5c
    · rw [if_pos hb]
      unfold readQuotedTail
      simp [ih]
    · have hb' := not_or.1 hb
      rw [if_neg hb]
      unfold readQuotedTail
      simp [hb'.1, hb'.2, ih]

@[simp] theorem readQuoted_quote (value rest : List UInt8) :
    readQuoted (quote value ++ rest) = some (value, rest) := by
  simp only [quote, List.cons_append, List.append_assoc, List.nil_append, readQuoted]
  exact readQuotedTail_escaped rest value

/-! ## Fields -/

/-- A text with its length in front. -/
def field (value : List UInt8) : List UInt8 := decimal value.length ++ 0x3a :: (value ++ [0x3b])

/-- A sequence of texts is told by its fields. -/
theorem flatMap_field_injective : ∀ {l l' : List (List UInt8)},
    l.flatMap field = l'.flatMap field → l = l'
  | [], [], _ => rfl
  | [], v' :: l', h => by
    have := congrArg List.length h
    simp [field] at this
  | v :: l, [], h => by
    have := congrArg List.length h
    simp [field] at this
  | v :: l, v' :: l', h => by
    simp only [List.flatMap_cons, field, List.append_assoc, List.cons_append, List.nil_append] at h
    have hlength : v.length = v'.length := by
      have hread := congrArg readDecimal h
      rw [readDecimal_decimal _ rfl, readDecimal_decimal _ rfl] at hread
      exact (Prod.mk.inj hread).1
    rw [hlength] at h
    obtain ⟨hv, hl⟩ := List.append_inj (List.cons.inj (List.append_cancel_left h)).2 hlength
    rw [hv, flatMap_field_injective (List.cons.inj hl).2]

/-- Blocks of known lengths are told from their concatenation. -/
theorem map_eq_of_flatMap_eq {α β : Type*} {f : α → List β} : ∀ {l l' : List α},
    l.map (fun a => (f a).length) = l'.map (fun a => (f a).length) →
    l.flatMap f = l'.flatMap f → l.map f = l'.map f
  | [], [], _, _ => rfl
  | [], _ :: _, hlength, _ => by simp at hlength
  | _ :: _, [], hlength, _ => by simp at hlength
  | a :: l, a' :: l', hlength, h => by
    rw [List.map_cons, List.map_cons, List.cons.injEq] at hlength
    rw [List.flatMap_cons, List.flatMap_cons] at h
    obtain ⟨ha, hl⟩ := List.append_inj h hlength.1
    rw [List.map_cons, List.map_cons, ha, map_eq_of_flatMap_eq hlength.2 hl]

/-- Blocks of one length are told from what comes behind them, as far as it does not begin like
a block. -/
theorem length_eq_of_flatMap_append {α β : Type*} {f : α → List β} {k : ℕ} (hk : 0 < k)
    (hf : ∀ a, (f a).length = k) : ∀ {l l' : List α} {r r' : List β},
    l.flatMap f ++ r = l'.flatMap f ++ r' → (∀ a ∈ l', r.head? ≠ (f a).head?) →
    (∀ a ∈ l, r'.head? ≠ (f a).head?) → l.length = l'.length
  | [], [], _, _, _, _, _ => rfl
  | [], a :: l', r, r', h, hr, _ => by
    obtain ⟨b, block, hblock⟩ := List.exists_cons_of_length_pos (hf a ▸ hk)
    refine absurd ?_ (hr a List.mem_cons_self)
    rw [List.flatMap_nil, List.nil_append] at h
    rw [h, List.flatMap_cons, hblock]
    rfl
  | a :: l, [], r, r', h, _, hr' => by
    obtain ⟨b, block, hblock⟩ := List.exists_cons_of_length_pos (hf a ▸ hk)
    refine absurd ?_ (hr' a List.mem_cons_self)
    rw [List.flatMap_nil, List.nil_append] at h
    rw [← h, List.flatMap_cons, hblock]
    rfl
  | a :: l, a' :: l', r, r', h, hr, hr' => by
    rw [List.flatMap_cons, List.flatMap_cons, List.append_assoc, List.append_assoc] at h
    have hrest := (List.append_inj h ((hf a).trans (hf a').symm)).2
    have hlength := length_eq_of_flatMap_append hk hf hrest
      (fun x hx => hr x (List.mem_cons_of_mem _ hx)) fun x hx => hr' x (List.mem_cons_of_mem _ hx)
    rw [List.length_cons, List.length_cons, hlength]

/-- A block is no longer than another that its concatenation begins with, as far as the next
block's head is none of the other's elements behind the first `k`. -/
theorem block_length_le {α β : Type*} {f : α → List β} {k : ℕ} {a a' : α} {l : List α}
    {r : List β} (ha : k ≤ (f a).length) (hf : ∀ x ∈ l, f x ≠ [])
    (h : f a ++ l.flatMap f = f a' ++ r)
    (hnext : ∀ x ∈ l, ∀ b ∈ (f x).head?, b ∉ (f a').drop k) :
    (f a').length ≤ (f a).length := by
  by_contra hlt
  obtain ⟨tail, htail⟩ : ∃ tail, f a' = f a ++ tail := by
    have hprefix := List.prefix_of_prefix_length_le ⟨_, h⟩ (List.prefix_append (f a') r) (by omega)
    exact ⟨_, hprefix.choose_spec.symm⟩
  rw [htail, List.append_assoc] at h
  have hflat := List.append_cancel_left h
  rcases l with _ | ⟨x, l⟩
  · have hlength := congrArg List.length htail
    have htail' : tail = [] := (List.append_eq_nil_iff.1 hflat.symm).1
    rw [htail', List.append_nil] at hlength
    omega
  · obtain ⟨b, block, hblock⟩ := List.exists_cons_of_ne_nil (hf x List.mem_cons_self)
    rcases tail with _ | ⟨b', tail⟩
    · rw [htail, List.append_nil] at hlt
      exact hlt (Nat.le_refl _)
    · rw [List.flatMap_cons, hblock] at hflat
      obtain rfl : b = b' := (List.cons.inj hflat).1
      refine hnext x List.mem_cons_self b (by simp [hblock]) ?_
      rw [htail, List.drop_append_of_le_length ha]
      simp

/-- Blocks of at least `k` elements are told from their concatenation, as far as no block's head
is an element of another behind its first `k`. -/
theorem map_length_eq_of_flatMap_eq {α β : Type*} {f : α → List β} {k : ℕ} (hk : 0 < k)
    (hf : ∀ a, k ≤ (f a).length) : ∀ {l l' : List α}, l.flatMap f = l'.flatMap f →
    (∀ a ∈ l, ∀ a' ∈ l', ∀ b ∈ (f a).head?, b ∉ (f a').drop k) →
    (∀ a ∈ l', ∀ a' ∈ l, ∀ b ∈ (f a).head?, b ∉ (f a').drop k) →
    l.map (fun a => (f a).length) = l'.map fun a => (f a).length := by
  have hne : ∀ a, f a ≠ [] := fun a ha => by
    have := hf a
    rw [ha, List.length_nil] at this
    omega
  intro l
  induction l with
  | nil =>
    intro l' h _ _
    rcases l' with _ | ⟨a', l'⟩
    · rfl
    · exact absurd (List.append_eq_nil_iff.1 h.symm).1 (hne a')
  | cons a l ih =>
    intro l' h hl hl'
    rcases l' with _ | ⟨a', l'⟩
    · exact absurd (List.append_eq_nil_iff.1 h).1 (hne a)
    rw [List.flatMap_cons, List.flatMap_cons] at h
    have hle := block_length_le (hf a) (fun x _ => hne x) h fun x hx =>
      hl x (List.mem_cons_of_mem _ hx) a' List.mem_cons_self
    have hge := block_length_le (hf a') (fun x _ => hne x) h.symm fun x hx =>
      hl' x (List.mem_cons_of_mem _ hx) a List.mem_cons_self
    have hlength := Nat.le_antisymm hge hle
    have hrest := (List.append_inj h hlength).2
    rw [List.map_cons, List.map_cons, hlength, ih hrest
      (fun x hx y hy => hl x (List.mem_cons_of_mem _ hx) y (List.mem_cons_of_mem _ hy))
      fun x hx y hy => hl' x (List.mem_cons_of_mem _ hx) y (List.mem_cons_of_mem _ hy)]

/-- Lists with the same images are the same where the function is injective on their elements. -/
theorem eq_of_map_eq {α β : Type*} {f : α → β} : ∀ {l l' : List α},
    (∀ a ∈ l, ∀ b ∈ l', f a = f b → a = b) → l.map f = l'.map f → l = l'
  | [], [], _, _ => rfl
  | [], _ :: _, _, h => by simp at h
  | _ :: _, [], _, h => by simp at h
  | a :: l, b :: l', hinj, h => by
    rw [List.map_cons, List.map_cons, List.cons.injEq] at h
    rw [hinj a List.mem_cons_self b List.mem_cons_self h.1, eq_of_map_eq (fun a ha b hb =>
      hinj a (List.mem_cons_of_mem _ ha) b (List.mem_cons_of_mem _ hb)) h.2]

/-! ## Base64 -/

namespace Base64Url

/-- The letters, the digits, the hyphen and the underscore. -/
def alphabet : List UInt8 :=
  "ABCDEFGHIJKLMNOPQRSTUVWXYZabcdefghijklmnopqrstuvwxyz0123456789-_".toUTF8.data.toList

/-- The character for the lowest six bits. -/
def sextet (value : ℕ) : UInt8 := alphabet.getD (value % 64) 0

/-- Three bytes are four characters; a rest of one or two bytes is padded with zero bits. -/
def encode : List UInt8 → List UInt8
  | [] => []
  | [a] =>
    let value := a.toNat * 65536
    [sextet (value / 262144), sextet (value / 4096)]
  | [a, b] =>
    let value := a.toNat * 65536 + b.toNat * 256
    [sextet (value / 262144), sextet (value / 4096), sextet (value / 64)]
  | a :: b :: c :: rest =>
    let value := a.toNat * 65536 + b.toNat * 256 + c.toNat
    sextet (value / 262144) :: sextet (value / 4096) :: sextet (value / 64) :: sextet value
      :: encode rest

def index (character : UInt8) : ℕ := alphabet.idxOf character

def decode : List UInt8 → List UInt8
  | a :: b :: c :: d :: rest =>
    let value := ((index a * 64 + index b) * 64 + index c) * 64 + index d
    UInt8.ofNat (value / 65536) :: UInt8.ofNat (value / 256) :: UInt8.ofNat value :: decode rest
  | [a, b, c] =>
    let value := ((index a * 64 + index b) * 64 + index c) * 64
    [UInt8.ofNat (value / 65536), UInt8.ofNat (value / 256)]
  | [a, b] => [UInt8.ofNat ((index a * 64 + index b) * 4096 / 65536)]
  | _ => []

theorem index_sextet (value : ℕ) : index (sextet value) = value % 64 := by
  have hall : ∀ i < 64, index (alphabet.getD i 0) = i := by decide +kernel
  exact hall _ (Nat.mod_lt _ (by omega))

theorem sextet_ne_dot (value : ℕ) : sextet value ≠ 0x2e := by
  have hall : ∀ i < 64, alphabet.getD i 0 ≠ 0x2e := by decide +kernel
  exact hall _ (Nat.mod_lt _ (by omega))

theorem dot_notMem_encode : ∀ l : List UInt8, (0x2e : UInt8) ∉ encode l
  | [] => List.not_mem_nil
  | [_] => by simp [encode, (sextet_ne_dot _).symm]
  | [_, _] => by simp [encode, (sextet_ne_dot _).symm]
  | _ :: _ :: _ :: rest => by
    simp [encode, (sextet_ne_dot _).symm, dot_notMem_encode rest]

theorem ofNat_eq {a : UInt8} {n : ℕ} (h : n % 256 = a.toNat) : UInt8.ofNat n = a := by
  rw [← UInt8.toNat_inj, UInt8.toNat_ofNat']
  exact h

theorem decode_encode : ∀ l : List UInt8, decode (encode l) = l
  | [] => rfl
  | [a] => by
    have ha := a.toNat_lt
    simp only [encode, decode, index_sextet, List.cons.injEq, and_true]
    exact ofNat_eq (by omega)
  | [a, b] => by
    have ha := a.toNat_lt
    have hb := b.toNat_lt
    simp only [encode, decode, index_sextet, List.cons.injEq, and_true]
    exact ⟨ofNat_eq (by omega), ofNat_eq (by omega)⟩
  | a :: b :: c :: rest => by
    have ha := a.toNat_lt
    have hb := b.toNat_lt
    have hc := c.toNat_lt
    simp only [encode, decode, index_sextet, List.cons.injEq, decode_encode rest, and_true]
    exact ⟨ofNat_eq (by omega), ofNat_eq (by omega), ofNat_eq (by omega)⟩

end Base64Url

end Encoding

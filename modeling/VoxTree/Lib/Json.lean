import VoxTree.Lib.Encoding

/-!
# The grammar of JSON

The texts of JSON values over bytes. A relation takes a value, an input and what is left of the
input behind a text for the value. Inside strings the bytes from 0x20 on are taken as they are. A
dialect says what white space is, what a string may have in it and whether a number may have zeros
in front; an input that two dialects read is read alike by both (`Spells.meet`).
-/

namespace Json

structure Dialect where
  space : UInt8 → Bool
  space_le : ∀ b, space b = true → b ≤ 0x20
  /-- Control characters in strings. -/
  raw : Bool
  /-- Escapes of one letter besides those of the quotation mark and the backslash. -/
  letters : Bool
  /-- Escapes of four hexadecimal digits. -/
  unicode : Bool
  /-- Among them surrogates that are no pair. -/
  lone : Bool
  /-- Zeros in front of a number. -/
  padded : Bool

/-- What two dialects have in common. -/
def Dialect.meet (D D' : Dialect) : Dialect where
  space b := D.space b && D'.space b
  space_le b h := D.space_le b (Bool.and_eq_true_iff.1 h).1
  raw := D.raw && D'.raw
  letters := D.letters && D'.letters
  unicode := D.unicode && D'.unicode
  lone := D.lone && D'.lone
  padded := D.padded && D'.padded

/-- The space, the tab, the line feed and the carriage return. -/
def standardSpace (b : UInt8) : Bool := b = 0x20 || b = 0x09 || b = 0x0d || b = 0x0a

theorem standardSpace_le (b : UInt8) (h : standardSpace b = true) : b ≤ 0x20 := by
  simp only [standardSpace, Bool.or_eq_true, decide_eq_true_eq] at h
  rcases h with ((rfl | rfl) | rfl) | rfl <;> decide

/-- The grammar of the standard. -/
def Dialect.standard : Dialect where
  space := standardSpace
  space_le := standardSpace_le
  raw := false
  letters := true
  unicode := true
  lone := true
  padded := false

inductive Value
  | null
  | boolean (value : Bool)
  /-- A number is told by its text. -/
  | number (literal : List UInt8)
  | string (value : List UInt8)
  | array (elements : List Value)
  | object (members : List (List UInt8 × Value))

/-! ## Characters -/

/-- A character of a string or its escape: a byte, or a code unit of UTF-16. -/
inductive Piece
  | byte (value : UInt8)
  | unit (value : ℕ)

def isHigh (unit : ℕ) : Bool := 0xd800 ≤ unit && unit ≤ 0xdbff

def isLow (unit : ℕ) : Bool := 0xdc00 ≤ unit && unit ≤ 0xdfff

/-- The code point of a surrogate pair. -/
def codePoint (high low : ℕ) : ℕ := 0x10000 + (high - 0xd800) * 0x400 + (low - 0xdc00)

def utf8 (code : ℕ) : List UInt8 :=
  if code ≤ 0x7f then [UInt8.ofNat code]
  else if code ≤ 0x7ff then
    [UInt8.ofNat (code / 64 % 0x20 + 0xc0), UInt8.ofNat (code % 0x40 + 0x80)]
  else if code ≤ 0xffff then
    [UInt8.ofNat (code / 4096 % 0x10 + 0xe0), UInt8.ofNat (code / 64 % 0x40 + 0x80),
      UInt8.ofNat (code % 0x40 + 0x80)]
  else
    [UInt8.ofNat (code / 262144 % 0x08 + 0xf0), UInt8.ofNat (code / 4096 % 0x40 + 0x80),
      UInt8.ofNat (code / 64 % 0x40 + 0x80), UInt8.ofNat (code % 0x40 + 0x80)]

/-- The bytes of a string; a surrogate that is no pair is encoded by itself. -/
def decode : List Piece → List UInt8
  | [] => []
  | .byte b :: pieces => b :: decode pieces
  | .unit high :: .unit low :: pieces =>
    if isHigh high && isLow low then utf8 (codePoint high low) ++ decode pieces
    else utf8 high ++ decode (.unit low :: pieces)
  | .unit unit :: pieces => utf8 unit ++ decode pieces

/-- Every surrogate is one of a pair. -/
def paired : List Piece → Bool
  | [] => true
  | .byte _ :: pieces => paired pieces
  | .unit high :: .unit low :: pieces =>
    if isHigh high then isLow low && paired pieces
    else !isLow high && paired (.unit low :: pieces)
  | .unit unit :: pieces => !isHigh unit && !isLow unit && paired pieces

theorem decode_unit {unit : ℕ} (h : isHigh unit = false) (pieces : List Piece) :
    decode (.unit unit :: pieces) = utf8 unit ++ decode pieces := by
  rcases pieces with _ | ⟨_ | low, pieces⟩
  · rfl
  · rfl
  · rw [decode, h, Bool.false_and, if_neg Bool.false_ne_true]

theorem decode_pair {high low : ℕ} (hhigh : isHigh high = true) (hlow : isLow low = true)
    (pieces : List Piece) :
    decode (.unit high :: .unit low :: pieces) = utf8 (codePoint high low) ++ decode pieces := by
  rw [decode, hhigh, hlow, Bool.and_self, if_pos rfl]

theorem paired_unit {unit : ℕ} (h : isHigh unit = false) (hlow : isLow unit = false)
    (pieces : List Piece) : paired (.unit unit :: pieces) = paired pieces := by
  rcases pieces with _ | ⟨_ | low, pieces⟩ <;> simp [paired, h, hlow]

theorem paired_pair {high low : ℕ} (hhigh : isHigh high = true) (hlow : isLow low = true)
    (pieces : List Piece) : paired (.unit high :: .unit low :: pieces) = paired pieces := by
  rw [paired, hhigh, hlow, if_pos rfl, Bool.true_and]

/-- A first code unit is no surrogate, or it is the first half of a pair. -/
theorem paired_cases {unit : ℕ} {pieces : List Piece} (h : paired (.unit unit :: pieces) = true) :
    (isHigh unit = false ∧ isLow unit = false ∧ paired pieces = true)
      ∨ (isHigh unit = true ∧ ∃ low tail, pieces = .unit low :: tail ∧ isLow low = true
        ∧ paired tail = true) := by
  rcases hhigh : isHigh unit with _ | _
  · refine .inl ⟨rfl, ?_⟩
    rcases pieces with _ | ⟨_ | low, pieces⟩ <;> simpa [paired, hhigh] using h
  · refine .inr ⟨rfl, ?_⟩
    rcases pieces with _ | ⟨_ | low, pieces⟩
    · simp [paired, hhigh] at h
    · simp [paired, hhigh] at h
    · rw [paired, hhigh, if_pos rfl, Bool.and_eq_true] at h
      exact ⟨low, pieces, rfl, h⟩

def hexValue (b : UInt8) : Option ℕ :=
  if 0x30 ≤ b ∧ b ≤ 0x39 then some (b.toNat - 0x30)
  else if 0x61 ≤ b ∧ b ≤ 0x66 then some (b.toNat - 0x61 + 10)
  else if 0x41 ≤ b ∧ b ≤ 0x46 then some (b.toNat - 0x41 + 10)
  else none

/-- The number that four digits tell. -/
def hexUnit (a b c d : UInt8) : Option ℕ := do
  let a ← hexValue a
  let b ← hexValue b
  let c ← hexValue c
  let d ← hexValue d
  pure (((a * 16 + b) * 16 + c) * 16 + d)

/-- What an escape of one letter stands for. -/
def shortEscape (letter : UInt8) : Option UInt8 :=
  List.lookup letter [(0x22, 0x22), (0x5c, 0x5c), (0x2f, 0x2f), (0x62, 0x08), (0x66, 0x0c),
    (0x6e, 0x0a), (0x72, 0x0d), (0x74, 0x09)]

variable (D : Dialect)

/-- The characters of a string up to the quotation mark behind it. -/
inductive Pieces : List Piece → List UInt8 → List UInt8 → Prop
  | close {r} : Pieces [] (0x22 :: r) r
  | plain {b pieces i r} : D.raw = true ∨ 0x20 ≤ b → b ≠ 0x22 → b ≠ 0x5c → Pieces pieces i r →
    Pieces (.byte b :: pieces) (b :: i) r
  | short {letter b pieces i r} : D.letters = true ∨ letter = 0x22 ∨ letter = 0x5c →
    shortEscape letter = some b → Pieces pieces i r →
    Pieces (.byte b :: pieces) (0x5c :: letter :: i) r
  | unicode {a b c d unit pieces i r} : D.unicode = true → hexUnit a b c d = some unit →
    Pieces pieces i r → Pieces (.unit unit :: pieces) (0x5c :: 0x75 :: a :: b :: c :: d :: i) r

/-- A string with its quotation marks. -/
def Quoted (value i r : List UInt8) : Prop :=
  ∃ pieces i', i = 0x22 :: i' ∧ Pieces D pieces i' r ∧ (D.lone = true ∨ paired pieces = true)
    ∧ decode pieces = value

/-! ## Values -/

def Blank (i r : List UInt8) : Prop := ∃ spaces, i = spaces ++ r ∧ ∀ b ∈ spaces, D.space b = true

def Digits (text : List UInt8) : Prop := text ≠ [] ∧ ∀ b ∈ text, Encoding.isDigit b = true

/-- The digits in front of the point. -/
def Whole (padded : Bool) (text : List UInt8) : Prop :=
  Digits text ∧ (padded = true ∨ (text.head? = some 0x30 → text = [0x30]))

def Fraction (text : List UInt8) : Prop := text = [] ∨ ∃ digits, text = 0x2e :: digits ∧ Digits digits

def Exponent (text : List UInt8) : Prop :=
  text = [] ∨ ∃ e sign digits, text = e :: sign ++ digits ∧ (e = 0x65 ∨ e = 0x45)
    ∧ (sign = [] ∨ sign = [0x2b] ∨ sign = [0x2d]) ∧ Digits digits

def Number (padded : Bool) (literal : List UInt8) : Prop :=
  ∃ minus whole fraction exponent, literal = minus ++ whole ++ fraction ++ exponent
    ∧ (minus = [] ∨ minus = [0x2d]) ∧ Whole padded whole ∧ Fraction fraction ∧ Exponent exponent

def nullText : List UInt8 := [0x6e, 0x75, 0x6c, 0x6c]

def booleanText (value : Bool) : List UInt8 :=
  if value then [0x74, 0x72, 0x75, 0x65] else [0x66, 0x61, 0x6c, 0x73, 0x65]

/-- White space, a text and white space up to a token. -/
def Slot (P : List UInt8 → List UInt8 → Prop) (token : UInt8) (i r : List UInt8) : Prop :=
  ∃ a b, Blank D i a ∧ P a b ∧ Blank D b (token :: r)

-- the texts of elements and members go up to the bracket behind them
mutual

def Spells : Value → List UInt8 → List UInt8 → Prop
  | .null, i, r => i = nullText ++ r
  | .boolean value, i, r => i = booleanText value ++ r
  | .number literal, i, r => Number D.padded literal ∧ i = literal ++ r
  | .string value, i, r => Quoted D value i r
  | .array elements, i, r => ∃ i', i = 0x5b :: i' ∧ SpellsElements elements i' r
  | .object members, i, r => ∃ i', i = 0x7b :: i' ∧ SpellsMembers members i' r

def SpellsElements : List Value → List UInt8 → List UInt8 → Prop
  | [], i, r => Blank D i (0x5d :: r)
  | [value], i, r => Slot D (Spells value) 0x5d i r
  | value :: next :: values, i, r =>
    ∃ c, Slot D (Spells value) 0x2c i c ∧ SpellsElements (next :: values) c r

def SpellsMembers : List (List UInt8 × Value) → List UInt8 → List UInt8 → Prop
  | [], i, r => Blank D i (0x7d :: r)
  | [(name, value)], i, r =>
    ∃ c, Slot D (Quoted D name) 0x3a i c ∧ Slot D (Spells value) 0x7d c r
  | (name, value) :: next :: members, i, r =>
    ∃ c d, Slot D (Quoted D name) 0x3a i c ∧ Slot D (Spells value) 0x2c c d
      ∧ SpellsMembers (next :: members) d r

end

/-- A text that is one value. -/
def Document (value : Value) (text : List UInt8) : Prop :=
  ∃ a b, Blank D text a ∧ Spells D value a b ∧ Blank D b []

/-! ## One reading -/

section Meet

variable {D D' : Dialect} {a a' b b' i r r' : List UInt8}

/-- White space ends in front of these. -/
def Solid (r : List UInt8) : Prop := ∀ b ∈ r.head?, 0x20 < b

theorem solid_cons {b : UInt8} (h : 0x20 < b) : Solid (b :: r) := by
  intro c hc
  obtain rfl : b = c := Option.some.inj hc
  exact h

theorem Blank.meet_aux {spaces spaces' : List UInt8} (h : spaces ++ a = spaces' ++ a')
    (hspaces : ∀ b ∈ spaces, D.space b = true) (hspaces' : ∀ b ∈ spaces', D'.space b = true)
    (ha : Solid a) (ha' : Solid a') : spaces = spaces' ∧ a = a' := by
  induction spaces generalizing spaces' with
  | nil =>
    rcases spaces' with _ | ⟨b, spaces'⟩
    · exact ⟨rfl, h⟩
    · have hb := ha b (by rw [show a = b :: (spaces' ++ a') from h]; rfl)
      have hle := D'.space_le b (hspaces' b List.mem_cons_self)
      exact absurd hb (UInt8.not_lt.2 hle)
  | cons b spaces ih =>
    rcases spaces' with _ | ⟨b', spaces'⟩
    · have hb := ha' b (by rw [show a' = b :: (spaces ++ a) from h.symm]; rfl)
      have hle := D.space_le b (hspaces b List.mem_cons_self)
      exact absurd hb (UInt8.not_lt.2 hle)
    · obtain ⟨rfl, htail⟩ := List.cons.inj h
      obtain ⟨rfl, rfl⟩ := ih htail (fun c hc => hspaces c (List.mem_cons_of_mem _ hc))
        fun c hc => hspaces' c (List.mem_cons_of_mem _ hc)
      exact ⟨rfl, rfl⟩

theorem Blank.meet (h : Blank D i a) (h' : Blank D' i a') (ha : Solid a) (ha' : Solid a') :
    a = a' ∧ Blank (D.meet D') i a := by
  obtain ⟨spaces, rfl, hspaces⟩ := h
  obtain ⟨spaces', heq, hspaces'⟩ := h'
  obtain ⟨rfl, rfl⟩ := Blank.meet_aux heq hspaces hspaces' ha ha'
  exact ⟨rfl, spaces, rfl, fun b hb => Bool.and_eq_true_iff.2 ⟨hspaces b hb, hspaces' b hb⟩⟩

/-- White space that is cut off. -/
theorem Blank.dropWhile (i : List UInt8) : Blank D i (i.dropWhile D.space) :=
  ⟨i.takeWhile D.space, List.takeWhile_append_dropWhile.symm,
    fun _ hb => (List.all_eq_true.1 List.all_takeWhile) _ hb⟩

theorem Blank.dropWhile_eq (h : Blank D i a) (ha : Solid a) : i.dropWhile D.space = a := by
  obtain ⟨spaces, rfl, hspaces⟩ := h
  rw [List.dropWhile_append_of_pos hspaces]
  rcases a with _ | ⟨b, a⟩
  · rfl
  · refine List.dropWhile_cons_of_neg fun hb => ?_
    exact absurd (D.space_le b hb) (UInt8.not_le.2 (ha b rfl))

theorem Blank.length_le (h : Blank D i a) : a.length ≤ i.length := by
  obtain ⟨spaces, rfl, -⟩ := h
  simp

theorem shortEscape_u : shortEscape 0x75 = none := rfl

theorem or_meet {flag flag' : Bool} {P : Prop} (h : flag = true ∨ P) (h' : flag' = true ∨ P) :
    (flag && flag') = true ∨ P := by
  rcases h with h | h
  · exact h'.imp_left fun h' => Bool.and_eq_true_iff.2 ⟨h, h'⟩
  · exact .inr h

theorem Pieces.meet {pieces pieces' : List Piece} (h : Pieces D pieces i r)
    (h' : Pieces D' pieces' i r') :
    pieces = pieces' ∧ r = r' ∧ Pieces (D.meet D') pieces i r := by
  induction h generalizing pieces' with
  | close =>
    cases h' with
    | close => exact ⟨rfl, rfl, .close⟩
    | plain _ hquote => exact absurd rfl hquote
  | plain hprinted hquote hbackslash _ ih =>
    cases h' with
    | close => exact absurd rfl hquote
    | plain hprinted' _ _ h' =>
      obtain ⟨rfl, rfl, h⟩ := ih h'
      exact ⟨rfl, rfl, .plain (or_meet hprinted hprinted') hquote hbackslash h⟩
    | short => exact absurd rfl hbackslash
    | unicode => exact absurd rfl hbackslash
  | short hletters hletter _ ih =>
    cases h' with
    | plain _ _ hbackslash => exact absurd rfl hbackslash
    | short hletters' hletter' h' =>
      obtain ⟨rfl, rfl, h⟩ := ih h'
      obtain rfl := Option.some.inj (hletter.symm.trans hletter')
      exact ⟨rfl, rfl, .short (or_meet hletters hletters') hletter h⟩
    | unicode => exact absurd hletter (by rw [shortEscape_u]; nofun)
  | unicode hunicode hunit _ ih =>
    cases h' with
    | plain _ _ hbackslash => exact absurd rfl hbackslash
    | short _ hletter => exact absurd hletter (by rw [shortEscape_u]; nofun)
    | unicode hunicode' hunit' h' =>
      obtain ⟨rfl, rfl, h⟩ := ih h'
      obtain rfl := Option.some.inj (hunit.symm.trans hunit')
      exact ⟨rfl, rfl, .unicode (Bool.and_eq_true_iff.2 ⟨hunicode, hunicode'⟩) hunit h⟩

theorem Quoted.meet {value value' : List UInt8} (h : Quoted D value i r)
    (h' : Quoted D' value' i r') : value = value' ∧ r = r' ∧ Quoted (D.meet D') value i r := by
  obtain ⟨pieces, tail, rfl, h, hpaired, rfl⟩ := h
  obtain ⟨pieces', tail', heq, h', hpaired', rfl⟩ := h'
  obtain rfl := (List.cons.inj heq).2
  obtain ⟨rfl, rfl, hmeet⟩ := h.meet h'
  exact ⟨rfl, rfl, pieces, tail, rfl, hmeet, or_meet hpaired hpaired', rfl⟩

/-! ### Numbers -/

def isNumeric (b : UInt8) : Bool :=
  Encoding.isDigit b || b = 0x2d || b = 0x2b || b = 0x2e || b = 0x65 || b = 0x45

/-- Numbers end in front of these. -/
def Ends (r : List UInt8) : Prop := ∀ b ∈ r.head?, isNumeric b = false

theorem Digits.numeric {text : List UInt8} (h : Digits text) : ∀ b ∈ text, isNumeric b = true := by
  intro b hb
  simp [isNumeric, h.2 b hb]

theorem Number.numeric {padded : Bool} {literal : List UInt8} (h : Number padded literal) :
    ∀ b ∈ literal, isNumeric b = true := by
  obtain ⟨minus, whole, fraction, exponent, rfl, hminus, hwhole, hfraction, hexponent⟩ := h
  intro b hb
  rw [List.mem_append, List.mem_append, List.mem_append] at hb
  rcases hb with ((hb | hb) | hb) | hb
  · rcases hminus with rfl | rfl
    · exact absurd hb List.not_mem_nil
    · obtain rfl := List.mem_singleton.1 hb
      rfl
  · exact hwhole.1.numeric b hb
  · rcases hfraction with rfl | ⟨digits, rfl, hdigits⟩
    · exact absurd hb List.not_mem_nil
    · rcases List.mem_cons.1 hb with rfl | hb
      · rfl
      · exact hdigits.numeric b hb
  · rcases hexponent with rfl | ⟨e, sign, digits, rfl, he, hsign, hdigits⟩
    · exact absurd hb List.not_mem_nil
    · rw [List.cons_append, List.mem_cons, List.mem_append] at hb
      rcases hb with rfl | hb | hb
      · rcases he with rfl | rfl <;> rfl
      · rcases hsign with rfl | rfl | rfl
        · exact absurd hb List.not_mem_nil
        · obtain rfl := List.mem_singleton.1 hb
          rfl
        · obtain rfl := List.mem_singleton.1 hb
          rfl
      · exact hdigits.numeric b hb

/-- A number begins with its sign or a digit. -/
theorem Number.head {padded : Bool} {literal : List UInt8} (h : Number padded literal) :
    ∃ b tail, literal = b :: tail ∧ (Encoding.isDigit b = true ∨ b = 0x2d) := by
  obtain ⟨minus, whole, fraction, exponent, rfl, hminus, ⟨⟨hne, hdigits⟩, -⟩, -, -⟩ := h
  obtain ⟨b, tail, rfl⟩ := List.exists_cons_of_ne_nil hne
  rcases hminus with rfl | rfl
  · exact ⟨b, tail ++ fraction ++ exponent, rfl, .inl (hdigits b List.mem_cons_self)⟩
  · exact ⟨0x2d, b :: tail ++ fraction ++ exponent, rfl, .inr rfl⟩

theorem takeWhile_numeric {literal : List UInt8} (h : ∀ b ∈ literal, isNumeric b = true)
    (hr : Ends r) : (literal ++ r).takeWhile isNumeric = literal := by
  have hnone : r.takeWhile isNumeric = [] := by
    rcases r with _ | ⟨b, r⟩
    · rfl
    · simp [hr b rfl]
  rw [List.takeWhile_append_of_pos h, hnone, List.append_nil]

theorem Number.meet {padded padded' : Bool} {literal : List UInt8} (h : Number padded literal)
    (h' : Number padded' literal) : Number (padded && padded') literal := by
  cases padded
  · exact h
  · exact h'

theorem Whole.number {padded : Bool} {text : List UInt8} (h : Whole padded text) :
    Number padded text :=
  ⟨[], text, [], [], by simp, .inl rfl, h, .inl rfl, .inl rfl⟩

/-- A number of digits only. -/
theorem Number.whole {padded : Bool} {literal : List UInt8} (h : Number padded literal)
    (hdigits : ∀ b ∈ literal, Encoding.isDigit b = true) : Whole padded literal := by
  obtain ⟨minus, whole, fraction, exponent, rfl, hminus, hwhole, hfraction, hexponent⟩ := h
  have hno : ∀ b, Encoding.isDigit b = false → b ∉ minus ++ whole ++ fraction ++ exponent :=
    fun b hb hmem => absurd ((hdigits b hmem).symm.trans hb) (by decide)
  obtain rfl : minus = [] := by
    rcases hminus with rfl | rfl
    · rfl
    · exact absurd (by simp) (hno 0x2d rfl)
  obtain rfl : fraction = [] := by
    rcases hfraction with rfl | ⟨digits, rfl, -⟩
    · rfl
    · exact absurd (by simp) (hno 0x2e rfl)
  obtain rfl : exponent = [] := by
    rcases hexponent with rfl | ⟨e, sign, digits, rfl, he, -⟩
    · rfl
    · rcases he with rfl | rfl
      · exact absurd (by simp) (hno 0x65 rfl)
      · exact absurd (by simp) (hno 0x45 rfl)
  simpa using hwhole

theorem whole_decimal (padded : Bool) (n : ℕ) : Whole padded (Encoding.decimal n) := by
  refine ⟨⟨Encoding.decimal_ne_nil n, fun _ => Encoding.isDigit_of_mem_decimal⟩, .inr fun h => ?_⟩
  rcases Nat.eq_zero_or_pos n with rfl | hpos
  · rfl
  · exact absurd h (Encoding.head?_decimal_ne hpos)

theorem number_signedDecimal (padded : Bool) (z : Int) :
    Number padded (Encoding.signedDecimal z) := by
  cases z with
  | ofNat n =>
    rw [Encoding.signedDecimal_ofNat]
    exact (whole_decimal padded n).number
  | negSucc n =>
    rw [Encoding.signedDecimal_negSucc]
    exact ⟨[0x2d], Encoding.decimal (n + 1), [], [], by simp, .inr rfl, whole_decimal padded _,
      .inl rfl, .inl rfl⟩

/-! ### Values -/

inductive Kind
  | null | yes | no | number | string | array | object
  deriving DecidableEq

def Value.kind : Value → Kind
  | .null => .null
  | .boolean true => .yes
  | .boolean false => .no
  | .number _ => .number
  | .string _ => .string
  | .array _ => .array
  | .object _ => .object

/-- The kind of the values that begin with a byte. -/
def kindOf (b : UInt8) : Kind :=
  if b = 0x6e then .null else if b = 0x74 then .yes else if b = 0x66 then .no
  else if b = 0x22 then .string else if b = 0x5b then .array else if b = 0x7b then .object
  else .number

theorem kindOf_number {b : UInt8} (h : Encoding.isDigit b = true ∨ b = 0x2d) :
    kindOf b = .number := by
  have hne : ∀ c, Encoding.isDigit c = false → c ≠ 0x2d → b ≠ c := by
    rintro c hc hsign rfl
    rcases h with h | h
    · exact absurd (h.symm.trans hc) (by decide)
    · exact hsign h
  simp only [kindOf, hne 0x6e rfl (by decide), hne 0x74 rfl (by decide), hne 0x66 rfl (by decide),
    hne 0x22 rfl (by decide), hne 0x5b rfl (by decide), hne 0x7b rfl (by decide), if_false]

/-- A value begins with a byte of its kind. -/
theorem Spells.head {value : Value} (h : Spells D value i r) :
    ∃ b tail, i = b :: tail ∧ kindOf b = value.kind ∧ 0x20 < b ∧ b ≠ 0x5d := by
  cases value with
  | null => exact ⟨0x6e, _, h, rfl, by decide⟩
  | boolean value =>
    cases value
    · exact ⟨0x66, _, h, rfl, by decide⟩
    · exact ⟨0x74, _, h, rfl, by decide⟩
  | number literal =>
    obtain ⟨hnumber, rfl⟩ := h
    obtain ⟨b, tail, rfl, hb⟩ := hnumber.head
    refine ⟨b, tail ++ r, rfl, kindOf_number hb, ?_⟩
    rcases hb with hdigit | rfl
    · simp only [Encoding.isDigit, Bool.and_eq_true, decide_eq_true_eq, UInt8.le_iff_toNat_le,
        UInt8.reduceToNat] at hdigit
      simp only [UInt8.lt_iff_toNat_lt, ne_eq, ← UInt8.toNat_inj, UInt8.reduceToNat]
      omega
    · decide
  | string value =>
    obtain ⟨pieces, tail, rfl, -⟩ := h
    exact ⟨0x22, tail, rfl, rfl, by decide⟩
  | array elements =>
    obtain ⟨tail, rfl, -⟩ := h
    exact ⟨0x5b, tail, rfl, rfl, by decide⟩
  | object members =>
    obtain ⟨tail, rfl, -⟩ := h
    exact ⟨0x7b, tail, rfl, rfl, by decide⟩

theorem Spells.solid {value : Value} (h : Spells D value i r) : Solid i := by
  obtain ⟨b, tail, rfl, -, hb, -⟩ := h.head
  exact solid_cons hb

theorem Spells.kind_eq {value value' : Value} (h : Spells D value i r)
    (h' : Spells D' value' i r') : value.kind = value'.kind := by
  obtain ⟨b, tail, rfl, hkind, -⟩ := h.head
  obtain ⟨b', tail', heq, hkind', -⟩ := h'.head
  obtain rfl := (List.cons.inj heq).1
  exact hkind.symm.trans hkind'

theorem Quoted.solid {value : List UInt8} (h : Quoted D value i r) : Solid i := by
  obtain ⟨pieces, tail, rfl, -⟩ := h
  exact solid_cons (by decide)

/-- White space does not go on with a number. -/
theorem Blank.ends (h : Blank D i r) (hr : Ends r) : Ends i := by
  obtain ⟨spaces, rfl, hspaces⟩ := h
  rcases spaces with _ | ⟨space, spaces⟩
  · exact hr
  · intro c hc
    obtain rfl : space = c := Option.some.inj hc
    have hle : space.toNat ≤ 0x20 := D.space_le space (hspaces space List.mem_cons_self)
    simp only [isNumeric, Encoding.isDigit, Bool.or_eq_false_iff, Bool.and_eq_false_iff,
      decide_eq_false_iff_not, UInt8.le_iff_toNat_le, ← UInt8.toNat_inj, UInt8.reduceToNat]
    omega

/-- What may stand behind a value. -/
structure Token (token : UInt8) : Prop where
  solid : 0x20 < token
  notNumeric : isNumeric token = false

theorem Token.ends {token : UInt8} (h : Token token) : Ends (token :: r) := by
  intro b hb
  obtain rfl : token = b := Option.some.inj hb
  exact h.notNumeric

theorem token_colon : Token 0x3a := ⟨by decide, rfl⟩

theorem token_comma : Token 0x2c := ⟨by decide, rfl⟩

theorem token_bracket : Token 0x5d := ⟨by decide, rfl⟩

theorem token_brace : Token 0x7d := ⟨by decide, rfl⟩

/-- The token behind white space is the same in both dialects. -/
theorem Blank.token {b b' : UInt8} {c c' : List UInt8} (h : Blank D i (b :: c))
    (h' : Blank D' i (b' :: c')) (hb : 0x20 < b) (hb' : 0x20 < b') :
    b = b' ∧ c = c' ∧ Blank (D.meet D') i (b :: c) := by
  obtain ⟨heq, hmeet⟩ := h.meet h' (solid_cons hb) (solid_cons hb')
  exact ⟨(List.cons.inj heq).1, (List.cons.inj heq).2, hmeet⟩

/-- Slots are read alike where the texts in them are. -/
theorem Slot.meet {P P' Q : List UInt8 → List UInt8 → Prop} {same : Prop} {t t' : UInt8}
    (h : Slot D P t i r) (h' : Slot D' P' t' i r') (ht : Token t) (ht' : Token t')
    (hsolid : ∀ a b, P a b → Solid a) (hsolid' : ∀ a b, P' a b → Solid a)
    (hmeet : ∀ a b b', P a b → P' a b' → Ends b → Ends b' → same ∧ b = b' ∧ Q a b) :
    same ∧ t = t' ∧ r = r' ∧ Slot (D.meet D') Q t i r := by
  obtain ⟨a, b, hfront, htext, hbehind⟩ := h
  obtain ⟨a', b', hfront', htext', hbehind'⟩ := h'
  obtain ⟨rfl, hfront⟩ := hfront.meet hfront' (hsolid _ _ htext) (hsolid' _ _ htext')
  obtain ⟨hsame, rfl, htext⟩ := hmeet _ _ _ htext htext' (hbehind.ends ht.ends)
    (hbehind'.ends ht'.ends)
  obtain ⟨rfl, rfl, hbehind⟩ := hbehind.token hbehind' ht.solid ht'.solid
  exact ⟨hsame, rfl, rfl, a, b, hfront, htext, hbehind⟩

theorem Slot.quoted_meet {name name' : List UInt8} (h : Slot D (Quoted D name) 0x3a i r)
    (h' : Slot D' (Quoted D' name') 0x3a i r') :
    name = name' ∧ r = r' ∧ Slot (D.meet D') (Quoted (D.meet D') name) 0x3a i r := by
  obtain ⟨hname, -, hrest⟩ := h.meet h' token_colon token_colon (fun _ _ h => h.solid)
    (fun _ _ h => h.solid) fun _ _ _ h h' _ _ => h.meet h'
  exact ⟨hname, hrest⟩

theorem Slot.value_meet {value value' : Value} {t t' : UInt8}
    (h : Slot D (Spells D value) t i r) (h' : Slot D' (Spells D' value') t' i r') (ht : Token t)
    (ht' : Token t') (ih : ∀ a b b', Spells D value a b → Spells D' value' a b' → Ends b →
      Ends b' → value = value' ∧ b = b' ∧ Spells (D.meet D') value a b) :
    value = value' ∧ t = t' ∧ r = r' ∧ Slot (D.meet D') (Spells (D.meet D') value) t i r :=
  h.meet h' ht ht' (fun _ _ h => h.solid) (fun _ _ h => h.solid) ih

theorem SpellsElements.first {value : Value} {values : List Value}
    (h : SpellsElements D (value :: values) i r) : ∃ a b, Blank D i a ∧ Spells D value a b := by
  cases values with
  | nil =>
    obtain ⟨a, b, hblank, hvalue, -⟩ := h
    exact ⟨a, b, hblank, hvalue⟩
  | cons next values =>
    obtain ⟨-, ⟨a, b, hblank, hvalue, -⟩, -⟩ := h
    exact ⟨a, b, hblank, hvalue⟩

theorem SpellsMembers.first {member : List UInt8 × Value} {members : List (List UInt8 × Value)}
    (h : SpellsMembers D (member :: members) i r) :
    ∃ c, Slot D (Quoted D member.1) 0x3a i c := by
  cases members with
  | nil =>
    obtain ⟨c, hname, -⟩ := h
    exact ⟨c, hname⟩
  | cons next members =>
    obtain ⟨c, -, hname, -⟩ := h
    exact ⟨c, hname⟩

/-- No element begins like the end of an array. -/
theorem SpellsElements.not_close {value : Value} {values : List Value}
    (h : SpellsElements D (value :: values) i r) : ¬Blank D' i (0x5d :: r') := by
  intro hclose
  obtain ⟨a, b, hblank, hvalue⟩ := h.first
  obtain ⟨c, tail, rfl, -, hsolid, hne⟩ := hvalue.head
  exact hne (hblank.token hclose hsolid token_bracket.solid).1

theorem SpellsMembers.not_close {member : List UInt8 × Value}
    {members : List (List UInt8 × Value)} (h : SpellsMembers D (member :: members) i r) :
    ¬Blank D' i (0x7d :: r') := by
  intro hclose
  obtain ⟨c, a, b, hblank, ⟨pieces, tail, rfl, -⟩, -⟩ := h.first
  exact absurd (hblank.token hclose (by decide) token_brace.solid).1 (by decide)

-- a value is compared by its structure; the other one is of the same kind
mutual

/-- Two dialects read one value from an input, in front of what ends a number. -/
theorem Spells.meet : ∀ {value value' : Value} {i r r' : List UInt8}, Spells D value i r →
    Spells D' value' i r' → Ends r → Ends r' →
      value = value' ∧ r = r' ∧ Spells (D.meet D') value i r
  | .null, value', i, r, r', h, h', hr, hr' => by
    have hkind := h.kind_eq h'
    cases value' with
    | null => exact ⟨rfl, List.append_cancel_left (h.symm.trans h'), h⟩
    | boolean value' => cases value' <;> cases hkind
    | _ => cases hkind
  | .boolean value, value', i, r, r', h, h', hr, hr' => by
    have hkind := h.kind_eq h'
    cases value' with
    | boolean value' =>
      obtain rfl : value = value' := by
        cases value <;> cases value' <;> first | rfl | cases hkind
      exact ⟨rfl, List.append_cancel_left (h.symm.trans h'), h⟩
    | _ => cases value <;> cases hkind
  | .number literal, value', i, r, r', h, h', hr, hr' => by
    have hkind := h.kind_eq h'
    cases value' with
    | number literal' =>
      obtain ⟨h, rfl⟩ := h
      obtain ⟨h', heq⟩ := h'
      obtain rfl : literal = literal' := by
        rw [← takeWhile_numeric h.numeric hr, heq, takeWhile_numeric h'.numeric hr']
      exact ⟨rfl, List.append_cancel_left heq, h.meet h', rfl⟩
    | boolean value' => cases value' <;> cases hkind
    | _ => cases hkind
  | .string value, value', i, r, r', h, h', hr, hr' => by
    have hkind := h.kind_eq h'
    cases value' with
    | string value' =>
      obtain ⟨rfl, rfl, hmeet⟩ := Quoted.meet h h'
      exact ⟨rfl, rfl, hmeet⟩
    | boolean value' => cases value' <;> cases hkind
    | _ => cases hkind
  | .array elements, value', i, r, r', h, h', hr, hr' => by
    have hkind := h.kind_eq h'
    cases value' with
    | array elements' =>
      obtain ⟨tail, rfl, h⟩ := h
      obtain ⟨tail', heq, h'⟩ := h'
      obtain rfl := (List.cons.inj heq).2
      obtain ⟨rfl, rfl, hmeet⟩ := SpellsElements.meet h h'
      exact ⟨rfl, rfl, tail, rfl, hmeet⟩
    | boolean value' => cases value' <;> cases hkind
    | _ => cases hkind
  | .object members, value', i, r, r', h, h', hr, hr' => by
    have hkind := h.kind_eq h'
    cases value' with
    | object members' =>
      obtain ⟨tail, rfl, h⟩ := h
      obtain ⟨tail', heq, h'⟩ := h'
      obtain rfl := (List.cons.inj heq).2
      obtain ⟨rfl, rfl, hmeet⟩ := SpellsMembers.meet h h'
      exact ⟨rfl, rfl, tail, rfl, hmeet⟩
    | boolean value' => cases value' <;> cases hkind
    | _ => cases hkind

theorem SpellsElements.meet : ∀ {elements elements' : List Value} {i r r' : List UInt8},
    SpellsElements D elements i r → SpellsElements D' elements' i r' →
      elements = elements' ∧ r = r' ∧ SpellsElements (D.meet D') elements i r
  | [], [], i, r, r', h, h' => by
    obtain ⟨-, rfl, hmeet⟩ := Blank.token h h' token_bracket.solid token_bracket.solid
    exact ⟨rfl, rfl, hmeet⟩
  | [], _ :: _, i, r, r', h, h' => absurd h h'.not_close
  | _ :: _, [], i, r, r', h, h' => absurd h' h.not_close
  | [value], [value'], i, r, r', h, h' => by
    obtain ⟨rfl, -, rfl, hmeet⟩ := h.value_meet h' token_bracket token_bracket fun _ _ _ => Spells.meet
    exact ⟨rfl, rfl, hmeet⟩
  | [value], value' :: _ :: _, i, r, r', h, ⟨c', h', _⟩ => by
    obtain ⟨-, htoken, -⟩ := h.value_meet h' token_bracket token_comma fun _ _ _ => Spells.meet
    exact absurd htoken (by decide)
  | value :: _ :: _, [value'], i, r, r', ⟨c, h, _⟩, h' => by
    obtain ⟨-, htoken, -⟩ := h.value_meet h' token_comma token_bracket fun _ _ _ => Spells.meet
    exact absurd htoken (by decide)
  | value :: next :: values, value' :: next' :: values', i, r, r', ⟨c, h, hrest⟩,
      ⟨c', h', hrest'⟩ => by
    obtain ⟨rfl, -, rfl, hmeet⟩ := h.value_meet h' token_comma token_comma fun _ _ _ => Spells.meet
    obtain ⟨heq, rfl, hrest⟩ := SpellsElements.meet hrest hrest'
    obtain ⟨rfl, rfl⟩ := List.cons.inj heq
    exact ⟨rfl, rfl, c, hmeet, hrest⟩

theorem SpellsMembers.meet : ∀ {members members' : List (List UInt8 × Value)}
    {i r r' : List UInt8}, SpellsMembers D members i r → SpellsMembers D' members' i r' →
      members = members' ∧ r = r' ∧ SpellsMembers (D.meet D') members i r
  | [], [], i, r, r', h, h' => by
    obtain ⟨-, rfl, hmeet⟩ := Blank.token h h' token_brace.solid token_brace.solid
    exact ⟨rfl, rfl, hmeet⟩
  | [], _ :: _, i, r, r', h, h' => absurd h h'.not_close
  | _ :: _, [], i, r, r', h, h' => absurd h' h.not_close
  | [(name, value)], [(name', value')], i, r, r', ⟨c, hname, h⟩, ⟨c', hname', h'⟩ => by
    obtain ⟨rfl, rfl, hname⟩ := hname.quoted_meet hname'
    obtain ⟨rfl, -, rfl, hmeet⟩ := h.value_meet h' token_brace token_brace fun _ _ _ => Spells.meet
    exact ⟨rfl, rfl, c, hname, hmeet⟩
  | [(name, value)], (name', value') :: _ :: _, i, r, r', ⟨c, hname, h⟩,
      ⟨c', d', hname', h', _⟩ => by
    obtain ⟨rfl, rfl, hname⟩ := hname.quoted_meet hname'
    obtain ⟨-, htoken, -⟩ := h.value_meet h' token_brace token_comma fun _ _ _ => Spells.meet
    exact absurd htoken (by decide)
  | (name, value) :: _ :: _, [(name', value')], i, r, r', ⟨c, d, hname, h, _⟩,
      ⟨c', hname', h'⟩ => by
    obtain ⟨rfl, rfl, hname⟩ := hname.quoted_meet hname'
    obtain ⟨-, htoken, -⟩ := h.value_meet h' token_comma token_brace fun _ _ _ => Spells.meet
    exact absurd htoken (by decide)
  | (name, value) :: next :: members, (name', value') :: next' :: members', i, r, r',
      ⟨c, d, hname, h, hrest⟩, ⟨c', d', hname', h', hrest'⟩ => by
    obtain ⟨rfl, rfl, hname⟩ := hname.quoted_meet hname'
    obtain ⟨rfl, -, rfl, hmeet⟩ := h.value_meet h' token_comma token_comma fun _ _ _ => Spells.meet
    obtain ⟨heq, rfl, hrest⟩ := SpellsMembers.meet hrest hrest'
    obtain ⟨rfl, rfl⟩ := List.cons.inj heq
    exact ⟨rfl, rfl, c, d, hname, hmeet, hrest⟩

end

/-- A text that two dialects read is one value, in what they share. -/
theorem Document.meet {value value' : Value} {text : List UInt8} (h : Document D value text)
    (h' : Document D' value' text) : value = value' ∧ Document (D.meet D') value text := by
  obtain ⟨a, b, hfront, hvalue, hbehind⟩ := h
  obtain ⟨a', b', hfront', hvalue', hbehind'⟩ := h'
  have hends : Ends [] := by nofun
  obtain ⟨rfl, hfront⟩ := hfront.meet hfront' hvalue.solid hvalue'.solid
  obtain ⟨rfl, rfl, hmeet⟩ := hvalue.meet hvalue' (hbehind.ends hends) (hbehind'.ends hends)
  obtain ⟨-, hbehind⟩ := hbehind.meet hbehind' (by nofun) (by nofun)
  exact ⟨rfl, a, b, hfront, hmeet, hbehind⟩

end Meet

/-! ## What is left of an input -/

section Suffix

variable {D : Dialect} {i i' r : List UInt8}

theorem Blank.refl : Blank D i i := ⟨[], rfl, fun _ hb => absurd hb List.not_mem_nil⟩

theorem Blank.trans (h : Blank D i i') (h' : Blank D i' r) : Blank D i r := by
  obtain ⟨spaces, rfl, hspaces⟩ := h
  obtain ⟨spaces', rfl, hspaces'⟩ := h'
  refine ⟨spaces ++ spaces', (List.append_assoc ..).symm, fun b hb => ?_⟩
  exact (List.mem_append.1 hb).elim (hspaces b) (hspaces' b)

theorem Slot.pad {P : List UInt8 → List UInt8 → Prop} {t : UInt8} (hblank : Blank D i i')
    (h : Slot D P t i' r) : Slot D P t i r := by
  obtain ⟨a, b, hfront, hrest⟩ := h
  exact ⟨a, b, hblank.trans hfront, hrest⟩

/-- White space in front of elements may be dropped or added. -/
theorem SpellsElements.pad : ∀ {elements : List Value}, Blank D i i' →
    SpellsElements D elements i' r → SpellsElements D elements i r
  | [], hblank, h => hblank.trans h
  | [_], hblank, h => Slot.pad hblank h
  | _ :: _ :: _, hblank, ⟨c, h, hrest⟩ => ⟨c, h.pad hblank, hrest⟩

theorem SpellsMembers.pad : ∀ {members : List (List UInt8 × Value)}, Blank D i i' →
    SpellsMembers D members i' r → SpellsMembers D members i r
  | [], hblank, h => hblank.trans h
  | [(_, _)], hblank, ⟨c, hname, h⟩ => ⟨c, hname.pad hblank, h⟩
  | (_, _) :: _ :: _, hblank, ⟨c, d, hname, h⟩ => ⟨c, d, hname.pad hblank, h⟩

theorem Slot.trim {P : List UInt8 → List UInt8 → Prop} {t : UInt8} (h : Slot D P t i r)
    (hsolid : ∀ a b, P a b → Solid a) : Slot D P t (i.dropWhile D.space) r := by
  obtain ⟨a, b, hfront, htext, hbehind⟩ := h
  rw [hfront.dropWhile_eq (hsolid a b htext)]
  exact ⟨a, b, .refl, htext, hbehind⟩

theorem SpellsElements.trim : ∀ {elements : List Value}, SpellsElements D elements i r →
    SpellsElements D elements (i.dropWhile D.space) r
  | [], h => by
    rw [Blank.dropWhile_eq h (solid_cons token_bracket.solid)]
    exact .refl
  | [_], h => Slot.trim h fun _ _ h => h.solid
  | _ :: _ :: _, ⟨c, h, hrest⟩ => ⟨c, h.trim fun _ _ h => h.solid, hrest⟩

theorem SpellsMembers.trim : ∀ {members : List (List UInt8 × Value)},
    SpellsMembers D members i r → SpellsMembers D members (i.dropWhile D.space) r
  | [], h => by
    rw [Blank.dropWhile_eq h (solid_cons token_brace.solid)]
    exact .refl
  | [(_, _)], ⟨c, hname, h⟩ => ⟨c, hname.trim fun _ _ h => h.solid, h⟩
  | (_, _) :: _ :: _, ⟨c, d, hname, h⟩ => ⟨c, d, hname.trim fun _ _ h => h.solid, h⟩

theorem Pieces.length_lt {pieces : List Piece} (h : Pieces D pieces i r) :
    r.length < i.length := by
  induction h with
  | close => simp
  | plain _ _ _ _ ih =>
    simp only [List.length_cons]
    omega
  | short _ _ _ ih =>
    simp only [List.length_cons]
    omega
  | unicode _ _ _ ih =>
    simp only [List.length_cons]
    omega

theorem Quoted.length_lt {value : List UInt8} (h : Quoted D value i r) : r.length < i.length := by
  obtain ⟨pieces, tail, rfl, h, -⟩ := h
  exact Nat.lt_succ_of_lt h.length_lt

theorem Slot.length_lt {P : List UInt8 → List UInt8 → Prop} {t : UInt8} (h : Slot D P t i r)
    (hP : ∀ a b, P a b → b.length < a.length) : r.length + 1 < i.length := by
  obtain ⟨a, b, hfront, htext, hbehind⟩ := h
  have hfront := hfront.length_le
  have htext := hP a b htext
  have hbehind := hbehind.length_le
  rw [List.length_cons] at hbehind
  omega

theorem length_lt_of_eq {text : List UInt8} (h : i = text ++ r) (hne : text ≠ []) :
    r.length < i.length := by
  have hpos := List.length_pos_of_ne_nil hne
  rw [h, List.length_append]
  omega

mutual

/-- Every value takes some of the input. -/
theorem Spells.length_lt : ∀ {value : Value} {i r : List UInt8}, Spells D value i r →
    r.length < i.length
  | .null, _, _, h => length_lt_of_eq h (by simp [nullText])
  | .boolean value, _, _, h => length_lt_of_eq h (by cases value <;> simp [booleanText])
  | .number literal, _, _, ⟨h, heq⟩ => by
    obtain ⟨b, tail, rfl, -⟩ := h.head
    exact length_lt_of_eq heq (List.cons_ne_nil _ _)
  | .string _, _, _, h => Quoted.length_lt h
  | .array _, _, _, ⟨tail, heq, h⟩ => by
    rw [heq]
    exact Nat.lt_succ_of_lt (SpellsElements.length_lt h)
  | .object _, _, _, ⟨tail, heq, h⟩ => by
    rw [heq]
    exact Nat.lt_succ_of_lt (SpellsMembers.length_lt h)

theorem SpellsElements.length_lt : ∀ {elements : List Value} {i r : List UInt8},
    SpellsElements D elements i r → r.length < i.length
  | [], _, _, h => Blank.length_le h
  | [_], _, _, h => Nat.lt_of_succ_lt (Slot.length_lt h fun _ _ => Spells.length_lt)
  | _ :: _ :: _, _, _, ⟨_, h, hrest⟩ =>
    (SpellsElements.length_lt hrest).trans
      (Nat.lt_of_succ_lt (h.length_lt fun _ _ => Spells.length_lt))

theorem SpellsMembers.length_lt : ∀ {members : List (List UInt8 × Value)} {i r : List UInt8},
    SpellsMembers D members i r → r.length < i.length
  | [], _, _, h => Blank.length_le h
  | [(_, _)], _, _, ⟨_, hname, h⟩ =>
    (Nat.lt_of_succ_lt (h.length_lt fun _ _ => Spells.length_lt)).trans
      (Nat.lt_of_succ_lt (hname.length_lt fun _ _ h => h.length_lt))
  | (_, _) :: _ :: _, _, _, ⟨_, _, hname, h, hrest⟩ =>
    ((SpellsMembers.length_lt hrest).trans
      (Nat.lt_of_succ_lt (h.length_lt fun _ _ => Spells.length_lt))).trans
        (Nat.lt_of_succ_lt (hname.length_lt fun _ _ h => h.length_lt))

end

end Suffix

/-! ## The strings of a value -/

section Strings

variable (P : List UInt8 → Prop)

-- the names of members are strings too
mutual

def Value.Strings : Value → Prop
  | .string value => P value
  | .array elements => ElementStrings elements
  | .object members => MemberStrings members
  | _ => True

def ElementStrings : List Value → Prop
  | [] => True
  | value :: elements => value.Strings ∧ ElementStrings elements

def MemberStrings : List (List UInt8 × Value) → Prop
  | [] => True
  | (name, value) :: members => P name ∧ value.Strings ∧ MemberStrings members

end

variable {P} {D : Dialect}

theorem Slot.quoted (hP : ∀ value i r, Quoted D value i r → P value) {name : List UInt8}
    {t : UInt8} {i r : List UInt8} (h : Slot D (Quoted D name) t i r) : P name := by
  obtain ⟨a, b, -, hname, -⟩ := h
  exact hP name a b hname

mutual

theorem Spells.strings (hP : ∀ value i r, Quoted D value i r → P value) :
    ∀ {value : Value} {i r : List UInt8}, Spells D value i r → value.Strings P
  | .null, _, _, _ => trivial
  | .boolean _, _, _, _ => trivial
  | .number _, _, _, _ => trivial
  | .string value, i, r, h => hP value i r h
  | .array _, _, _, ⟨_, _, h⟩ => SpellsElements.strings hP h
  | .object _, _, _, ⟨_, _, h⟩ => SpellsMembers.strings hP h

theorem SpellsElements.strings (hP : ∀ value i r, Quoted D value i r → P value) :
    ∀ {elements : List Value} {i r : List UInt8}, SpellsElements D elements i r →
      ElementStrings P elements
  | [], _, _, _ => trivial
  | [_], _, _, ⟨_, _, _, h, _⟩ => ⟨Spells.strings hP h, trivial⟩
  | _ :: _ :: _, _, _, ⟨_, ⟨_, _, _, h, _⟩, hrest⟩ =>
    ⟨Spells.strings hP h, SpellsElements.strings hP hrest⟩

theorem SpellsMembers.strings (hP : ∀ value i r, Quoted D value i r → P value) :
    ∀ {members : List (List UInt8 × Value)} {i r : List UInt8}, SpellsMembers D members i r →
      MemberStrings P members
  | [], _, _, _ => trivial
  | [(_, _)], _, _, ⟨_, hname, ⟨_, _, _, h, _⟩⟩ =>
    ⟨Slot.quoted hP hname, Spells.strings hP h, trivial⟩
  | (_, _) :: _ :: _, _, _, ⟨_, _, hname, ⟨_, _, _, h, _⟩, hrest⟩ =>
    ⟨Slot.quoted hP hname, Spells.strings hP h, SpellsMembers.strings hP hrest⟩

end

/-- What every string of the dialect is, the strings of a document are. -/
theorem Document.strings (hP : ∀ value i r, Quoted D value i r → P value) {value : Value}
    {text : List UInt8} (h : Document D value text) : value.Strings P := by
  obtain ⟨a, b, -, hvalue, -⟩ := h
  exact hvalue.strings hP

end Strings

/-! ## Wider dialects -/

section Within

/-- What one dialect reads the other does too. -/
structure Within (D D' : Dialect) : Prop where
  space : ∀ b, D.space b = true → D'.space b = true
  raw : D.raw = true → D'.raw = true
  letters : D.letters = true → D'.letters = true
  unicode : D.unicode = true → D'.unicode = true
  lone : D.lone = true → D'.lone = true
  padded : D.padded = true → D'.padded = true

variable {D D' : Dialect} (hD : Within D D') {i r : List UInt8}

include hD

theorem Blank.mono (h : Blank D i r) : Blank D' i r := by
  obtain ⟨spaces, rfl, hspaces⟩ := h
  exact ⟨spaces, rfl, fun b hb => hD.space b (hspaces b hb)⟩

theorem Pieces.mono {pieces : List Piece} (h : Pieces D pieces i r) : Pieces D' pieces i r := by
  induction h with
  | close => exact .close
  | plain hprinted hquote hbackslash _ ih =>
    exact .plain (hprinted.imp_left hD.raw) hquote hbackslash ih
  | short hletters hletter _ ih => exact .short (hletters.imp_left hD.letters) hletter ih
  | unicode hunicode hunit _ ih => exact .unicode (hD.unicode hunicode) hunit ih

theorem Quoted.mono {value : List UInt8} (h : Quoted D value i r) : Quoted D' value i r := by
  obtain ⟨pieces, tail, rfl, h, hpaired, hvalue⟩ := h
  exact ⟨pieces, tail, rfl, h.mono hD, hpaired.imp_left hD.lone, hvalue⟩

theorem Number.mono {literal : List UInt8} (h : Number D.padded literal) :
    Number D'.padded literal := by
  obtain ⟨minus, whole, fraction, exponent, heq, hminus, hwhole, hrest⟩ := h
  exact ⟨minus, whole, fraction, exponent, heq, hminus, hwhole.imp_right (Or.imp_left hD.padded),
    hrest⟩

theorem Slot.mono {P P' : List UInt8 → List UInt8 → Prop} {t : UInt8} (h : Slot D P t i r)
    (hP : ∀ a b, P a b → P' a b) : Slot D' P' t i r := by
  obtain ⟨a, b, hfront, htext, hbehind⟩ := h
  exact ⟨a, b, hfront.mono hD, hP a b htext, hbehind.mono hD⟩

mutual

theorem Spells.mono : ∀ {value : Value} {i r : List UInt8}, Spells D value i r →
    Spells D' value i r
  | .null, _, _, h => h
  | .boolean _, _, _, h => h
  | .number _, _, _, ⟨h, heq⟩ => ⟨h.mono hD, heq⟩
  | .string _, _, _, h => Quoted.mono hD h
  | .array _, _, _, ⟨i', heq, h⟩ => ⟨i', heq, SpellsElements.mono h⟩
  | .object _, _, _, ⟨i', heq, h⟩ => ⟨i', heq, SpellsMembers.mono h⟩

theorem SpellsElements.mono : ∀ {elements : List Value} {i r : List UInt8},
    SpellsElements D elements i r → SpellsElements D' elements i r
  | [], _, _, h => Blank.mono hD h
  | [_], _, _, h => Slot.mono hD h fun _ _ => Spells.mono
  | _ :: _ :: _, _, _, ⟨c, h, hrest⟩ =>
    ⟨c, h.mono hD fun _ _ => Spells.mono, SpellsElements.mono hrest⟩

theorem SpellsMembers.mono : ∀ {members : List (List UInt8 × Value)} {i r : List UInt8},
    SpellsMembers D members i r → SpellsMembers D' members i r
  | [], _, _, h => Blank.mono hD h
  | [(_, _)], _, _, ⟨c, hname, h⟩ =>
    ⟨c, hname.mono hD fun _ _ h => h.mono hD, h.mono hD fun _ _ => Spells.mono⟩
  | (_, _) :: _ :: _, _, _, ⟨c, d, hname, h, hrest⟩ =>
    ⟨c, d, hname.mono hD fun _ _ h => h.mono hD, h.mono hD fun _ _ => Spells.mono,
      SpellsMembers.mono hrest⟩

end

theorem Document.mono {value : Value} {text : List UInt8} (h : Document D value text) :
    Document D' value text := by
  obtain ⟨a, b, hfront, hvalue, hbehind⟩ := h
  exact ⟨a, b, hfront.mono hD, hvalue.mono hD, hbehind.mono hD⟩

end Within

end Json

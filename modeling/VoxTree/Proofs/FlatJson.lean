import Mathlib.Data.List.TakeWhile
import VoxTree.Proofs.JsonStrings

/-!
# The adapter's parser and its grammar

`parseFlatJsonObject` accepts the flat objects of its own dialect of JSON. That dialect differs from
the standard in two points, and the two agree on a text exactly if neither point comes up in it
(`parseFlatJsonObject_exact`).
-/

namespace VoxTree.Network

open Json (Blank Slot Spells SpellsMembers Quoted)

/-! ## Flat objects -/

/-- What the values of members may be. -/
def scalarOf : Json.Value → Option JsonScalar
  | .string value => some (.string value)
  | .boolean value => some (.boolean value)
  | .number literal =>
    if (Encoding.readDecimal literal).2 = [] ∧ (Encoding.readDecimal literal).1 < UInt64.size then
      some (.unsigned (Encoding.readDecimal literal).1)
    else none
  | _ => none

/-- A text is an object whose names are pairwise distinct and whose values are scalars; the map has
these members and no others. -/
def Flat (D : Json.Dialect) (text : Bytes) (object : JsonObject) : Prop :=
  ∃ members, Json.Document D (.object members) text ∧ (members.map Prod.fst).Nodup
    ∧ (∀ member ∈ members, ∃ scalar, scalarOf member.2 = some scalar)
    ∧ ∀ key scalar, object[key]? = some scalar
      ↔ ∃ value, (key, value) ∈ members ∧ scalarOf value = some scalar

/-! ## Scalars -/

section Scalars

variable {input rest a b c : Bytes}

theorem skipWhitespace_blank (h : Blank dialect input a) (ha : Json.Solid a) :
    skipWhitespace input = a :=
  h.dropWhile_eq ha

theorem blank_skipWhitespace (input : Bytes) : Blank dialect input (skipWhitespace input) :=
  .dropWhile input

theorem readDecimal_digits {literal : Bytes} (h : Json.Digits literal) :
    Encoding.readDecimal literal
      = (literal.foldl (fun value digit => 10 * value + (digit.toNat - 48)) 0, []) := by
  have hall : literal.takeWhile Encoding.isDigit = literal := List.takeWhile_eq_self_iff.2 h.2
  have hnone : literal.dropWhile Encoding.isDigit = [] := List.dropWhile_eq_nil_iff.2 h.2
  unfold Encoding.readDecimal
  rw [hall, hnone]

/-- A number is a scalar as the adapter converts it. -/
theorem scalarOf_number {literal : Bytes} (h : Json.Number dialect.padded literal) :
    scalarOf (.number literal) = (fromChars literal).map .unsigned := by
  by_cases hdigits : Json.Digits literal
  · have hall : literal.all isDigit = true := List.all_eq_true.2 hdigits.2
    rw [scalarOf, readDecimal_digits hdigits]
    by_cases hsize : literal.foldl (fun value digit => 10 * value + (digit.toNat - 48)) 0
        < UInt64.size
    · have hfrom : fromChars literal = some _ := if_pos ⟨hdigits.1, hall, hsize⟩
      rw [hfrom, if_pos ⟨rfl, hsize⟩]
      rfl
    · have hfrom : fromChars literal = none := if_neg fun hread => hsize hread.2.2
      rw [hfrom, if_neg fun hread => hsize hread.2]
      rfl
  · have hrest : (Encoding.readDecimal literal).2 ≠ [] := fun hnone =>
      hdigits (h.whole (List.dropWhile_eq_nil_iff.1 hnone)).1
    have hfrom : fromChars literal = none :=
      if_neg fun hread => hdigits ⟨hread.1, List.all_eq_true.1 hread.2.1⟩
    rw [hfrom, scalarOf, if_neg fun hread => hrest hread.1]
    rfl

theorem parseScalar_sound {scalar : JsonScalar} (h : parseScalar input = some (scalar, rest)) :
    ∃ value, Spells dialect value input rest ∧ scalarOf value = some scalar := by
  unfold parseScalar at h
  split_ifs at h with hquote htrue hfalse
  · obtain ⟨⟨value, rest⟩, hread, heq⟩ := Option.map_eq_some_iff.1 h
    obtain ⟨rfl, rfl⟩ := Prod.mk.inj heq
    exact ⟨.string value, parseJsonString_eq_some.1 hread, rfl⟩
  · obtain ⟨rfl, rfl⟩ := Prod.mk.inj (Option.some.inj h)
    obtain ⟨tail, rfl⟩ := List.isPrefixOf_iff_prefix.1 htrue
    exact ⟨.boolean true, rfl, rfl⟩
  · obtain ⟨rfl, rfl⟩ := Prod.mk.inj (Option.some.inj h)
    obtain ⟨tail, rfl⟩ := List.isPrefixOf_iff_prefix.1 hfalse
    exact ⟨.boolean false, rfl, rfl⟩
  · obtain ⟨⟨number, rest⟩, hread, heq⟩ := Option.map_eq_some_iff.1 h
    obtain ⟨rfl, rfl⟩ := Prod.mk.inj heq
    obtain ⟨number, hfrom, heq⟩ := Option.map_eq_some_iff.1 hread
    obtain ⟨rfl, rfl⟩ := Prod.mk.inj heq
    have hdigits := (fromChars_sound hfrom).2.1
    have hnumber : Json.Number dialect.padded (input.takeWhile isDigit) :=
      Json.Whole.number ⟨hdigits, .inl rfl⟩
    refine ⟨.number (input.takeWhile isDigit),
      ⟨hnumber, List.takeWhile_append_dropWhile.symm⟩, ?_⟩
    rw [scalarOf_number hnumber, hfrom]
    rfl

theorem parseScalar_complete {value : Json.Value} {scalar : JsonScalar}
    (h : Spells dialect value input rest) (hscalar : scalarOf value = some scalar)
    (hends : Json.Ends rest) : parseScalar input = some (scalar, rest) := by
  cases value with
  | string value =>
    obtain rfl := Option.some.inj hscalar
    have hread := parseJsonString_eq_some.2 h
    obtain ⟨pieces, tail, rfl, -⟩ := h
    have hquote : (0x22 :: tail).head? = some 0x22 := rfl
    unfold parseScalar
    rw [if_pos hquote, hread]
    rfl
  | boolean value =>
    obtain rfl := Option.some.inj hscalar
    rw [show input = _ from h]
    cases value <;> rfl
  | number literal =>
    obtain ⟨hnumber, rfl⟩ := h
    rw [scalarOf_number hnumber] at hscalar
    obtain ⟨number, hfrom, rfl⟩ := Option.map_eq_some_iff.1 hscalar
    obtain ⟨-, ⟨hne, hall⟩, -⟩ := fromChars_sound hfrom
    have hdigits : ∀ b ∈ literal, isDigit b = true := hall
    have hrest : rest.takeWhile isDigit = [] ∧ rest.dropWhile isDigit = rest := by
      rcases rest with _ | ⟨character, rest⟩
      · exact ⟨rfl, rfl⟩
      · have hnumeric := hends character rfl
        simp only [Json.isNumeric, Bool.or_eq_false_iff] at hnumeric
        have hdigit : isDigit character = false := hnumeric.1.1.1.1.1
        simp [hdigit]
    have hread : parseJsonUnsigned (literal ++ rest) = some (number, rest) := by
      unfold parseJsonUnsigned
      rw [List.takeWhile_append_of_pos hdigits, List.dropWhile_append_of_pos hdigits, hrest.1,
        hrest.2, List.append_nil, hfrom]
      rfl
    obtain ⟨digit, digits, rfl⟩ := List.exists_cons_of_ne_nil hne
    have hdigit : isDigit digit = true := hdigits digit List.mem_cons_self
    have hquote : ¬(digit :: digits ++ rest).head? = some 0x22 := fun h =>
      JsonParser.ne_of_isDigit hdigit (show isDigit 0x22 = false by decide) (Option.some.inj h)
    have htrue : (bytes "true").isPrefixOf (digit :: digits ++ rest) = false :=
      JsonParser.isPrefixOf_of_isDigit hdigit (show isDigit 0x74 = false by decide) (bytes "rue") _
    have hfalse : (bytes "false").isPrefixOf (digit :: digits ++ rest) = false :=
      JsonParser.isPrefixOf_of_isDigit hdigit (show isDigit 0x66 = false by decide) (bytes "alse") _
    unfold parseScalar
    rw [if_neg hquote, htrue, hfalse, if_neg Bool.false_ne_true, if_neg Bool.false_ne_true, hread]
    rfl
  | null => cases hscalar
  | array elements => cases hscalar
  | object members => cases hscalar

end Scalars

/-! ## Members -/

/-- What the loop makes of an object when it reads these members. -/
structure Extends (object : JsonObject) (members : List (Bytes × Json.Value))
    (result : JsonObject) : Prop where
  names : (members.map Prod.fst).Nodup
  fresh : ∀ member ∈ members, object.contains member.1 = false
  scalars : ∀ member ∈ members, ∃ scalar, scalarOf member.2 = some scalar
  entries : ∀ key scalar, result[key]? = some scalar ↔ object[key]? = some scalar
    ∨ ∃ value, (key, value) ∈ members ∧ scalarOf value = some scalar

theorem extends_nil {object result : JsonObject} : Extends object [] result ↔ result = object := by
  constructor
  · intro h
    refine Std.ExtTreeMap.ext_getElem? fun key => Option.ext fun scalar => ?_
    rw [h.entries]
    simp
  · rintro rfl
    exact ⟨List.nodup_nil, by simp, by simp, by simp⟩

theorem contains_insert {object : JsonObject} {key key' : Bytes} {scalar : JsonScalar} :
    (object.insert key scalar).contains key' = false ↔ key ≠ key' ∧ object.contains key' = false := by
  rw [Std.ExtTreeMap.contains_insert, Bool.or_eq_false_iff, beq_eq_false_iff_ne, ne_eq,
    Std.LawfulEqCmp.compare_eq_iff_eq]

theorem extends_cons {object result : JsonObject} {key : Bytes} {value : Json.Value}
    {members : List (Bytes × Json.Value)} {scalar : JsonScalar}
    (hkey : object.contains key = false) (hscalar : scalarOf value = some scalar) :
    Extends (object.insert key scalar) members result
      ↔ Extends object ((key, value) :: members) result := by
  have hnone : object[key]? = none := Std.ExtTreeMap.getElem?_eq_none_of_contains_eq_false hkey
  have hentry : ∀ key' scalar', (object.insert key scalar)[key']? = some scalar'
      ↔ object[key']? = some scalar' ∨ (key' = key ∧ scalar' = scalar) := by
    intro key' scalar'
    rw [Std.ExtTreeMap.getElem?_insert]
    split_ifs with heq
    · obtain rfl := Std.LawfulEqCmp.eq_of_compare heq
      rw [hnone]
      simp [eq_comm]
    · have hne : key' ≠ key := by
        rintro rfl
        exact heq Std.ReflCmp.compare_self
      simp [hne]
  have hmember : ∀ {key' value'}, (key', value') ∈ (key, value) :: members
      ↔ (key' = key ∧ value' = value) ∨ (key', value') ∈ members := by
    simp [Prod.ext_iff]
  have hiff : ∀ key' scalar', ((object.insert key scalar)[key']? = some scalar'
        ∨ ∃ value', (key', value') ∈ members ∧ scalarOf value' = some scalar')
      ↔ (object[key']? = some scalar'
        ∨ ∃ value', (key', value') ∈ (key, value) :: members ∧ scalarOf value' = some scalar') := by
    intro key' scalar'
    rw [hentry, or_assoc]
    refine or_congr_right ⟨?_, ?_⟩
    · rintro (⟨rfl, rfl⟩ | ⟨value', hvalue', hscalar'⟩)
      · exact ⟨value, List.mem_cons_self, hscalar⟩
      · exact ⟨value', List.mem_cons_of_mem _ hvalue', hscalar'⟩
    · rintro ⟨value', hvalue', hscalar'⟩
      rcases hmember.1 hvalue' with ⟨rfl, rfl⟩ | hvalue'
      · exact .inl ⟨rfl, Option.some.inj (hscalar'.symm.trans hscalar)⟩
      · exact .inr ⟨value', hvalue', hscalar'⟩
  constructor
  · intro h
    refine ⟨List.nodup_cons.2 ⟨fun hmem => ?_, h.names⟩, ?_, ?_, fun key' scalar' => ?_⟩
    · obtain ⟨member, hmember, hname⟩ := List.mem_map.1 hmem
      exact (contains_insert.1 (h.fresh member hmember)).1 hname.symm
    · refine List.forall_mem_cons.2 ⟨hkey, fun member hmember => ?_⟩
      exact (contains_insert.1 (h.fresh member hmember)).2
    · exact List.forall_mem_cons.2 ⟨⟨scalar, hscalar⟩, h.scalars⟩
    · rw [h.entries, hiff]
  · intro h
    have hnames := List.nodup_cons.1 h.names
    refine ⟨hnames.2, fun member hmember => ?_, (List.forall_mem_cons.1 h.scalars).2,
      fun key' scalar' => ?_⟩
    · refine contains_insert.2 ⟨fun heq => ?_, h.fresh member (List.mem_cons_of_mem _ hmember)⟩
      exact hnames.1 (List.mem_map.2 ⟨member, hmember, heq.symm⟩)
    · rw [h.entries, hiff]

/-! ## The loop -/

section Loop

variable {fuel : ℕ} {object result : JsonObject} {input rest b c d name : Bytes}
  {scalar : JsonScalar}

theorem parseMembers_succ (hname : Quoted dialect name input b)
    (hcolon : skipWhitespace b = 0x3a :: c)
    (hscalar : parseScalar (skipWhitespace c) = some (scalar, d)) :
    parseMembers (fuel + 1) object input
      = if object.contains name then none
        else if (skipWhitespace d).head? = some 0x7d then
          endOfObject (object.insert name scalar) (skipWhitespace d).tail
        else if (skipWhitespace d).head? = some 0x2c then
          parseMembers fuel (object.insert name scalar) (skipWhitespace (skipWhitespace d).tail)
        else none := by
  have hconsume : consume 0x3a (0x3a :: c) = some c := rfl
  rw [parseMembers]
  simp only [Option.bind_eq_bind, parseJsonString_eq_some.2 hname, Option.bind_some, hcolon,
    hconsume, hscalar]
  refine if_congr Iff.rfl rfl ?_
  split
  · rename_i hclose
    rw [hclose]
    rfl
  · rename_i hcomma
    rw [hcomma]
    rfl
  · rename_i hclose hcomma
    rw [if_neg (head?_ne_of_forall hclose), if_neg (head?_ne_of_forall hcomma)]

theorem endOfObject_eq_some : endOfObject object rest = some result
    ↔ result = object ∧ Blank dialect rest [] := by
  have hblank : skipWhitespace rest = [] ↔ Blank dialect rest [] :=
    ⟨fun h => h ▸ blank_skipWhitespace rest, fun h => skipWhitespace_blank h (by nofun)⟩
  unfold endOfObject
  rw [← hblank]
  split_ifs with h
  · simp [h, eq_comm]
  · simp [h]

theorem parseMembers_sound : ∀ {fuel : ℕ} {object : JsonObject} {input : Bytes},
    parseMembers fuel object input = some result → ∃ members rest, members ≠ []
      ∧ SpellsMembers dialect members input rest ∧ Blank dialect rest []
      ∧ Extends object members result
  | 0, _, _, h => by cases h
  | fuel + 1, object, input, h => by
    have hparse := h
    unfold parseMembers at hparse
    simp only [Option.bind_eq_bind] at hparse
    obtain ⟨⟨name, b⟩, hname, hparse⟩ := Option.bind_eq_some_iff.1 hparse
    obtain ⟨c, hcolon, hparse⟩ := Option.bind_eq_some_iff.1 hparse
    obtain ⟨⟨scalar, d⟩, hscalar, -⟩ := Option.bind_eq_some_iff.1 hparse
    have hquoted := parseJsonString_eq_some.1 hname
    have hcolon' := consume_eq_some.1 hcolon
    have hslot : Slot dialect (Quoted dialect name) 0x3a input c :=
      ⟨input, b, .refl, hquoted, hcolon' ▸ blank_skipWhitespace b⟩
    obtain ⟨value, hspells, hvalue⟩ := parseScalar_sound hscalar
    rw [parseMembers_succ hquoted hcolon' hscalar] at h
    split_ifs at h with hknown hclose hcomma
    · obtain ⟨rfl, hend⟩ := endOfObject_eq_some.1 h
      have hbehind := blank_skipWhitespace d
      rw [head?_eq_cons hclose] at hbehind
      refine ⟨[(name, value)], (skipWhitespace d).tail, List.cons_ne_nil _ _,
        ⟨c, hslot, _, d, blank_skipWhitespace c, hspells, hbehind⟩, hend, ?_⟩
      exact (extends_cons (Bool.eq_false_iff.2 hknown) hvalue).1 (extends_nil.2 rfl)
    · obtain ⟨members, rest, hne, hmembers, hend, hextends⟩ := parseMembers_sound h
      obtain ⟨next, members, rfl⟩ := List.exists_cons_of_ne_nil hne
      have hbehind := blank_skipWhitespace d
      rw [head?_eq_cons hcomma] at hbehind
      refine ⟨(name, value) :: next :: members, rest, List.cons_ne_nil _ _,
        ⟨c, (skipWhitespace d).tail, hslot, ⟨_, d, blank_skipWhitespace c, hspells, hbehind⟩,
          hmembers.pad (blank_skipWhitespace _)⟩, hend, ?_⟩
      exact (extends_cons (Bool.eq_false_iff.2 hknown) hvalue).1 hextends

theorem parseMembers_complete : ∀ {members : List (Bytes × Json.Value)} {fuel : ℕ}
    {object : JsonObject} {input rest : Bytes}, members ≠ [] →
      SpellsMembers dialect members input rest → Blank dialect rest [] →
      Extends object members result → (skipWhitespace input).length ≤ fuel →
        parseMembers fuel object (skipWhitespace input) = some result
  | [], _, _, _, _, hne, _, _, _, _ => absurd rfl hne
  | member :: members, 0, _, input, _, _, h, _, _, hfuel => by
    have hlength := (SpellsMembers.trim h).length_lt
    exact absurd hlength (by
      show ¬_ < (skipWhitespace input).length
      omega)
  | [(name, value)], fuel + 1, object, input, rest, _, ⟨c, hname, h⟩, hend, hextends, _ => by
    obtain ⟨a, b, hfront, hquoted, hcolon⟩ := hname
    obtain ⟨a', d, hfront', hspells, hclose⟩ := h
    obtain ⟨scalar, hscalar⟩ := hextends.scalars (name, value) List.mem_cons_self
    have hread := parseScalar_complete hspells hscalar (hclose.ends Json.token_brace.ends)
    have hkey := hextends.fresh (name, value) List.mem_cons_self
    have hresult := extends_nil.1 ((extends_cons hkey hscalar).2 hextends)
    rw [← skipWhitespace_blank hfront' hspells.solid] at hread
    rw [skipWhitespace_blank hfront hquoted.solid,
      parseMembers_succ hquoted
        (skipWhitespace_blank hcolon (Json.solid_cons Json.token_colon.solid)) hread, hkey,
      skipWhitespace_blank hclose (Json.solid_cons Json.token_brace.solid)]
    exact endOfObject_eq_some.2 ⟨hresult, hend⟩
  | (name, value) :: next :: members, fuel + 1, object, input, rest, _,
      ⟨c, d, hname, h, hrest⟩, hend, hextends, hfuel => by
    have hcolonLength := hname.length_lt fun _ _ h => h.length_lt
    have hcommaLength := h.length_lt fun _ _ h => h.length_lt
    obtain ⟨a, b, hfront, hquoted, hcolon⟩ := hname
    obtain ⟨a', e, hfront', hspells, hcomma⟩ := h
    obtain ⟨scalar, hscalar⟩ := hextends.scalars (name, value) List.mem_cons_self
    have hread := parseScalar_complete hspells hscalar (hcomma.ends Json.token_comma.ends)
    have hkey := hextends.fresh (name, value) List.mem_cons_self
    rw [skipWhitespace_blank hfront hquoted.solid] at hfuel ⊢
    have hshorter : (skipWhitespace d).length ≤ fuel := by
      have h1 := (blank_skipWhitespace d).length_le
      have h2 := hquoted.length_lt
      have h3 := hcolon.length_le
      rw [List.length_cons] at h3
      omega
    have hnext := parseMembers_complete (List.cons_ne_nil _ _) hrest hend
      ((extends_cons hkey hscalar).2 hextends) hshorter
    rw [← skipWhitespace_blank hfront' hspells.solid] at hread
    rw [parseMembers_succ hquoted
        (skipWhitespace_blank hcolon (Json.solid_cons Json.token_colon.solid)) hread, hkey,
      skipWhitespace_blank hcomma (Json.solid_cons Json.token_comma.solid)]
    exact hnext

end Loop

/-- From the length of the input on, the fuel does not matter. -/
theorem parseMembers_fuel {fuel : ℕ} {object : JsonObject} {input : Bytes}
    (hfuel : (skipWhitespace input).length ≤ fuel) :
    parseMembers fuel object (skipWhitespace input)
      = parseMembers (skipWhitespace input).length object (skipWhitespace input) := by
  have hread : ∀ {fuel result}, (skipWhitespace input).length ≤ fuel →
      (parseMembers fuel object (skipWhitespace input) = some result
        ↔ ∃ members rest, members ≠ [] ∧ SpellsMembers dialect members input rest
          ∧ Blank dialect rest [] ∧ Extends object members result) := by
    intro fuel result hfuel
    constructor
    · intro h
      obtain ⟨members, rest, hne, hmembers, hrest⟩ := parseMembers_sound h
      exact ⟨members, rest, hne, hmembers.pad (blank_skipWhitespace input), hrest⟩
    · rintro ⟨members, rest, hne, hmembers, hend, hextends⟩
      exact parseMembers_complete hne hmembers hend hextends hfuel
  exact Option.ext fun result => (hread hfuel).trans (hread (Nat.le_refl _)).symm

/-! ## Whole texts -/

theorem extends_empty {members : List (Bytes × Json.Value)} {object : JsonObject} :
    Extends ∅ members object ↔ (members.map Prod.fst).Nodup
      ∧ (∀ member ∈ members, ∃ scalar, scalarOf member.2 = some scalar)
      ∧ ∀ key scalar, object[key]? = some scalar
        ↔ ∃ value, (key, value) ∈ members ∧ scalarOf value = some scalar := by
  constructor
  · intro h
    refine ⟨h.names, h.scalars, fun key scalar => ?_⟩
    rw [h.entries]
    simp
  · rintro ⟨hnames, hscalars, hentries⟩
    refine ⟨hnames, fun _ _ => by simp, hscalars, fun key scalar => ?_⟩
    rw [hentries]
    simp

/-- The adapter reads exactly the flat objects of its dialect. -/
theorem parseFlatJsonObject_eq_some {text : Bytes} {object : JsonObject} :
    parseFlatJsonObject text = some object ↔ Flat dialect text object := by
  constructor
  · intro h
    unfold parseFlatJsonObject at h
    simp only [Option.bind_eq_bind] at h
    obtain ⟨tail, hopen, h⟩ := Option.bind_eq_some_iff.1 h
    have hfront := blank_skipWhitespace text
    rw [consume_eq_some.1 hopen] at hfront
    have hblank := blank_skipWhitespace tail
    split at h
    · rename_i rest hclose
      obtain ⟨rfl, hend⟩ := endOfObject_eq_some.1 h
      rw [hclose] at hblank
      exact ⟨[], ⟨_, rest, hfront, ⟨tail, rfl, hblank⟩, hend⟩,
        extends_empty.1 (extends_nil.2 rfl)⟩
    · obtain ⟨members, rest, -, hmembers, hend, hextends⟩ := parseMembers_sound h
      exact ⟨members, ⟨_, rest, hfront, ⟨tail, rfl, hmembers.pad hblank⟩, hend⟩,
        extends_empty.1 hextends⟩
  · rintro ⟨members, ⟨a, rest, hfront, ⟨tail, rfl, hmembers⟩, hend⟩, hextends⟩
    have hextends := extends_empty.2 hextends
    have hopen : consume 0x7b (0x7b :: tail) = some tail := rfl
    unfold parseFlatJsonObject
    rw [skipWhitespace_blank hfront (Json.solid_cons (by decide)), hopen]
    simp only [Option.bind_eq_bind, Option.bind_some]
    rcases members with _ | ⟨member, members⟩
    · rw [skipWhitespace_blank hmembers (Json.solid_cons Json.token_brace.solid)]
      exact endOfObject_eq_some.2 ⟨extends_nil.1 hextends, hend⟩
    · split
      · rename_i rest hclose
        have hblank := blank_skipWhitespace tail
        rw [hclose] at hblank
        exact absurd hblank hmembers.not_close
      · exact parseMembers_complete (List.cons_ne_nil _ _) hmembers hend hextends (Nat.le_refl _)

theorem Flat.mono {D D' : Json.Dialect} (hD : Json.Within D D') {text : Bytes}
    {object : JsonObject} (h : Flat D text object) : Flat D' text object := by
  obtain ⟨members, hdocument, hrest⟩ := h
  exact ⟨members, hdocument.mono hD, hrest⟩

/-- Dialects that both read a text make one map of it. -/
theorem Flat.meet {D D' : Json.Dialect} {text : Bytes} {object object' : JsonObject}
    (h : Flat D text object) (h' : Flat D' text object') :
    object = object' ∧ Flat (D.meet D') text object := by
  obtain ⟨members, hdocument, hnames, hscalars, hentries⟩ := h
  obtain ⟨members', hdocument', -, -, hentries'⟩ := h'
  obtain ⟨heq, hmeet⟩ := hdocument.meet hdocument'
  obtain rfl := Json.Value.object.inj heq
  refine ⟨Std.ExtTreeMap.ext_getElem? fun key => Option.ext fun scalar => ?_,
    members, hmeet, hnames, hscalars, hentries⟩
  rw [hentries, hentries']

/-! ## The standard -/

/-- The standard without escapes by number. -/
def plainDialect : Json.Dialect := { Json.Dialect.standard with unicode := false, lone := false }

/-- A flat object of the standard in which some string has an escape by number. -/
def EscapesByNumber (text : Bytes) : Prop :=
  ∃ object, Flat .standard text object ∧ ¬Flat plainDialect text object

/-- A flat object but for zeros in front of some number. -/
def ZeroPadded (text : Bytes) : Prop :=
  ∃ object, Flat { plainDialect with padded := true } text object
    ∧ ¬Flat plainDialect text object

/-- The adapter accepts exactly the flat objects of the standard, each with its map, on the texts
where neither an escape by number nor a zero in front of a number comes up; the fuel of its loop
does not matter. -/
theorem parseFlatJsonObject_exact (text : Bytes) :
    (∀ (fuel : ℕ) (object : JsonObject) (input : Bytes), (skipWhitespace input).length ≤ fuel →
      parseMembers fuel object (skipWhitespace input)
        = parseMembers (skipWhitespace input).length object (skipWhitespace input))
    ∧ ((∀ object, parseFlatJsonObject text = some object ↔ Flat .standard text object)
      ↔ ¬EscapesByNumber text ∧ ¬ZeroPadded text) := by
  have hshared : Json.Within (Json.Dialect.standard.meet dialect) plainDialect :=
    ⟨fun b hb => (Bool.and_eq_true_iff.1 hb).1, nofun, fun _ => rfl, nofun, nofun, nofun⟩
  have hstandard : Json.Within plainDialect .standard :=
    ⟨fun _ => id, nofun, fun _ => rfl, nofun, nofun, nofun⟩
  have hdialect : Json.Within plainDialect dialect :=
    ⟨fun _ => id, nofun, fun _ => rfl, nofun, nofun, nofun⟩
  refine ⟨fun fuel object input hfuel => parseMembers_fuel hfuel, ?_⟩
  simp only [parseFlatJsonObject_eq_some]
  constructor
  · refine fun h => ⟨?_, ?_⟩
    · rintro ⟨object, hread, hplain⟩
      exact hplain ((hread.meet ((h object).2 hread)).2.mono hshared)
    · rintro ⟨object, hread, hplain⟩
      exact hplain ((((h object).1 hread).meet hread).2.mono hshared)
  · rintro ⟨hescapes, hpadded⟩ object
    constructor
    · intro hread
      by_contra hnot
      exact hpadded ⟨object, hread, fun hplain => hnot (hplain.mono hstandard)⟩
    · intro hread
      by_contra hnot
      exact hescapes ⟨object, hread, fun hplain => hnot (hplain.mono hdialect)⟩

theorem flat_singleton {D : Json.Dialect} {text key : Bytes} {value : Json.Value}
    {scalar : JsonScalar} (h : Json.Document D (.object [(key, value)]) text)
    (hscalar : scalarOf value = some scalar) :
    Flat D text ((∅ : JsonObject).insert key scalar) :=
  ⟨[(key, value)], h,
    extends_empty.1 ((extends_cons (by simp) hscalar).1 (extends_nil.2 rfl))⟩

/-- `007` is read as seven, and a string whose only character is written by its number is not
read. -/
theorem parseFlatJsonObject_inexact :
    ¬(∀ object, parseFlatJsonObject (bytes "\x7b\"a\":007\x7d") = some object
        ↔ Flat .standard (bytes "\x7b\"a\":007\x7d") object)
      ∧ ¬∀ object, parseFlatJsonObject (bytes "\x7b\"a\":\"\\u0041\"\x7d") = some object
        ↔ Flat .standard (bytes "\x7b\"a\":\"\\u0041\"\x7d") object := by
  have hname : ∀ {D : Json.Dialect} {rest : Bytes},
      Slot D (Quoted D [0x61]) 0x3a (0x22 :: 0x61 :: 0x22 :: 0x3a :: rest) rest := fun {D rest} =>
    ⟨_, 0x3a :: rest, .refl, ⟨[.byte 0x61], _, rfl,
      .plain (.inr (by decide)) (by decide) (by decide) .close, .inr rfl, rfl⟩, .refl⟩
  constructor
  · intro h
    have hnumber : Json.Number dialect.padded [0x30, 0x30, 0x37] :=
      Json.Whole.number ⟨⟨List.cons_ne_nil _ _, by simp [Encoding.isDigit]⟩, .inl rfl⟩
    have hdocument : Json.Document dialect (.object [([0x61], .number [0x30, 0x30, 0x37])])
        (bytes "\x7b\"a\":007\x7d") :=
      ⟨_, [], .refl, ⟨_, rfl, _, hname, _, [0x7d], .refl, ⟨hnumber, rfl⟩, .refl⟩, .refl⟩
    have hread : Flat dialect _ ((∅ : JsonObject).insert [0x61] (.unsigned 7)) :=
      flat_singleton hdocument rfl
    obtain ⟨members, hstandard, -⟩ := (h _).1 (parseFlatJsonObject_eq_some.2 hread)
    obtain ⟨-, hmeet⟩ := hdocument.meet hstandard
    obtain ⟨a, b, -, ⟨tail, -, c, -, d, e, -, ⟨hstrict, -⟩, -⟩, -⟩ := hmeet
    have hwhole := hstrict.whole (by simp [Encoding.isDigit])
    exact absurd (hwhole.2.resolve_left Bool.false_ne_true rfl) (by decide)
  · intro h
    have hvalue : Quoted .standard [0x41]
        (0x22 :: 0x5c :: 0x75 :: 0x30 :: 0x30 :: 0x34 :: 0x31 :: 0x22 :: [0x7d]) [0x7d] :=
      ⟨[.unit 0x41], _, rfl, .unicode rfl rfl .close, .inl rfl, rfl⟩
    have hdocument : Json.Document .standard (.object [([0x61], .string [0x41])])
        (bytes "\x7b\"a\":\"\\u0041\"\x7d") :=
      ⟨_, [], .refl, ⟨_, rfl, _, hname, _, [0x7d], .refl, hvalue, .refl⟩, .refl⟩
    have hread : Flat .standard _ ((∅ : JsonObject).insert [0x61] (.string [0x41])) :=
      flat_singleton hdocument rfl
    have hnone : parseFlatJsonObject (bytes "\x7b\"a\":\"\\u0041\"\x7d") = none := by rfl
    cases hnone.symm.trans ((h _).2 hread)

end VoxTree.Network

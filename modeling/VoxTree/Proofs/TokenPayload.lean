import VoxTree.Lib.Json
import VoxTree.Proofs.LiveKitToken

/-!
# Tokens as JSON

The payload of a token is read by the grammar of JSON, its metadata being a text of JSON again. As
`jsonEscape` writes control characters as they are, a payload is valid exactly if the identifiers in
it have none (`tokens_valid_iff`); then it has the fields of the claims and no others.
-/

namespace VoxTree.LiveKit

open Json (Spells SpellsMembers Slot Quoted Document Dialect)

/-! ## Escaped texts -/

/-- No control characters. -/
def Printable (text : Bytes) : Prop := ∀ b ∈ text, 0x20 ≤ b

instance (text : Bytes) : Decidable (Printable text) :=
  decidable_of_iff (text.all fun b => 0x20 ≤ b.toNat) (by simp [Printable, UInt8.le_iff_toNat_le])

/-- The dialect of `jsonEscape`. -/
def writerDialect : Dialect :=
  { Dialect.standard with raw := true, letters := false, unicode := false, lone := false }

section Escape

variable {D : Dialect} {value a b rest : Bytes}

theorem pieces_escaped : ∀ {value : Bytes}, D.raw = true ∨ Printable value → (rest : Bytes) →
    Json.Pieces D (value.map .byte) ((value.flatMap fun character =>
      if character = 0x22 ∨ character = 0x5c then [0x5c, character] else [character])
        ++ 0x22 :: rest) rest
  | [], _, _ => .close
  | character :: value, h, rest => by
    have htail := pieces_escaped
      (h.imp_right fun h b hb => h b (List.mem_cons_of_mem _ hb)) rest
    have hprinted : D.raw = true ∨ 0x20 ≤ character := h.imp_right fun h => h _ List.mem_cons_self
    rw [List.flatMap_cons, List.append_assoc, List.map_cons]
    by_cases hescape : character = 0x22 ∨ character = 0x5c
    · rw [if_pos hescape]
      rcases hescape with rfl | rfl
      · exact .short (.inr (.inl rfl)) rfl htail
      · exact .short (.inr (.inr rfl)) rfl htail
    · rw [if_neg hescape]
      exact .plain hprinted (not_or.1 hescape).1 (not_or.1 hescape).2 htail

theorem decode_bytes : ∀ value : Bytes, Json.decode (value.map .byte) = value
  | [] => rfl
  | b :: value => congrArg (b :: ·) (decode_bytes value)

theorem paired_bytes : ∀ value : Bytes, Json.paired (value.map .byte) = true
  | [] => rfl
  | _ :: value => paired_bytes value

/-- What `jsonEscape` writes is a string in every dialect that takes its control characters. -/
theorem quoted_jsonEscape (h : D.raw = true ∨ Printable value) (rest : Bytes) :
    Quoted D value (jsonEscape value ++ rest) rest := by
  refine ⟨value.map .byte, _, ?_, pieces_escaped h rest, .inr (paired_bytes value),
    decode_bytes value⟩
  simp [jsonEscape]

/-- Where control characters cannot be written there are none. -/
theorem Quoted.printable (hraw : D.raw = false) (hletters : D.letters = false)
    (hunicode : D.unicode = false) (h : Quoted D value a b) : Printable value := by
  obtain ⟨pieces, tail, -, hpieces, -, rfl⟩ := h
  induction hpieces with
  | close => exact fun b hb => absurd hb List.not_mem_nil
  | plain hprinted _ _ _ ih =>
    rw [hraw] at hprinted
    exact List.forall_mem_cons.2 ⟨hprinted.resolve_left Bool.false_ne_true, ih⟩
  | short hletter hvalue _ ih =>
    rw [hletters] at hletter
    refine List.forall_mem_cons.2 ⟨?_, ih⟩
    rcases hletter.resolve_left Bool.false_ne_true with rfl | rfl
    · obtain rfl := Option.some.inj hvalue
      decide
    · obtain rfl := Option.some.inj hvalue
      decide
  | unicode h =>
    rw [hunicode] at h
    cases h

theorem Printable.append {text text' : Bytes} (h : Printable text) (h' : Printable text') :
    Printable (text ++ text') := fun b hb => (List.mem_append.1 hb).elim (h b) (h' b)

theorem Printable.decimal (n : ℕ) : Printable (decimal n) := by
  intro b hb
  have hdigit : Encoding.isDigit b = true := Encoding.isDigit_of_mem_decimal hb
  simp only [Encoding.isDigit, Bool.and_eq_true, decide_eq_true_eq, UInt8.le_iff_toNat_le,
    UInt8.reduceToNat] at hdigit ⊢
  omega

theorem Printable.jsonEscape (h : Printable value) : Printable (jsonEscape value) := by
  intro b hb
  simp only [LiveKit.jsonEscape, List.mem_append, List.mem_cons, List.mem_flatMap,
    List.not_mem_nil, or_false] at hb
  rcases hb with (rfl | ⟨character, hcharacter, hb⟩) | rfl
  · decide
  · split_ifs at hb
    · rcases List.mem_pair.1 hb with rfl | rfl
      · decide
      · exact h b hcharacter
    · obtain rfl := List.mem_singleton.1 hb
      exact h b hcharacter
  · decide

end Escape

/-! ## Values of a token -/

namespace LiveKitTokenAdapter

variable (credentials : LiveKitCredentials) (claims : VoiceGrantClaims)

def metadataValue : Json.Value :=
  .object [(bytes "device_id", .string claims.deviceId.value),
    (bytes "membership_version", .number (decimal claims.membershipVersion))]

/-- The fields of a token for the room, with this text as metadata. -/
def payloadValue (metadata room : Bytes) (canSubscribe : Bool) : Json.Value :=
  .object [(bytes "iss", .string credentials.apiKey),
    (bytes "sub", .string claims.playerId.value),
    (bytes "exp", .number (signedDecimal (secondsSinceEpoch claims.expiresAt))),
    (bytes "metadata", .string metadata),
    (bytes "video", .object [(bytes "roomJoin", .boolean true), (bytes "room", .string room),
      (bytes "canPublish", .boolean false), (bytes "canSubscribe", .boolean canSubscribe)])]

section Documents

variable {D : Dialect}

theorem slot_name {name : Bytes} (h : Printable name) (rest : Bytes) :
    Slot D (Quoted D name) 0x3a (jsonEscape name ++ 0x3a :: rest) rest :=
  ⟨_, 0x3a :: rest, .refl, quoted_jsonEscape (.inr h) _, .refl⟩

theorem slot_value {value : Json.Value} {a rest : Bytes} {token : UInt8}
    (h : Spells D value a (token :: rest)) : Slot D (Spells D value) token a rest :=
  ⟨a, token :: rest, .refl, h, .refl⟩

theorem metadata_eq : metadata claims = 0x7b :: (jsonEscape (bytes "device_id")
    ++ 0x3a :: (jsonEscape claims.deviceId.value
    ++ 0x2c :: (jsonEscape (bytes "membership_version")
    ++ 0x3a :: (decimal claims.membershipVersion ++ 0x7d :: [])))) := by
  have hdevice : bytes "\x7b\"device_id\":"
      = 0x7b :: (jsonEscape (bytes "device_id") ++ [0x3a]) := rfl
  have hversion : bytes ",\"membership_version\":"
      = 0x2c :: (jsonEscape (bytes "membership_version") ++ [0x3a]) := rfl
  have hclose : bytes "\x7d" = [0x7d] := rfl
  rw [metadata, hdevice, hversion, hclose]
  simp only [List.append_assoc, List.cons_append, List.nil_append]

theorem document_metadata (h : D.raw = true ∨ Printable claims.deviceId.value) :
    Document D (metadataValue claims) (metadata claims) := by
  rw [metadata_eq]
  refine ⟨_, [], .refl, ⟨_, rfl, ?_⟩, .refl⟩
  exact ⟨_, _, slot_name (by decide) _, slot_value (quoted_jsonEscape h _),
    _, slot_name (by decide) _, slot_value ⟨(Json.whole_decimal _ _).number, rfl⟩⟩

theorem payload_eq (room : Bytes) (canSubscribe : Bool) :
    payload credentials claims room canSubscribe = 0x7b :: (jsonEscape (bytes "iss")
      ++ 0x3a :: (jsonEscape credentials.apiKey ++ 0x2c :: (jsonEscape (bytes "sub")
      ++ 0x3a :: (jsonEscape claims.playerId.value ++ 0x2c :: (jsonEscape (bytes "exp")
      ++ 0x3a :: (signedDecimal (secondsSinceEpoch claims.expiresAt)
      ++ 0x2c :: (jsonEscape (bytes "metadata")
      ++ 0x3a :: (jsonEscape (metadata claims) ++ 0x2c :: (jsonEscape (bytes "video")
      ++ 0x3a :: 0x7b :: (jsonEscape (bytes "roomJoin") ++ 0x3a :: (Json.booleanText true
      ++ 0x2c :: (jsonEscape (bytes "room") ++ 0x3a :: (jsonEscape room
      ++ 0x2c :: (jsonEscape (bytes "canPublish") ++ 0x3a :: (Json.booleanText false
      ++ 0x2c :: (jsonEscape (bytes "canSubscribe") ++ 0x3a :: (Json.booleanText canSubscribe
      ++ 0x7d :: 0x7d :: []))))))))))))))))) := by
  have hiss : bytes "\x7b\"iss\":" = 0x7b :: (jsonEscape (bytes "iss") ++ [0x3a]) := rfl
  have hsub : bytes ",\"sub\":" = 0x2c :: (jsonEscape (bytes "sub") ++ [0x3a]) := rfl
  have hexp : bytes ",\"exp\":" = 0x2c :: (jsonEscape (bytes "exp") ++ [0x3a]) := rfl
  have hmetadata : bytes ",\"metadata\":"
      = 0x2c :: (jsonEscape (bytes "metadata") ++ [0x3a]) := rfl
  have hvideo : bytes ",\"video\":\x7b\"roomJoin\":true,\"room\":"
      = 0x2c :: (jsonEscape (bytes "video") ++ 0x3a :: 0x7b :: (jsonEscape (bytes "roomJoin")
        ++ 0x3a :: (Json.booleanText true ++ 0x2c :: (jsonEscape (bytes "room") ++ [0x3a])))) := rfl
  have hpublish : bytes ",\"canPublish\":false"
      = 0x2c :: (jsonEscape (bytes "canPublish") ++ 0x3a :: Json.booleanText false) := rfl
  have hsubscribe : bytes ",\"canSubscribe\":"
      = 0x2c :: (jsonEscape (bytes "canSubscribe") ++ [0x3a]) := rfl
  have hright : bytes (if canSubscribe then "true" else "false")
      = Json.booleanText canSubscribe := by
    cases canSubscribe <;> rfl
  have hclose : bytes "\x7d\x7d" = [0x7d, 0x7d] := rfl
  rw [payload, hiss, hsub, hexp, hmetadata, hvideo, hpublish, hsubscribe, hright, hclose]
  simp only [List.append_assoc, List.cons_append, List.nil_append]

theorem document_payload {room : Bytes} (canSubscribe : Bool)
    (hkey : D.raw = true ∨ Printable credentials.apiKey)
    (hplayer : D.raw = true ∨ Printable claims.playerId.value)
    (hmetadata : D.raw = true ∨ Printable (metadata claims))
    (hroom : D.raw = true ∨ Printable room) :
    Document D (payloadValue credentials claims (metadata claims) room canSubscribe)
      (payload credentials claims room canSubscribe) := by
  have hnumber : Json.Number D.padded (signedDecimal (secondsSinceEpoch claims.expiresAt)) :=
    Json.number_signedDecimal _ _
  rw [payload_eq]
  refine ⟨_, [], .refl, ⟨_, rfl, ?_⟩, .refl⟩
  refine ⟨_, _, slot_name (by decide) _, slot_value (quoted_jsonEscape hkey _),
    _, _, slot_name (by decide) _, slot_value (quoted_jsonEscape hplayer _),
    _, _, slot_name (by decide) _, slot_value ⟨hnumber, rfl⟩,
    _, _, slot_name (by decide) _, slot_value (quoted_jsonEscape hmetadata _),
    _, slot_name (by decide) _, slot_value ⟨_, rfl, ?_⟩⟩
  exact ⟨_, _, slot_name (by decide) _, slot_value rfl,
    _, _, slot_name (by decide) _, slot_value (quoted_jsonEscape hroom _),
    _, _, slot_name (by decide) _, slot_value rfl,
    _, slot_name (by decide) _, slot_value rfl⟩

end Documents

/-! ## Valid tokens -/

/-- A document has this value and no other. -/
def Reads (text : Bytes) (value : Json.Value) : Prop :=
  ∀ value', Document .standard value' text ↔ value' = value

theorem reads_of_document {text : Bytes} {value : Json.Value} (h : Document .standard value text) :
    Reads text value := fun _ => ⟨fun h' => (h'.meet h).1, fun heq => heq ▸ h⟩

/-- The token of a scope tells the fields of the claims and no others, its metadata being a document
for the device and the version. -/
def TokenValid (accessToken : Bytes) (scope : VoiceScope) : Prop :=
  ∃ metadata, Reads (payloadOf accessToken) (payloadValue credentials claims metadata
      (roomFor claims scope) (claims.receiveScopes.contains scope))
    ∧ Reads metadata (metadataValue claims)

/-- The identifiers in the token of a scope have no control characters. -/
structure PrintableFor (scope : VoiceScope) : Prop where
  apiKey : Printable credentials.apiKey
  playerId : Printable claims.playerId.value
  deviceId : Printable claims.deviceId.value
  node : Printable (scopeNode claims scope)

variable {credentials claims}

theorem printable_roomFor {scope : VoiceScope} :
    Printable (roomFor claims scope) ↔ Printable (scopeNode claims scope) := by
  have hname : ∃ name, Printable name ∧ roomFor claims scope = name ++ scopeNode claims scope := by
    cases scope
    · exact ⟨bytes "team:", by decide, rfl⟩
    · exact ⟨bytes "specialization:", by decide, rfl⟩
    · exact ⟨bytes "group:", by decide, rfl⟩
  obtain ⟨name, hname, heq⟩ := hname
  rw [heq]
  exact ⟨fun h b hb => h b (List.mem_append_right _ hb), hname.append⟩

theorem printable_metadata (h : Printable claims.deviceId.value) : Printable (metadata claims) :=
  (((show Printable (bytes "\x7b\"device_id\":") by decide).append h.jsonEscape).append
    (by decide)).append (.decimal _) |>.append (by decide)

/-- The strings that the standard and `jsonEscape` both have are without control characters. -/
theorem strings_shared {value value' : Json.Value} {text : Bytes}
    (h : Document .standard value text) (h' : Document writerDialect value' text) :
    value = value' ∧ value.Strings Printable := by
  obtain ⟨heq, hshared⟩ := h.meet h'
  exact ⟨heq, hshared.strings fun _ _ _ hquoted => Quoted.printable rfl rfl rfl hquoted⟩

theorem printable_of_document_metadata
    (h : Document .standard (metadataValue claims) (metadata claims)) :
    Printable claims.deviceId.value := by
  obtain ⟨-, hstrings⟩ := strings_shared h (document_metadata claims (.inl rfl))
  exact hstrings.2.1

theorem printable_of_document_payload {metadata' room : Bytes} {canSubscribe : Bool}
    (h : Document .standard (payloadValue credentials claims metadata' room canSubscribe)
      (payload credentials claims room canSubscribe)) :
    metadata' = metadata claims ∧ Printable credentials.apiKey ∧ Printable claims.playerId.value
      ∧ Printable room := by
  obtain ⟨heq, -, hkey, -, hplayer, -, -, -, -, -, ⟨-, -, -, hroom, -⟩, -⟩ := strings_shared h
    (document_payload credentials claims canSubscribe (.inl rfl) (.inl rfl) (.inl rfl) (.inl rfl))
  exact ⟨by simpa [payloadValue] using heq, hkey, hplayer, hroom⟩

variable (credentials claims)

theorem tokenValid_iff (scope : VoiceScope) :
    TokenValid credentials claims (token credentials (payload credentials claims
        (roomFor claims scope) (claims.receiveScopes.contains scope))) scope
      ↔ PrintableFor credentials claims scope := by
  unfold TokenValid
  rw [payloadOf_token]
  constructor
  · rintro ⟨metadata', hpayload, hmetadata⟩
    obtain ⟨rfl, hkey, hplayer, hroom⟩ := printable_of_document_payload ((hpayload _).2 rfl)
    exact ⟨hkey, hplayer, printable_of_document_metadata ((hmetadata _).2 rfl),
      printable_roomFor.1 hroom⟩
  · intro h
    refine ⟨metadata claims, reads_of_document ?_, reads_of_document ?_⟩
    · exact document_payload credentials claims _ (.inr h.apiKey) (.inr h.playerId)
        (.inr (printable_metadata h.deviceId)) (.inr (printable_roomFor.2 h.node))
    · exact document_metadata claims (.inr h.deviceId)

theorem mem_issue_iff {grant : IssuedVoiceRoomGrant} : grant ∈ issue credentials claims ↔
    ∃ scope, (scope ∈ claims.transmitScopes ∨ scope ∈ claims.receiveScopes)
      ∧ grant = ⟨scope, roomFor claims scope, token credentials (payload credentials claims
        (roomFor claims scope) (claims.receiveScopes.contains scope))⟩ := by
  have hall : ∀ scope : VoiceScope, scope ∈ [VoiceScope.team, .specialization, .group] := by
    rintro (_ | _ | _) <;> simp
  unfold issue
  simp only [List.mem_filterMap, hall, true_and]
  refine exists_congr fun scope => ?_
  by_cases hgranted : scope ∈ claims.transmitScopes ∨ scope ∈ claims.receiveScopes
  · have hcontains : ¬(!claims.transmitScopes.contains scope
        && !claims.receiveScopes.contains scope) = true := by
      simpa [or_iff_not_imp_left] using hgranted
    rw [if_neg hcontains, Option.some.injEq]
    exact ⟨fun h => ⟨hgranted, h.symm⟩, fun h => h.2.symm⟩
  · have hcontains : (!claims.transmitScopes.contains scope
        && !claims.receiveScopes.contains scope) = true := by
      simpa using hgranted
    rw [if_pos hcontains]
    exact ⟨nofun, fun h => absurd h.1 hgranted⟩

/-- The issued tokens are valid exactly if the identifiers in them have no control characters. -/
theorem tokens_valid_iff :
    (∀ grant ∈ issue credentials claims,
        TokenValid credentials claims grant.accessToken grant.scope)
      ↔ ∀ scope, scope ∈ claims.transmitScopes ∨ scope ∈ claims.receiveScopes →
        PrintableFor credentials claims scope := by
  constructor
  · intro h scope hscope
    have hvalid := h _ ((mem_issue_iff credentials claims).2 ⟨scope, hscope, rfl⟩)
    exact (tokenValid_iff credentials claims scope).1 hvalid
  · intro h grant hgrant
    obtain ⟨scope, hscope, rfl⟩ := (mem_issue_iff credentials claims).1 hgrant
    exact (tokenValid_iff credentials claims scope).2 (h scope hscope)

open Sample

/-- The claims of a device whose identifier is a line feed. -/
def lineFeedClaims : VoiceGrantClaims := { grantClaims with deviceId := ⟨[0x0a], by decide⟩ }

/-- Its token is not valid. -/
theorem tokens_invalid_lineFeed :
    ¬∀ grant ∈ issue LiveKit.credentials lineFeedClaims,
      TokenValid LiveKit.credentials lineFeedClaims grant.accessToken grant.scope := by
  intro h
  have hscope : VoiceScope.team ∈ lineFeedClaims.transmitScopes
      ∨ VoiceScope.team ∈ lineFeedClaims.receiveScopes := .inl List.mem_cons_self
  have hvalid := h _ ((mem_issue_iff LiveKit.credentials lineFeedClaims).2 ⟨.team, hscope, rfl⟩)
  have hprintable := (tokenValid_iff LiveKit.credentials lineFeedClaims .team).1 hvalid
  exact absurd hprintable.deviceId (by decide)

end LiveKitTokenAdapter

end VoxTree.LiveKit

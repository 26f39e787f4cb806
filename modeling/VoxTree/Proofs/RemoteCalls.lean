import VoxTree.Proofs.FlatJson
import VoxTree.Proofs.Json
import VoxTree.Proofs.WinHttp
import VoxTree.RemoteCalls

/-!
# The wire does not show

What a client gets for a call over the wire is what it would get from the services directly, and
the services are left in the same state, where the texts of the call can be sent as they are
(`callOverWire_eq`). So clients that share a control plane
cannot tell the difference either, however their calls are interleaved.
-/

namespace VoxTree

open Client ControlPlaneClient JsonValue Machine Network Results WinHttpTransport

/-! ## Responses -/

/-- What the client makes of an answer, given how it reads a value. -/
def interpret {α : Type} (read : JsonValue → ControlPlaneResult α) (response : HttpResponse) :
    ControlPlaneResult α :=
  (responseRoot response.complete).bind read

/-- The value of a response, under the version of the interface. -/
def versioned (members : List (String × JsonValue)) : JsonValue :=
  ofMembers (("api_version", .string (bytes "v1")) :: members)

theorem responseRoot_versioned {members : List (String × JsonValue)}
    (hnames : ("api_version" :: members.map Prod.fst).Nodup)
    (hreadable : ∀ member ∈ members, member.2.Readable) (statusCode : Int) :
    responseRoot (jsonResponse statusCode (versioned members).encode).complete
      = if statusCode < 200 ∨ 300 ≤ statusCode then
          match (field (versioned members) (bytes "error") object?).bind fun error =>
              field error (bytes "code") string?,
            (field (versioned members) (bytes "error") object?).bind fun error =>
              field error (bytes "message") string? with
          | some code, some message => .error ⟨.server, statusCode, code, message⟩
          | _, _ =>
            .error (invalidResponse "control-plane error response has no valid error envelope")
        else .ok (versioned members) := by
  have hanswered : Answered (jsonResponse statusCode (versioned members).encode) := .json _ _
  have hversion : responseHeader (jsonResponse statusCode (versioned members).encode).complete
      "x-hvc-api-version" = some (bytes "v1") := by
    unfold responseHeader
    exact congrArg (Option.map Prod.snd) (hanswered.find_apiVersion (by decide))
  have hvalue : (versioned members).Readable :=
    readable_ofMembers hnames (List.forall_mem_cons.2 ⟨trivial, hreadable⟩)
  have hbody : JsonParser.parse (jsonResponse statusCode (versioned members).encode).complete.body
      = some (versioned members) := JsonParser.parse_encode hvalue
  have hapi : field (versioned members) (bytes "api_version") string? = some (bytes "v1") := by
    simp [versioned, field_ofMembers, string?]
  have herror : (jsonResponse statusCode (versioned members).encode).complete.transportError = [] :=
    rfl
  rw [responseRoot, if_neg (not_not.2 herror), if_neg (not_not.2 hversion), hbody]
  exact if_neg (not_not.2 hapi)

variable {α : Type} {read : JsonValue → ControlPlaneResult α}

/-- An error of the adapter is the error of the client. -/
theorem interpret_error {statusCode : Int} (hstatus : statusCode < 200 ∨ 300 ≤ statusCode)
    (code message : String) :
    interpret read (errorResponse statusCode (bytes code) message)
      = .error (serverError statusCode code message) := by
  have henvelope : (errorResponse statusCode (bytes code) message)
      = jsonResponse statusCode (versioned [("error", ofMembers
        [("code", .string (bytes code)), ("message", .string (bytes message))])]).encode := by
    rw [versioned, encode_ofMembers, List.map_cons, List.map_cons, List.map_nil, encode_ofMembers]
    rfl
  have hreadable : (ofMembers [("code", .string (bytes code)),
      ("message", .string (bytes message))]).Readable :=
    readable_ofMembers (by simp) (by simp [Readable])
  unfold interpret
  rw [henvelope, responseRoot_versioned (by simp) (by simpa using hreadable), if_pos hstatus]
  have herror : field (versioned [("error", ofMembers [("code", .string (bytes code)),
      ("message", .string (bytes message))])]) (bytes "error") object?
      = some (ofMembers [("code", .string (bytes code)),
        ("message", .string (bytes message))]) := by
    rw [versioned, field_ofMembers]
    rfl
  rw [herror]
  simp [field_ofMembers, string?, serverError, Except.bind]

/-- A value of the adapter is read as it was written. -/
theorem interpret_json {members : List (String × JsonValue)}
    (hnames : ("api_version" :: members.map Prod.fst).Nodup)
    (hreadable : ∀ member ∈ members, member.2.Readable) {statusCode : Int}
    (hlow : 200 ≤ statusCode) (hhigh : statusCode < 300) :
    interpret read (jsonResponse statusCode (versioned members).encode)
      = read (versioned members) := by
  unfold interpret
  rw [responseRoot_versioned hnames hreadable, if_neg (by omega)]
  rfl

/-! ## Values -/

/-- A time after the epoch that a `time_point` holds. -/
def AfterEpoch (value : TimePoint) : Prop := 0 ≤ value ∧ value < (UInt64.size / 2 : ℕ)

/-- The milliseconds of a time. -/
def milliseconds (value : TimePoint) : ℕ := value.toNat / 1000000

section Times

variable {value : TimePoint} (h : AfterEpoch value)

include h

theorem AfterEpoch.tdiv_eq : value.tdiv 1000000 = milliseconds value := by
  obtain ⟨hlow, -⟩ := h
  obtain ⟨count, rfl⟩ := Int.eq_ofNat_of_zero_le hlow
  rfl

theorem AfterEpoch.encode : unixMilliseconds value = (unsigned (milliseconds value)).encode := by
  unfold unixMilliseconds
  rw [h.tdiv_eq]
  rfl

theorem AfterEpoch.lt : milliseconds value < UInt64.size / 2 := by
  obtain ⟨hlow, hhigh⟩ := h
  have hcount : value.toNat < UInt64.size / 2 := (Int.toNat_lt hlow).2 hhigh
  exact (Nat.div_le_self _ _).trans_lt hcount

theorem AfterEpoch.readable : (unsigned (milliseconds value)).Readable :=
  h.lt.trans_le (Nat.div_le_self _ _)

theorem AfterEpoch.timePoint_eq :
    timePoint (milliseconds value) = some (wholeMilliseconds value) := by
  have hlt := h.lt
  unfold timePoint wholeMilliseconds
  rw [if_neg (by omega), h.tdiv_eq]

end Times

theorem make_value {tag : IdTag} (id : StrongId tag) :
    (StrongId.make id.value : Except InvalidArgument (StrongId tag)) = .ok id := by
  unfold StrongId.make
  rw [dif_pos id.nonempty]

theorem parseScope_scopeName (scope : VoiceScope) : parseScope (scopeName scope) = some scope := by
  cases scope <;> simp [parseScope, scopeName, bytes_injective.eq_iff]

theorem interpret_session {session : AuthenticatedSession} {deviceId : DeviceId}
    (hdevice : session.deviceId = deviceId) (hexpires : AfterEpoch session.expiresAt) :
    interpret (readSession deviceId) (sessionResponse session)
      = .ok
        { sessionId := session.sessionId
          playerId := session.playerId
          deviceId
          expiresAt := wholeMilliseconds session.expiresAt } := by
  have hwritten : sessionResponse session = jsonResponse 201 (versioned
      [("session_id", .string session.sessionId.value),
        ("player_id", .string session.playerId.value),
        ("device_id", .string session.deviceId.value),
        ("expires_at_unix_ms", .unsigned (milliseconds session.expiresAt))]).encode := by
    rw [sessionResponse, versioned, encode_ofMembers, hexpires.encode]
    rfl
  have hreadable := hexpires.readable
  rw [hwritten, interpret_json (by simp) (by simpa [Readable] using hreadable) (by omega)
    (by omega)]
  unfold readSession
  simp [versioned, field_ofMembers, string?, unsigned?, hexpires.timePoint_eq, hdevice, make_value]

theorem readRoleIds_written (roles : List RoleId) :
    readRoleIds (roles.map fun role => .string role.value) = .ok roles := by
  unfold readRoleIds
  induction roles with
  | nil => rfl
  | cons role roles ih =>
    rw [List.map_cons, List.mapM_cons, ih]
    simp [string?, make_value, Except.mapError]
    rfl

section Membership

variable (snapshot : MembershipSnapshot) (membership : VoiceMembership)

def membershipMembers : List (String × JsonValue) :=
  [("membership_version", .unsigned snapshot.version),
    ("hierarchy_id", .string snapshot.hierarchy.id.value),
    ("player_id", .string membership.playerId.value),
    ("group_id", .string membership.groupId.value),
    ("specialization_id", .string membership.specializationId.value),
    ("team_id", .string membership.teamId.value),
    ("role_ids", .array (membership.roleIds.map fun role => .string role.value)),
    ("connected", .boolean membership.connected),
    ("can_receive_voice", .boolean membership.canReceiveVoice),
    ("transmit_muted", .boolean membership.transmitMuted)]

theorem encode_membershipMembers : (versioned (membershipMembers snapshot membership)).encode
    = jsonObject
      [("api_version", jsonText "v1"),
        ("membership_version", decimal snapshot.version),
        ("hierarchy_id", Network.escapeJson snapshot.hierarchy.id.value),
        ("player_id", Network.escapeJson membership.playerId.value),
        ("group_id", Network.escapeJson membership.groupId.value),
        ("specialization_id", Network.escapeJson membership.specializationId.value),
        ("team_id", Network.escapeJson membership.teamId.value),
        ("role_ids",
          jsonArray (membership.roleIds.map fun role => Network.escapeJson role.value)),
        ("connected", jsonBoolean membership.connected),
        ("can_receive_voice", jsonBoolean membership.canReceiveVoice),
        ("transmit_muted", jsonBoolean membership.transmitMuted)] := by
  rw [versioned, encode_ofMembers, membershipMembers]
  simp only [List.map_cons, List.map_nil, encode_array, List.map_map]
  rfl

theorem interpret_membership (session : ControlPlaneSession)
    (hversion : snapshot.version < UInt64.size) :
    interpret (readMembership session)
        (jsonResponse 200 (versioned (membershipMembers snapshot membership)).encode)
      = membershipView session snapshot membership := by
  have hroles : ReadableElements (membership.roleIds.map fun role => .string role.value) :=
    readableElements_iff.2 (List.forall_mem_map.2 fun _ _ => trivial)
  have hpositive : snapshot.version ≠ 0 := Nat.ne_of_gt snapshot.version_pos
  rw [interpret_json (by simp [membershipMembers])
    (by simp [membershipMembers, hroles, Readable, hversion]) (by omega) (by omega)]
  unfold readMembership membershipView
  simp [membershipMembers, versioned, field_ofMembers, string?, unsigned?, array?, boolean?,
    hpositive, readRoleIds_written, make_value, StrongId.value_injective.eq_iff]

end Membership

section Grants

variable {serverUrl : Bytes} {claims : VoiceGrantClaims} {grants : List IssuedVoiceRoomGrant}

def grantValue (grant : IssuedVoiceRoomGrant) : JsonValue :=
  ofMembers
    [("scope", .string (scopeName grant.scope)), ("room_name", .string grant.roomName),
      ("access_token", .string grant.accessToken)]

theorem encode_grantValue (grant : IssuedVoiceRoomGrant) : (grantValue grant).encode = jsonObject
    [("scope", Network.escapeJson (scopeName grant.scope)),
      ("room_name", Network.escapeJson grant.roomName),
      ("access_token", Network.escapeJson grant.accessToken)] := by
  rw [grantValue, encode_ofMembers]
  rfl

theorem readGrant_grantValue (seen : List VoiceRoomGrant) (grant : IssuedVoiceRoomGrant) :
    readGrant serverUrl seen (grantValue grant) = takeGrant serverUrl seen grant := by
  unfold readGrant takeGrant
  simp [grantValue, field_ofMembers, string?, parseScope_scopeName]

theorem interpret_grants (hurl : serverUrl ≠ []) (hgrants : grants ≠ [])
    (hversion : claims.membershipVersion < UInt64.size) (hexpires : AfterEpoch claims.expiresAt) :
    interpret readVoiceGrants (jsonResponse 201 (jsonObject
        [("api_version", jsonText "v1"),
          ("server_url", Network.escapeJson serverUrl),
          ("membership_version", decimal claims.membershipVersion),
          ("expires_at_unix_ms", unixMilliseconds claims.expiresAt),
          ("grants", jsonArray (grants.map fun grant => jsonObject
            [("scope", Network.escapeJson (scopeName grant.scope)),
              ("room_name", Network.escapeJson grant.roomName),
              ("access_token", Network.escapeJson grant.accessToken)]))]))
      = takeGrants serverUrl claims grants := by
  have hwritten := encode_ofMembers
    [("api_version", .string (bytes "v1")),
      ("server_url", .string serverUrl),
      ("membership_version", .unsigned claims.membershipVersion),
      ("expires_at_unix_ms", .unsigned (milliseconds claims.expiresAt)),
      ("grants", .array (grants.map grantValue))]
  simp only [List.map_cons, List.map_nil, encode_array, List.map_map, Function.comp_def,
    encode_grantValue] at hwritten
  simp only [encode] at hwritten
  have hreadable : ReadableElements (grants.map grantValue) :=
    readableElements_iff.2 (List.forall_mem_map.2 fun _ _ =>
      readable_ofMembers (by simp) (by simp [Readable]))
  have htime := hexpires.readable
  have htext : unixMilliseconds claims.expiresAt = decimal (milliseconds claims.expiresAt) :=
    hexpires.encode
  unfold jsonText
  rw [htext, ← hwritten]
  show interpret _ (jsonResponse 201 (versioned _).encode) = _
  rw [interpret_json (by simp) (by simpa [Readable, hversion, hreadable] using htime) (by omega)
    (by omega)]
  unfold readVoiceGrants takeGrants
  simp [versioned, field_ofMembers, string?, unsigned?, array?, hexpires.timePoint_eq, hurl,
    hgrants, List.foldlM_map, readGrant_grantValue]

end Grants

theorem interpret_started {clientId : ClientTransmissionId} {scope : VoiceScope}
    {membershipVersion : ℕ} {transmission : ActiveTransmission}
    (hversion : transmission.authorization.membershipVersion < UInt64.size)
    (hrecipients : transmission.authorization.recipients.length < UInt64.size) :
    interpret (readStarted clientId scope membershipVersion) (jsonResponse 201 (jsonObject
        [("api_version", jsonText "v1"),
          ("transmission_id",
            Network.escapeJson transmission.authorization.transmissionId.value),
          ("client_transmission_id",
            Network.escapeJson transmission.authorization.clientTransmissionId.value),
          ("scope", Network.escapeJson (scopeName transmission.authorization.scope)),
          ("membership_version", decimal transmission.authorization.membershipVersion),
          ("recipient_count", decimal transmission.authorization.recipients.length)]))
      = takeStarted clientId scope membershipVersion transmission := by
  have hwritten := encode_ofMembers
    [("api_version", .string (bytes "v1")),
      ("transmission_id", .string transmission.authorization.transmissionId.value),
      ("client_transmission_id", .string transmission.authorization.clientTransmissionId.value),
      ("scope", .string (scopeName transmission.authorization.scope)),
      ("membership_version", .unsigned transmission.authorization.membershipVersion),
      ("recipient_count", .unsigned transmission.authorization.recipients.length)]
  simp only [List.map_cons, List.map_nil, encode] at hwritten
  have hcount : ¬UInt64.size ≤ transmission.authorization.recipients.length :=
    Nat.not_le.2 hrecipients
  unfold jsonText
  rw [← hwritten]
  show interpret _ (jsonResponse 201 (versioned _).encode) = _
  rw [interpret_json (by simp) (by simp [Readable, hversion, hrecipients]) (by omega) (by omega)]
  unfold readStarted takeStarted
  by_cases hclient : transmission.authorization.clientTransmissionId = clientId <;>
    simp [versioned, field_ofMembers, string?, unsigned?, parseScope_scopeName, make_value, hcount,
      startAnswer, StrongId.value_injective.eq_iff, hclient]

theorem interpret_ended (transmissionId : TransmissionId) (stopReason : String) :
    interpret (readEnded transmissionId) (stoppedResponse transmissionId.value stopReason)
      = .ok ⟨transmissionId, bytes stopReason⟩ := by
  have hwritten : stoppedResponse transmissionId.value stopReason = jsonResponse 200 (versioned
      [("transmission_id", .string transmissionId.value), ("status", .string (bytes "ended")),
        ("stop_reason", .string (bytes stopReason))]).encode := by
    rw [versioned, encode_ofMembers]
    rfl
  rw [hwritten, interpret_json (by simp) (by simp [Readable]) (by omega) (by omega)]
  unfold readEnded
  simp [versioned, field_ofMembers, string?]

/-! ## The body of a start -/

section Body

/-- A scalar is read in front of what cannot belong to it. -/
structure Reads (text : Bytes) (scalar : JsonScalar) (rest : Bytes) : Prop where
  solid : Network.skipWhitespace (text ++ rest) = text ++ rest
  parsed : parseScalar (text ++ rest) = some (scalar, rest)

variable {name literal text rest : Bytes} {scalar : JsonScalar} {object : JsonObject} {fuel : ℕ}

theorem escapeJson_quote {value : Bytes} (h : Client.escapeJson value = .ok literal) :
    ∃ tail, literal = 0x22 :: tail := by
  unfold Client.escapeJson at h
  rcases hvalue : value.mapM Client.escapeCharacter with _ | written
  · rw [hvalue] at h
    cases h
  · rw [hvalue] at h
    exact ⟨_, (Except.ok.inj h).symm⟩

theorem reads_escapeJson {value : Bytes} (h : Client.escapeJson value = .ok literal) :
    Reads literal (.string value) rest := by
  have hparse := Network.parseJsonString_escapeJson h rest
  obtain ⟨tail, rfl⟩ := escapeJson_quote h
  refine ⟨rfl, ?_⟩
  have hquote : (0x22 :: (tail ++ rest)).head? = some 0x22 := rfl
  unfold parseScalar
  rw [List.cons_append] at hparse ⊢
  rw [if_pos hquote, hparse]
  rfl

theorem reads_decimal {value : ℕ} (hvalue : value < UInt64.size)
    (hrest : JsonParser.Closed rest) : Reads (decimal value) (.unsigned value) rest := by
  have htake := JsonParser.takeWhile_decimal_append value hrest
  have hdrop : (decimal value ++ rest).dropWhile isDigit = rest :=
    (Prod.mk.inj (Encoding.readDecimal_decimal value hrest)).2
  have hunsigned : parseJsonUnsigned (decimal value ++ rest) = some (value, rest) := by
    unfold parseJsonUnsigned
    rw [htake, hdrop, JsonParser.fromChars_decimal hvalue]
    rfl
  obtain ⟨digit, digits, hdigits, hdigit⟩ := JsonParser.decimal_cons value
  rw [hdigits, List.cons_append] at hunsigned
  have hne : ∀ character, isDigit character = false → digit ≠ character := fun _ =>
    JsonParser.ne_of_isDigit hdigit
  have htrue : (bytes "true").isPrefixOf (digit :: (digits ++ rest)) = false :=
    JsonParser.isPrefixOf_of_isDigit hdigit (show isDigit 0x74 = false by decide) (bytes "rue") _
  have hfalse : (bytes "false").isPrefixOf (digit :: (digits ++ rest)) = false :=
    JsonParser.isPrefixOf_of_isDigit hdigit (show isDigit 0x66 = false by decide) (bytes "alse") _
  have hquote : ¬(digit :: (digits ++ rest)).head? = some 0x22 := fun h =>
    hne 0x22 (by decide) (Option.some.inj h)
  rw [hdigits]
  constructor
  · simp [Network.skipWhitespace, hne 0x20 (by decide), hne 0x09 (by decide), hne 0x0d (by decide),
      hne 0x0a (by decide)]
  · unfold parseScalar
    rw [List.cons_append, if_neg hquote, htrue, hfalse, if_neg Bool.false_ne_true,
      if_neg Bool.false_ne_true, hunsigned]
    rfl

theorem parseMembers_comma (hname : Client.escapeJson name = .ok literal)
    (hscalar : Reads text scalar (0x2c :: rest)) (hfresh : object.contains name = false)
    (hrest : Network.skipWhitespace rest = rest) :
    parseMembers (fuel + 1) object (literal ++ 0x3a :: (text ++ 0x2c :: rest))
      = parseMembers fuel (object.insert name scalar) rest := by
  have hcolon : Network.skipWhitespace (0x3a :: (text ++ 0x2c :: rest))
      = 0x3a :: (text ++ 0x2c :: rest) := rfl
  have hcomma : Network.skipWhitespace (0x2c :: rest) = 0x2c :: rest := rfl
  rw [parseMembers_succ (parseJsonString_eq_some.1 (Network.parseJsonString_escapeJson hname _))
    hcolon (hscalar.solid.symm ▸ hscalar.parsed), hfresh, hcomma]
  simp [hrest]

theorem parseMembers_close (hname : Client.escapeJson name = .ok literal)
    (hscalar : Reads text scalar [0x7d]) (hfresh : object.contains name = false) :
    parseMembers (fuel + 1) object (literal ++ 0x3a :: (text ++ [0x7d]))
      = some (object.insert name scalar) := by
  have hcolon : Network.skipWhitespace (0x3a :: (text ++ [0x7d])) = 0x3a :: (text ++ [0x7d]) := rfl
  have hclose : Network.skipWhitespace [0x7d] = [0x7d] := rfl
  rw [parseMembers_succ (parseJsonString_eq_some.1 (Network.parseJsonString_escapeJson hname _))
    hcolon (hscalar.solid.symm ▸ hscalar.parsed), hfresh, hclose]
  rfl

/-- The object that the adapter reads. -/
def startObject (clientId : ClientTransmissionId) (scope : VoiceScope) (membershipVersion : ℕ) :
    JsonObject :=
  (((∅ : JsonObject).insert (bytes "client_transmission_id") (.string clientId.value)).insert
    (bytes "scope") (.string (scopeName scope))).insert (bytes "membership_version")
    (.unsigned membershipVersion)

theorem escapeJson_scopeName (scope : VoiceScope) :
    ∃ literal, Client.escapeJson (scopeName scope) = .ok literal := by
  cases scope <;> exact ⟨_, rfl⟩

/-- The adapter reads the body that the client writes. -/
theorem parseFlatJsonObject_startBody {clientId : ClientTransmissionId} {scope : VoiceScope}
    {membershipVersion : ℕ} (hversion : membershipVersion < UInt64.size) {body : Bytes}
    (h : startBody clientId scope membershipVersion = .ok body) :
    parseFlatJsonObject body = some (startObject clientId scope membershipVersion) := by
  obtain ⟨id, hid⟩ : ∃ id, Client.escapeJson clientId.value = .ok id := by
    unfold startBody at h
    rcases hid : Client.escapeJson clientId.value with error | id
    · rw [hid] at h
      cases h
    · exact ⟨id, rfl⟩
  obtain ⟨scopeText, hscope⟩ := escapeJson_scopeName scope
  unfold startBody at h
  rw [hid, hscope] at h
  obtain rfl := Except.ok.inj h
  have hidName : Client.escapeJson (bytes "client_transmission_id")
      = .ok (bytes "\"client_transmission_id\"") := by rfl
  have hscopeName : Client.escapeJson (bytes "scope") = .ok (bytes "\"scope\"") := by rfl
  have hversionName : Client.escapeJson (bytes "membership_version")
      = .ok (bytes "\"membership_version\"") := by rfl
  have hbody : bytes "\x7b\"client_transmission_id\":" ++ id ++ bytes ",\"scope\":" ++ scopeText
      ++ bytes ",\"membership_version\":" ++ decimal membershipVersion ++ bytes "\x7d"
      = 0x7b :: (bytes "\"client_transmission_id\"" ++ 0x3a :: (id ++ 0x2c :: (bytes "\"scope\""
        ++ 0x3a :: (scopeText ++ 0x2c :: (bytes "\"membership_version\"" ++ 0x3a ::
          (decimal membershipVersion ++ [0x7d])))))) := by
    have hfirst : bytes "\x7b\"client_transmission_id\":"
        = 0x7b :: (bytes "\"client_transmission_id\"" ++ [0x3a]) := rfl
    have hsecond : bytes ",\"scope\":" = 0x2c :: (bytes "\"scope\"" ++ [0x3a]) := rfl
    have hthird : bytes ",\"membership_version\":"
        = 0x2c :: (bytes "\"membership_version\"" ++ [0x3a]) := rfl
    have hlast : bytes "\x7d" = [0x7d] := rfl
    simp [hfirst, hsecond, hthird, hlast]
  -- three members need three rounds
  obtain ⟨fuel, hfuel⟩ : ∃ fuel, (bytes "\"client_transmission_id\"" ++ 0x3a :: (id ++ 0x2c ::
      (bytes "\"scope\"" ++ 0x3a :: (scopeText ++ 0x2c :: (bytes "\"membership_version\"" ++ 0x3a ::
        (decimal membershipVersion ++ [0x7d])))))).length = fuel + 3 := by
    refine Nat.exists_eq_add_of_le' ?_
    simp only [List.length_append, List.length_cons]
    omega
  have hclosed : JsonParser.Closed [0x7d] := rfl
  have hopen : ∀ rest, parseFlatJsonObject (0x7b :: (bytes "\"client_transmission_id\"" ++ rest))
      = parseMembers (bytes "\"client_transmission_id\"" ++ rest).length ∅
        (bytes "\"client_transmission_id\"" ++ rest) := fun _ => rfl
  have hscopeNew : ((∅ : JsonObject).insert (bytes "client_transmission_id")
      (.string clientId.value)).contains (bytes "scope") = false := by
    simp [bytes_injective.eq_iff]
  have hversionNew : (((∅ : JsonObject).insert (bytes "client_transmission_id")
      (.string clientId.value)).insert (bytes "scope") (.string (scopeName scope))).contains
      (bytes "membership_version") = false := by
    simp [bytes_injective.eq_iff]
  show parseFlatJsonObject (bytes _ ++ id ++ bytes _ ++ scopeText ++ bytes _
    ++ decimal membershipVersion ++ bytes _) = _
  rw [hbody, hopen, hfuel, parseMembers_comma hidName (reads_escapeJson hid) (by simp) rfl,
    parseMembers_comma hscopeName (reads_escapeJson hscope) hscopeNew rfl,
    parseMembers_close hversionName (reads_decimal hversion hclosed) hversionNew]
  rfl

theorem startObject_fields (clientId : ClientTransmissionId) (scope : VoiceScope)
    (membershipVersion : ℕ) :
    hasOnlyFields (startObject clientId scope membershipVersion)
        [bytes "client_transmission_id", bytes "scope", bytes "membership_version"] = true
      ∧ stringField (startObject clientId scope membershipVersion)
        (bytes "client_transmission_id") = some clientId.value
      ∧ stringField (startObject clientId scope membershipVersion) (bytes "scope")
        = some (scopeName scope)
      ∧ unsignedField (startObject clientId scope membershipVersion) (bytes "membership_version")
        = some membershipVersion := by
  refine ⟨List.all_eq_true.2 fun key hkey => ?_, ?_, ?_, ?_⟩
  · have hmem : key ∈ startObject clientId scope membershipVersion :=
      Std.ExtTreeMap.mem_of_mem_keys hkey
    simp only [startObject, Std.ExtTreeMap.mem_insert, Std.LawfulEqOrd.compare_eq_iff_eq,
      Std.ExtTreeMap.not_mem_empty, or_false] at hmem
    rcases hmem with rfl | rfl | rfl <;> simp
  · simp only [stringField, startObject, Std.ExtTreeMap.getElem?_insert,
      Std.LawfulEqOrd.compare_eq_iff_eq, bytes_injective.eq_iff]
    rfl
  · simp only [stringField, startObject, Std.ExtTreeMap.getElem?_insert,
      Std.LawfulEqOrd.compare_eq_iff_eq, bytes_injective.eq_iff]
    rfl
  · simp [unsignedField, startObject]

end Body

/-! ## Headers -/

section Request

variable {request : HttpRequest} {c : ControlPlaneClient} {correlationId : CorrelationId}

theorem authorizationValue_scheme {scheme : String} {value : Bytes}
    (h : request.header "authorization" = bytes scheme ++ value) (hvalue : value ≠ []) :
    authorizationValue request scheme = some value := by
  have hstart : (bytes scheme).isPrefixOf (bytes scheme ++ value) = true :=
    List.isPrefixOf_iff_prefix.2 (List.prefix_append _ _)
  have hlonger : (bytes scheme ++ value).length ≠ (bytes scheme).length := by
    have hpos := List.length_pos_of_ne_nil hvalue
    rw [List.length_append]
    omega
  unfold authorizationValue
  simp only [h]
  rw [if_pos ⟨hstart, hlonger⟩, List.drop_left]

/-- What the adapter finds of a client in the headers. -/
structure Identified (request : HttpRequest) (c : ControlPlaneClient)
    (correlationId : CorrelationId) (authorization : Bytes) : Prop where
  authorization : request.header "authorization" = authorization
  device : request.header "x-hvc-device-id" = c.deviceId.value
  correlation : request.header "x-correlation-id" = correlationId.value

theorem header_of_getElem? {name : String} {value : Bytes}
    (hname : asciiLower (bytes name) = bytes name)
    (h : request.headers[bytes name]? = some value) : request.header name = value := by
  unfold HttpRequest.header
  rw [hname, h]
  rfl

/-- A header that the client has set arrives. -/
theorem Carried.header {sent : ClientHttpRequest} (h : Carried (handedOver sent) request)
    {name : String} {value : Bytes} (hname : asciiLower (bytes name) = bytes name)
    (hother : name ≠ "content-type") (hsent : sent.headers[bytes name]? = some value) :
    request.header name = value := by
  refine header_of_getElem? hname (h.headers _ _ ?_)
  unfold handedOver
  dsimp only
  split_ifs
  · exact hsent
  · rw [Std.ExtTreeMap.getElem?_insert, if_neg, hsent]
    rw [Std.LawfulEqOrd.compare_eq_iff_eq, bytes_injective.eq_iff]
    exact hother.symm

theorem identified_session {session : ControlPlaneSession} {method target body : Bytes}
    (h : Carried (handedOver ⟨method, target, c.sessionHeaders correlationId session ∅, body⟩)
      request) :
    Identified request c correlationId (bytes "Session " ++ session.sessionId.value) := by
  constructor
  · refine h.header (by decide) (by decide) ?_
    simp only [sessionHeaders, Std.ExtTreeMap.getElem?_insertIfNew, Std.ExtTreeMap.mem_insertIfNew,
      Std.LawfulEqOrd.compare_eq_iff_eq, bytes_injective.eq_iff]
    simp
  · refine h.header (by decide) (by decide) ?_
    simp only [sessionHeaders, Std.ExtTreeMap.getElem?_insertIfNew, Std.ExtTreeMap.mem_insertIfNew,
      Std.LawfulEqOrd.compare_eq_iff_eq, bytes_injective.eq_iff]
    simp
  · refine h.header (by decide) (by decide) ?_
    simp only [sessionHeaders, Std.ExtTreeMap.getElem?_insertIfNew, Std.ExtTreeMap.mem_insertIfNew,
      Std.LawfulEqOrd.compare_eq_iff_eq, bytes_injective.eq_iff]
    simp

theorem identified_signIn {externalCredential : Bytes}
    (h : Carried (handedOver (c.signIn correlationId externalCredential)) request) :
    Identified request c correlationId (bytes "Bearer " ++ externalCredential) := by
  constructor <;>
    refine h.header (by decide) (by decide) ?_ <;>
    simp only [ControlPlaneClient.signIn, Std.ExtTreeMap.getElem?_insert,
      Std.LawfulEqOrd.compare_eq_iff_eq, bytes_injective.eq_iff] <;> rfl

end Request

/-! ## Texts that can be sent -/

section Sending

/-- Text of visible ASCII characters that is not too long. -/
def Plain (text : Bytes) : Prop :=
  text.length ≤ 2000 ∧ ∀ character ∈ text, isVisible character = true

instance (text : Bytes) : Decidable (Plain text) := inferInstanceAs (Decidable (_ ∧ _))

/-- Text that is not escaped in a URL, and is not too long. -/
def Unreserved (text : Bytes) : Prop :=
  text.length ≤ 2000 ∧ ∀ character ∈ text, isUnreserved character = true

/-- A method of visible characters, and an absolute path in which nothing is escaped. -/
structure PlainLine (method target : Bytes) : Prop where
  method_ne : method ≠ []
  methodVisible : method.all isVisible = true
  methodLength : method.length ≤ 64
  absolute : target.head? = some 0x2f
  targetPlain : (target.all fun character => isUnreserved character || character == 0x2f) = true
  targetLength : target.length ≤ 2048

/-- A path may go on with a text that is not escaped. -/
theorem PlainLine.append {method target text : Bytes} (h : PlainLine method target)
    (htext : Unreserved text) (hlength : target.length ≤ 48) :
    PlainLine method (target ++ text) := by
  obtain ⟨htextLength, hunreserved⟩ := htext
  refine ⟨h.method_ne, h.methodVisible, h.methodLength, ?_, ?_, ?_⟩
  · rw [List.head?_append, h.absolute, Option.some_or]
  · rw [List.all_append, h.targetPlain, Bool.true_and, List.all_eq_true]
    intro character hcharacter
    rw [hunreserved character hcharacter, Bool.true_or]
  · rw [List.length_append]
    omega

theorem utf8EncodeChar_ofUInt8 {character : UInt8} (h : character ≤ 0x7f) :
    String.utf8EncodeChar (Char.ofUInt8 character) = [character] := by
  have hval : (Char.ofUInt8 character).val = character.toUInt32 := rfl
  have hle : (Char.ofUInt8 character).val.toNat ≤ 0x7f := by
    rw [hval, UInt8.toNat_toUInt32]
    exact UInt8.le_iff_toNat_le.1 h
  rw [String.utf8EncodeChar, if_pos hle]
  simp [hval]

theorem wide_ascii {text : Bytes} (hlength : text.length ≤ 2147483647)
    (hascii : ∀ character ∈ text, character ≤ 0x7f) : wide text = .ok () := by
  have hvalid : text.toByteArray.IsValidUTF8 := by
    refine ⟨text.map Char.ofUInt8, ?_⟩
    have hencoded : (text.map Char.ofUInt8).flatMap String.utf8EncodeChar = text := by
      rw [List.flatMap_map, List.flatMap_def, List.map_congr_left fun character hcharacter =>
        utf8EncodeChar_ofUInt8 (hascii character hcharacter), ← List.flatMap_def]
      exact List.flatMap_singleton' text
    rw [List.utf8Encode, hencoded]
  unfold wide
  rw [if_neg (by omega : ¬2147483647 < text.length), if_pos hvalid]
  exact ite_self _

theorem le_of_isVisible {character : UInt8} (h : isVisible character = true) :
    0x21 ≤ character ∧ character ≤ 0x7e := by
  simpa [isVisible] using h

theorem le_of_isUnreserved {character : UInt8} (h : isUnreserved character = true) :
    character ≤ 0x7e := by
  have hranges : ((0x61 ≤ character ∧ character ≤ 0x7a) ∨ (0x41 ≤ character ∧ character ≤ 0x5a)
      ∨ (0x30 ≤ character ∧ character ≤ 0x39)) ∨ character = 0x2d ∨ character = 0x2e
      ∨ character = 0x5f ∨ character = 0x7e := by
    simpa [isUnreserved, or_assoc] using h
  rcases hranges with (h | h | h) | rfl | rfl | rfl | rfl
  · exact UInt8.le_trans h.2 (by decide)
  · exact UInt8.le_trans h.2 (by decide)
  · exact UInt8.le_trans h.2 (by decide)
  all_goals decide

theorem le_of_printable {character : UInt8} (h : isVisible character = true ∨ character = 0x20) :
    0x20 ≤ character ∧ character ≤ 0x7f := by
  rcases h with h | rfl
  · obtain ⟨hlow, hhigh⟩ := le_of_isVisible h
    exact ⟨UInt8.le_trans (by decide) hlow, UInt8.le_trans hhigh (by decide)⟩
  · decide

theorem hasLineBreak_printable {text : Bytes}
    (h : ∀ character ∈ text, isVisible character = true ∨ character = 0x20) :
    hasLineBreak text = false := by
  refine List.any_eq_false.2 fun character hcharacter => ?_
  have hlow := (le_of_printable (h character hcharacter)).1
  have hreturn : character ≠ 0x0d := by
    rintro rfl
    exact absurd hlow (by decide)
  have hfeed : character ≠ 0x0a := by
    rintro rfl
    exact absurd hlow (by decide)
  simp [hreturn, hfeed]

theorem PlainHeader.checked {name value : Bytes} (h : PlainHeader name value) :
    checkHeader (name, value) = .ok () := by
  have hname : ∀ character ∈ name, isVisible character = true ∨ character = 0x20 :=
    fun character hcharacter => .inl (h.nameVisible character hcharacter).1
  have hlength : (name ++ bytes ": " ++ value).length ≤ 2147483647 := by
    have hcolon : (bytes ": ").length = 2 := rfl
    have hnameLength := h.nameLength
    have hvalueLength := h.valueLength
    simp only [List.length_append, hcolon]
    omega
  unfold checkHeader
  rw [hasLineBreak_printable hname, hasLineBreak_printable h.valuePrintable]
  refine wide_ascii hlength fun character hcharacter => ?_
  rcases List.mem_append.1 hcharacter with hcharacter | hcharacter
  · rcases List.mem_append.1 hcharacter with hcharacter | hcharacter
    · exact (le_of_printable (hname character hcharacter)).2
    · have hcolon : ((bytes ": ").all fun character => character ≤ 0x7f) = true := by decide
      exact of_decide_eq_true (List.all_eq_true.1 hcolon character hcharacter)
  · exact (le_of_printable (h.valuePrintable character hcharacter)).2

theorem forM_ok {α ε : Type} {f : α → Except ε Unit} : ∀ {xs : List α}, (∀ x ∈ xs, f x = .ok ()) →
    xs.forM f = .ok ()
  | [], _ => rfl
  | x :: xs, h => by
    have ih : xs.forM f = .ok () := forM_ok fun y hy => h y (List.mem_cons_of_mem _ hy)
    show (f x >>= fun _ => xs.forM f) = _
    rw [h x List.mem_cons_self, ih]
    rfl

/-- The transport refuses no plain request. -/
theorem PlainRequest.checked {request : ClientHttpRequest} (h : PlainRequest request) :
    checkRequest request = .ok () := by
  have hmethod : wide request.method = .ok () :=
    wide_ascii (h.methodLength.trans (by decide)) fun character hcharacter =>
      (le_of_printable (.inl (h.method.2 character hcharacter))).2
  have htarget : wide request.target = .ok () := by
    refine wide_ascii (h.targetLength.trans (by decide)) fun character hcharacter => ?_
    rcases h.target character hcharacter with hunreserved | rfl
    · exact UInt8.le_trans (le_of_isUnreserved hunreserved) (by decide)
    · decide
  have hheaders : request.headers.toList.forM checkHeader = .ok () :=
    forM_ok fun header hheader =>
      (h.headers _ _ (Std.ExtTreeMap.mem_toList_iff_getElem?_eq_some.1 hheader)).checked
  have habsolute : ¬(request.method = [] ∨ request.target = []
      ∨ request.target.head? ≠ some 0x2f) := by
    have hhead := h.absolute
    rintro (hnil | hnil | hother)
    · exact h.method.1 hnil
    · rw [hnil] at hhead
      cases hhead
    · exact hother hhead
  have hbody := h.body
  rw [checkRequest, if_neg habsolute, if_neg (by omega), hmethod, htarget]
  exact hheaders

/-- A text behind the name of a scheme makes a header. -/
theorem Plain.header {name : String} (scheme : String) {text : Bytes} (h : Plain text)
    (hne : text ≠ [])
    (hname : (bytes name).length ≤ 64
      ∧ ((bytes name).all fun character => isVisible character && character != 0x3a) = true)
    (hscheme : (bytes scheme).length ≤ 48 ∧ (bytes scheme).head? ≠ some 0x20
      ∧ ((bytes scheme).all fun character => isVisible character || character == 0x20) = true) :
    PlainHeader (bytes name) (bytes scheme ++ text) where
  nameLength := hname.1
  nameVisible := by
    simpa only [List.all_eq_true, Bool.and_eq_true, bne_iff_ne] using hname.2
  valueLength := by
    have hlength := h.1
    have hshort := hscheme.1
    rw [List.length_append]
    omega
  valuePrintable character hcharacter := by
    rcases List.mem_append.1 hcharacter with hcharacter | hcharacter
    · simpa using List.all_eq_true.1 hscheme.2.2 character hcharacter
    · exact .inl (h.2 character hcharacter)
  trimmed := by
    have hblank : (0x20 : UInt8) ∉ text := fun hmem => absurd (h.2 _ hmem) (by decide)
    constructor
    · intro hhead
      rw [List.head?_append] at hhead
      rcases hfirst : (bytes scheme).head? with _ | first
      · rw [hfirst, Option.none_or] at hhead
        exact hblank (List.mem_of_head? hhead)
      · rw [hfirst, Option.some_or] at hhead
        exact hscheme.2.1 (hfirst.trans hhead)
    · intro hlast
      rw [List.getLast?_append, List.getLast?_eq_some_getLast hne, Option.some_or] at hlast
      exact hblank (Option.some.inj hlast ▸ List.getLast_mem hne)

section Headers

variable {headers : Headers} {name value : Bytes}
  (h : ∀ name value : Bytes, headers[name]? = some value → PlainHeader name value)

include h

theorem plain_insert (hnew : PlainHeader name value) (other text : Bytes)
    (htext : (headers.insert name value)[other]? = some text) : PlainHeader other text := by
  rw [Std.ExtTreeMap.getElem?_insert] at htext
  split_ifs at htext with hsame
  · obtain rfl := Option.some.inj htext
    obtain rfl := Std.LawfulEqOrd.compare_eq_iff_eq.1 hsame
    exact hnew
  · exact h other text htext

theorem plain_insertIfNew (hnew : PlainHeader name value) (other text : Bytes)
    (htext : (headers.insertIfNew name value)[other]? = some text) : PlainHeader other text := by
  rw [Std.ExtTreeMap.getElem?_insertIfNew] at htext
  split_ifs at htext with hsame
  · obtain rfl := Option.some.inj htext
    obtain rfl := Std.LawfulEqOrd.compare_eq_iff_eq.1 hsame.1
    exact hnew
  · exact h other text htext

end Headers

/-- The texts of a call can be sent as they are, and its numbers are of the types of the source. -/
def Call.Fits : Call → Prop
  | .createSession externalCredential => Plain externalCredential
  | .startTransmission clientId scope membershipVersion => membershipVersion < UInt64.size
    ∧ ∀ body, startBody clientId scope membershipVersion = .ok body → body.length ≤ 65536
  | .endTransmission transmissionId => Unreserved transmissionId.value
  | _ => True

/-- A call whose texts, and those of the client that makes it, can be sent as they are. -/
structure Sendable (c : ControlPlaneClient) (correlationId : CorrelationId) (call : Call) :
    Prop where
  device : Plain c.deviceId.value
  correlation : Plain correlationId.value
  session : ∀ session, c.session = some session → Plain session.sessionId.value
  fits : call.Fits

variable {c : ControlPlaneClient} {correlationId : CorrelationId} {call : Call}

theorem Sendable.device_header (h : Sendable c correlationId call) :
    PlainHeader (bytes "x-hvc-device-id") c.deviceId.value :=
  h.device.header "" c.deviceId.nonempty (by decide) (by decide)

theorem Sendable.correlation_header (h : Sendable c correlationId call) :
    PlainHeader (bytes "x-correlation-id") correlationId.value :=
  h.correlation.header "" correlationId.nonempty (by decide)
    (by decide)

theorem PlainLine.request {sent : ClientHttpRequest} (h : PlainLine sent.method sent.target)
    (hheaders : ∀ name value, sent.headers[name]? = some value → PlainHeader name value)
    (hcount : sent.headers.size ≤ 3) (hbody : sent.body.length ≤ 65536) : PlainRequest sent where
  method := ⟨h.method_ne, List.all_eq_true.1 h.methodVisible⟩
  methodLength := h.methodLength
  absolute := h.absolute
  target := by simpa only [List.all_eq_true, Bool.or_eq_true, beq_iff_eq] using h.targetPlain
  targetLength := h.targetLength
  headers := hheaders
  headerCount := hcount
  body := hbody

theorem Sendable.plain_signIn {externalCredential : Bytes}
    (h : Sendable c correlationId (.createSession externalCredential))
    (hcredential : externalCredential ≠ []) :
    PlainRequest (c.signIn correlationId externalCredential) := by
  have hline : PlainLine (bytes "POST") (bytes "/api/v1/sessions") := by
    constructor <;> decide
  have hfits : Plain externalCredential := h.fits
  refine PlainLine.request hline (plain_insert (plain_insert (plain_insert
    (fun name value hvalue => ?_) ?_) h.correlation_header) h.device_header) ?_ (Nat.zero_le _)
  · simp at hvalue
  · exact hfits.header "Bearer " hcredential (by decide) (by decide)
  · exact Std.ExtTreeMap.size_insert_le.trans
      (Nat.succ_le_succ (Std.ExtTreeMap.size_insert_le.trans
        (Nat.succ_le_succ Std.ExtTreeMap.size_insert_le)))

theorem Sendable.plain_session (h : Sendable c correlationId call) {session : ControlPlaneSession}
    (hsession : c.session = some session) {method target : Bytes}
    (hline : PlainLine method target) (body : Bytes) (hbody : body.length ≤ 65536) :
    PlainRequest ⟨method, target, c.sessionHeaders correlationId session ∅, body⟩ := by
  have hid : Plain session.sessionId.value := h.session session hsession
  refine PlainLine.request hline (plain_insertIfNew (plain_insertIfNew (plain_insertIfNew
    (fun name value hvalue => ?_) ?_) h.correlation_header) h.device_header) ?_ hbody
  · simp at hvalue
  · exact hid.header "Session " session.sessionId.nonempty (by decide)
      (by decide)
  · exact Std.ExtTreeMap.size_insertIfNew_le.trans
      (Nat.succ_le_succ (Std.ExtTreeMap.size_insertIfNew_le.trans
        (Nat.succ_le_succ Std.ExtTreeMap.size_insertIfNew_le)))

end Sending

/-! ## Services -/

section Services

variable {σ : Type} {adapter : ControlPlaneHttpAdapter σ} {request : HttpRequest}
  {c : ControlPlaneClient} {correlationId : CorrelationId} {now : TimePoint} {s : σ}

/-- The numbers and the times that the services hand out are of the types of the source. -/
structure InRange (adapter : ControlPlaneHttpAdapter σ) : Prop where
  authenticated : ∀ command now, Yields (adapter.authenticate command now) fun r =>
    ∀ session, r = .ok session → AfterEpoch session.expiresAt
  memberships : ∀ playerId, Yields (adapter.memberships.currentFor playerId) fun r =>
    ∀ context, r = some context → context.snapshot.version < UInt64.size
  started : ∀ command now, Yields (adapter.transmissions.start command now) fun r =>
    ∀ transmission, r = .ok transmission →
      transmission.authorization.membershipVersion < UInt64.size
        ∧ transmission.authorization.recipients.length < UInt64.size
  derived : ∀ derive, adapter.deriveVoiceGrants = some derive → ∀ sessionId deviceId now,
    Yields (derive sessionId deviceId now) fun r =>
      ∀ claims, r = .ok claims →
        claims.membershipVersion < UInt64.size ∧ AfterEpoch claims.expiresAt

theorem identifier_value {tag : IdTag} (id : StrongId tag) :
    (identifier id.value : Service σ (StrongId tag)) = pure id := by
  unfold identifier
  rw [make_value]

theorem renders_ok {β : Type} {read : JsonValue → ControlPlaneResult β} {response : HttpResponse}
    {result : ControlPlaneResult β} (h : interpret read response = result) :
    Renders (ε := ServiceException) (interpret read) (pure response) (pure result) s :=
  h ▸ .pure _

theorem renders_error {β : Type} {read : JsonValue → ControlPlaneResult β} {statusCode : Int}
    (hstatus : statusCode < 200 ∨ 300 ≤ statusCode) (code message : String) :
    Renders (ε := ServiceException) (interpret read)
      (pure (errorResponse statusCode (bytes code) message))
      (pure (.error (serverError statusCode code message))) s :=
  renders_ok (interpret_error hstatus _ _)

theorem interpret_authenticationError (e : SessionAuthenticationError) :
    interpret read (authenticationError e) = .error (authenticationRefusal e) := by
  cases e <;> exact interpret_error (by omega) _ _

theorem interpret_voiceGrantError (e : VoiceGrantError) :
    interpret read (voiceGrantError e) = .error (voiceGrantRefusal e) := by
  cases e <;> exact interpret_error (by omega) _ _

theorem createSession_renders (h : InRange adapter) {externalCredential : Bytes}
    (hcredential : externalCredential ≠ [])
    (hrequest : Identified request c correlationId (bytes "Bearer " ++ externalCredential))
    (hbody : request.body = []) :
    Renders (interpret (readSession c.deviceId)) (adapter.createSession request now)
      (Direct.createSession adapter c correlationId now externalCredential) s := by
  have hscheme := authorizationValue_scheme hrequest.authorization hcredential
  unfold ControlPlaneHttpAdapter.createSession
  simp only [hscheme, hrequest.device, hrequest.correlation, c.deviceId.nonempty,
    correlationId.nonempty, hbody, or_self, ne_eq, not_true_eq_false, if_false, identifier_value,
    pure_bind]
  refine .bind fun r s' hrun => ?_
  rcases r with error | session
  · exact renders_ok (interpret_authenticationError error)
  · have hexpires := h.authenticated _ _ _ _ _ hrun session rfl
    dsimp only
    split_ifs with hvalid
    · exact renders_error (by omega) _ _
    · rw [not_or, not_not] at hvalid
      exact .bind fun _ _ _ => renders_ok (interpret_session hvalid.1 hexpires)

/-- What the adapter answers in a session. -/
theorem answer_renders {session : ControlPlaneSession} {β : Type}
    {read : JsonValue → ControlPlaneResult β}
    {serve : RequestSession → Service σ (ControlPlaneResult β)}
    (hrequest : Identified request c correlationId (bytes "Session " ++ session.sessionId.value))
    (htarget : request.target ≠ bytes "/api/v1/health" ∧ request.target ≠ bytes "/api/v1/sessions")
    (hserve : ∀ stored s', Renders (interpret read)
      (adapter.sessionRoutes request now ⟨stored, c.deviceId, correlationId⟩)
      (serve ⟨stored, c.deviceId, correlationId⟩) s') :
    Renders (interpret read) (adapter.answer request now)
      (Direct.inSession adapter c correlationId now session serve) s := by
  have hscheme := authorizationValue_scheme hrequest.authorization session.sessionId.nonempty
  have hhealth : ¬(request.target = bytes "/api/v1/health" ∧ request.method = bytes "GET") :=
    fun h => htarget.1 h.1
  have hsessions : ¬(request.target = bytes "/api/v1/sessions" ∧ request.method = bytes "POST") :=
    fun h => htarget.2 h.1
  unfold ControlPlaneHttpAdapter.answer authenticateRequestSession
  simp only [if_neg hhealth, if_neg hsessions, hscheme, hrequest.device, hrequest.correlation,
    c.deviceId.nonempty, correlationId.nonempty, or_self, if_false, identifier_value, pure_bind,
    bind_assoc]
  refine .bind fun found s' _ => ?_
  rcases found with _ | stored
  · exact renders_error (by omega) _ _
  · dsimp only
    split_ifs
    · exact renders_error (by omega) _ _
    · exact renders_error (by omega) _ _
    · exact hserve stored s'

theorem membership_renders (h : InRange adapter) (session : ControlPlaneSession)
    (authenticated : RequestSession) :
    Renders (interpret (readMembership session))
      (membershipResponse authenticated.session adapter.memberships)
      (Direct.membership adapter session authenticated) s := by
  refine .bind fun r s' hrun => ?_
  rcases r with _ | context
  · exact renders_error (by omega) _ _
  · have hversion := h.memberships _ _ _ _ hrun context rfl
    dsimp only
    rcases context.snapshot.find authenticated.session.playerId with _ | membership
    · exact renders_error (by omega) _ _
    · refine renders_ok ?_
      rw [← encode_membershipMembers]
      exact interpret_membership _ _ session hversion

theorem voiceGrants_renders (h : InRange adapter) (authenticated : RequestSession)
    (hbody : request.body = []) :
    Renders (interpret readVoiceGrants) (adapter.issueGrants request now authenticated)
      (Direct.voiceGrants adapter now authenticated) s := by
  have hempty : ¬request.body ≠ [] := not_not.2 hbody
  unfold ControlPlaneHttpAdapter.issueGrants Direct.voiceGrants
  rw [if_neg hempty]
  rcases hderive : adapter.deriveVoiceGrants with _ | derive
  · exact renders_error (by omega) _ _
  rcases adapter.issueVoiceGrants with _ | issue
  · exact renders_error (by omega) _ _
  rcases adapter.voiceServerUrl with _ | ⟨first, rest⟩
  · exact renders_error (by omega) _ _
  · refine .bind fun r s' hrun => ?_
    rcases r with error | claims
    · exact renders_ok (interpret_voiceGrantError error)
    · obtain ⟨hversion, hexpires⟩ := h.derived _ hderive _ _ _ _ _ _ hrun claims rfl
      refine .bind fun grants s'' _ => ?_
      split_ifs with hgrants
      · exact renders_error (by omega) _ _
      · exact renders_ok (interpret_grants (List.cons_ne_nil _ _) hgrants hversion hexpires)

theorem startTransmission_renders (h : InRange adapter) (clientId : ClientTransmissionId)
    (scope : VoiceScope) (membershipVersion : ℕ) (authenticated : RequestSession) :
    Renders (interpret (readStarted clientId scope membershipVersion))
      (startTransmissionResponse authenticated (startObject clientId scope membershipVersion)
        adapter.transmissions now)
      (Direct.startTransmission adapter now clientId scope membershipVersion authenticated) s := by
  obtain ⟨honly, hclient, hscope, hversion⟩ := startObject_fields clientId scope membershipVersion
  unfold startTransmissionResponse
  simp only [honly, hclient, hscope, hversion, Option.bind_some, parseScope_scopeName,
    identifier_value, pure_bind, Bool.not_true, Bool.false_eq_true, if_false]
  refine .bind fun r s' hrun => ?_
  rcases r with error | transmission
  · refine renders_ok ?_
    cases error <;> exact interpret_error (by decide) _ _
  · obtain ⟨hversion, hrecipients⟩ := h.started _ _ _ _ _ hrun transmission rfl
    exact renders_ok (interpret_started hversion hrecipients)

theorem endTransmission_renders (transmissionId : TransmissionId)
    (authenticated : RequestSession) :
    Renders (interpret (readEnded transmissionId))
      (endTransmissionResponse authenticated transmissionId.value adapter.transmissions now)
      (Direct.endTransmission adapter now transmissionId authenticated) s := by
  unfold endTransmissionResponse Direct.endTransmission
  rw [identifier_value, pure_bind]
  refine .bind fun r s' _ => ?_
  rcases r with error | ended
  · refine renders_ok ?_
    cases error <;> exact interpret_error (by decide) _ _
  · exact renders_ok (interpret_ended _ _)

/-- The adapter turns exceptions into answers, and the client turns these into errors. -/
theorem handle_finish {β : Type} {read : JsonValue → ControlPlaneResult β}
    {d : Service σ (ControlPlaneResult β)}
    (h : Renders (interpret read) (adapter.answer request now) d s) :
    (interpret read (adapter.handle request now s).1, (adapter.handle request now s).2)
      = Direct.finish d s := by
  unfold Renders at h
  unfold Direct.finish ControlPlaneHttpAdapter.handle
  rw [h]
  rcases (adapter.answer request now).run.run s with ⟨(_ | _) | response, s'⟩
  · exact congrArg (·, s') (interpret_error (by omega) _ _)
  · exact congrArg (·, s') (interpret_error (by omega) _ _)
  · rfl

end Services

/-! ## Calls -/

section Calls

variable {σ : Type} {adapter : ControlPlaneHttpAdapter σ} {winHttp : WinHttp}
  {c : ControlPlaneClient} {correlationId : CorrelationId} {now : TimePoint} {s : σ}

/-- The transport hands over what the client reads. -/
theorem responseRoot_send {β : Type} {read : JsonValue → ControlPlaneResult β}
    {request : ClientHttpRequest}
    (hbody : (respond adapter winHttp now s request).1.body.length ≤ maximumResponseSize) :
    (responseRoot (send _ (winHttp.delivers (respond adapter winHttp now s request).1))).bind read
      = interpret read (respond adapter winHttp now s request).1 := by
  have hanswered : Answered (respond adapter winHttp now s request).1 :=
    adapter.handle_answered _ _ _
  unfold interpret
  rw [(dropped_send hanswered hbody _).responseRoot]

/-- A plain request gets to the server. -/
theorem PlainRequest.exchange_eq {request : ClientHttpRequest} (h : PlainRequest request) :
    exchange adapter winHttp now s request
      = (send _ (winHttp.delivers (respond adapter winHttp now s request).1),
        (respond adapter winHttp now s request).2) := by
  unfold VoxTree.exchange
  rw [h.checked]

variable (winHttp) in
/-- The requests of a session, with what the adapter makes of them. -/
theorem sendSessionRequest_finish {session : ControlPlaneSession}
    (hsession : c.session = some session) {β : Type} {read : JsonValue → ControlPlaneResult β}
    {serve : RequestSession → Service σ (ControlPlaneResult β)} {method target body : Bytes}
    (hplain : PlainRequest ⟨method, target, c.sessionHeaders correlationId session ∅, body⟩)
    (hbody : (respond adapter winHttp now s ⟨method, target,
      c.sessionHeaders correlationId session ∅, body⟩).1.body.length ≤ maximumResponseSize)
    (htarget : target ≠ bytes "/api/v1/health" ∧ target ≠ bytes "/api/v1/sessions")
    (hserve : ∀ headers stored s', Renders (interpret read)
      (adapter.sessionRoutes ⟨method, target, headers, body⟩ now
        ⟨stored, c.deviceId, correlationId⟩) (serve ⟨stored, c.deviceId, correlationId⟩) s') :
    ((responseRoot (c.sendSessionRequest
        (fun request => .ok (exchange adapter winHttp now s request).1) correlationId method target
        body)).bind read,
      (exchange adapter winHttp now s
        ⟨method, target, c.sessionHeaders correlationId session ∅, body⟩).2)
      = Direct.finish (Direct.inSession adapter c correlationId now session serve) s := by
  have hcarried := winHttp.carries _ hplain
  have harrived : winHttp.arrives (handedOver ⟨method, target,
      c.sessionHeaders correlationId session ∅, body⟩) = ⟨method, target, (winHttp.arrives
        (handedOver ⟨method, target, c.sessionHeaders correlationId session ∅, body⟩)).headers,
        body⟩ := by
    obtain ⟨hmethod, htarget, -, hbody⟩ := hcarried
    exact congrArg₂ (fun f body => f body) (congrArg₂ (fun method target body =>
      HttpRequest.mk method target _ body) hmethod htarget) hbody
  have hsend : c.sendSessionRequest
      (fun request => .ok (exchange adapter winHttp now s request).1) correlationId method target
      body = (exchange adapter winHttp now s ⟨method, target,
        c.sessionHeaders correlationId session ∅, body⟩).1 := by
    unfold sendSessionRequest
    rw [hsession]
  rw [hsend, hplain.exchange_eq, responseRoot_send hbody]
  refine handle_finish ?_
  have hidentified := identified_session hcarried
  rw [harrived] at hidentified ⊢
  exact answer_renders hidentified htarget (hserve _)

/-! ### Routes -/

theorem append_ne_of_isPrefixOf_eq_false {path other : Bytes} (h : path.isPrefixOf other = false)
    (rest : Bytes) : path ++ rest ≠ other := by
  rintro rfl
  rw [List.isPrefixOf_iff_prefix.2 (List.prefix_append _ _)] at h
  cases h

/-- A path that does not go on as another one does is not continued by it. -/
theorem isPrefixOf_append_eq_false {path other : Bytes} (hlength : path.length ≤ other.length)
    (h : path.isPrefixOf other = false) (rest : Bytes) :
    other.isPrefixOf (path ++ rest) = false := by
  by_contra hcontinued
  rw [Bool.not_eq_false, List.isPrefixOf_iff_prefix] at hcontinued
  have hbefore := List.prefix_of_prefix_length_le (List.prefix_append path rest) hcontinued hlength
  rw [List.isPrefixOf_iff_prefix.2 hbefore] at h
  cases h

section Routes

variable (headers : Headers) (authenticated : RequestSession)

theorem sessionRoutes_membership :
    adapter.sessionRoutes ⟨bytes "GET", bytes "/api/v1/membership", headers, []⟩ now authenticated
      = membershipResponse authenticated.session adapter.memberships := by
  have hpresence : presencePath.isPrefixOf (bytes "/api/v1/membership") = false := by
    decide
  have hadmin : ControlPlaneHttpAdapter.membershipAdminPath.isPrefixOf (bytes "/api/v1/membership")
      = false := by decide
  simp [ControlPlaneHttpAdapter.sessionRoutes, hpresence, hadmin, bytes_injective.eq_iff]

theorem sessionRoutes_voiceGrants :
    adapter.sessionRoutes ⟨bytes "POST", bytes "/api/v1/voice-grants", headers, []⟩ now
        authenticated
      = adapter.issueGrants ⟨bytes "POST", bytes "/api/v1/voice-grants", headers, []⟩ now
        authenticated := by
  have hpresence : presencePath.isPrefixOf (bytes "/api/v1/voice-grants") = false := by
    decide
  have hadmin : ControlPlaneHttpAdapter.membershipAdminPath.isPrefixOf
      (bytes "/api/v1/voice-grants") = false := by decide
  simp [ControlPlaneHttpAdapter.sessionRoutes, hpresence, hadmin, bytes_injective.eq_iff]

theorem sessionRoutes_start {body : Bytes} {object : JsonObject}
    (hbody : parseFlatJsonObject body = some object) :
    adapter.sessionRoutes ⟨bytes "POST", bytes "/api/v1/transmissions", headers, body⟩ now
        authenticated
      = startTransmissionResponse authenticated object adapter.transmissions now := by
  have hpresence : presencePath.isPrefixOf (bytes "/api/v1/transmissions") = false := by
    decide
  have hadmin : ControlPlaneHttpAdapter.membershipAdminPath.isPrefixOf
      (bytes "/api/v1/transmissions") = false := by decide
  simp [ControlPlaneHttpAdapter.sessionRoutes, hpresence, hadmin, bytes_injective.eq_iff, hbody]

/-- The end of a transmission, whose identifier is what the path goes on with. -/
theorem sessionRoutes_end {transmissionId : Bytes} (hid : transmissionId ≠ []) :
    adapter.sessionRoutes
        ⟨bytes "DELETE", bytes "/api/v1/transmissions/" ++ transmissionId, headers, []⟩ now
        authenticated
      = if transmissionId.contains 0x2f then pure routeNotFound
        else endTransmissionResponse authenticated transmissionId adapter.transmissions now := by
  have hother : ∀ target, (bytes "/api/v1/transmissions/").isPrefixOf (bytes target) = false →
      bytes "/api/v1/transmissions/" ++ transmissionId ≠ bytes target := fun _ hbefore =>
    append_ne_of_isPrefixOf_eq_false hbefore _
  have hpresence : presencePath.isPrefixOf (bytes "/api/v1/transmissions/" ++ transmissionId)
      = false := isPrefixOf_append_eq_false (by decide) (by decide) _
  have hadmin : ControlPlaneHttpAdapter.membershipAdminPath.isPrefixOf
      (bytes "/api/v1/transmissions/" ++ transmissionId) = false :=
    isPrefixOf_append_eq_false (by decide) (by decide) _
  have hpath : ControlPlaneHttpAdapter.transmissionPath.isPrefixOf
      (bytes "/api/v1/transmissions/" ++ transmissionId) = true :=
    List.isPrefixOf_iff_prefix.2 (List.prefix_append _ _)
  have hdrop : (bytes "/api/v1/transmissions/" ++ transmissionId).drop
      ControlPlaneHttpAdapter.transmissionPath.length = transmissionId := List.drop_left
  unfold ControlPlaneHttpAdapter.sessionRoutes
  simp only [hother "/api/v1/directory" (by decide), hpresence, hadmin,
    hother "/api/v1/membership" (by decide),
    hother "/api/v1/voice-grants" (by decide),
    hother "/api/v1/transmissions" (by decide), hpath, hdrop, false_and, if_false, if_true,
    Bool.false_eq_true]
  unfold ControlPlaneHttpAdapter.transmissionRoute
  cases hslash : transmissionId.contains 0x2f <;>
    simp [bytes_injective.eq_iff, hid]

end Routes

/-! ### Whole calls -/

/-- The response to a call is not longer than the transport takes. -/
def Receivable (adapter : ControlPlaneHttpAdapter σ) (winHttp : WinHttp) (c : ControlPlaneClient)
    (correlationId : CorrelationId) (now : TimePoint) (s : σ) (call : Call) : Prop :=
  ∀ request, c.sent correlationId call = some request →
    (respond adapter winHttp now s request).1.body.length ≤ maximumResponseSize

variable (winHttp) in
theorem createSession_finish (h : InRange adapter) {externalCredential : Bytes}
    (hsend : Sendable c correlationId (.createSession externalCredential))
    (hcredential : externalCredential ≠ [])
    (hbody : (respond adapter winHttp now s
      (c.signIn correlationId externalCredential)).1.body.length ≤ maximumResponseSize) :
    ((responseRoot (exchange adapter winHttp now s
        (c.signIn correlationId externalCredential)).1).bind (readSession c.deviceId),
      (exchange adapter winHttp now s (c.signIn correlationId externalCredential)).2)
      = Direct.finish (Direct.createSession adapter c correlationId now externalCredential) s := by
  have hplain := hsend.plain_signIn hcredential
  have hcarried := winHttp.carries _ hplain
  have hroute : (winHttp.arrives (handedOver (c.signIn correlationId externalCredential))).target
      = bytes "/api/v1/sessions" := hcarried.target
  have hmethod : (winHttp.arrives (handedOver (c.signIn correlationId externalCredential))).method
      = bytes "POST" := hcarried.method
  have hhealth : bytes "/api/v1/sessions" ≠ bytes "/api/v1/health" :=
    bytes_injective.ne (by decide)
  rw [hplain.exchange_eq, responseRoot_send hbody]
  refine handle_finish ?_
  rw [ControlPlaneHttpAdapter.answer, if_neg (fun h => hhealth (hroute.symm.trans h.1)),
    if_pos ⟨hroute, hmethod⟩]
  exact createSession_renders h hcredential (identified_signIn hcarried) hcarried.body

theorem callOverWire_createSession (h : InRange adapter) (externalCredential : Bytes)
    (hsend : Sendable c correlationId (.createSession externalCredential))
    (hreceivable : Receivable adapter winHttp c correlationId now s
      (.createSession externalCredential)) :
    callOverWire adapter winHttp c correlationId now s (.createSession externalCredential)
      = callDirectly adapter c correlationId now s (.createSession externalCredential) := by
  by_cases hcredential : externalCredential = []
  · simp [callOverWire, callDirectly, Call.operation, ControlPlaneClient.call,
      ControlPlaneClient.createSession, ControlPlaneClient.sent, hcredential]
  · have hsent : c.sent correlationId (.createSession externalCredential)
        = some (c.signIn correlationId externalCredential) := if_neg hcredential
    have hfinish := createSession_finish winHttp h hsend hcredential (hreceivable _ hsent)
    simp only [callOverWire, callDirectly, hsent, if_neg hcredential, ← hfinish, Option.elim_some]
    refine congrArg (·, _) ?_
    simp only [Call.operation, ControlPlaneClient.call, ControlPlaneClient.createSession,
      if_neg hcredential, ControlPlaneClient.signIn]
    split
    · rename_i error herror
      rw [herror]
    · rename_i created hcreated
      rw [hcreated]

/-- The request of a call in a session. -/
theorem request_some {session : ControlPlaneSession} (hsession : c.session = some session)
    (method target body : Bytes) :
    ControlPlaneClient.sent.request c correlationId method target body
      = some ⟨method, target, c.sessionHeaders correlationId session ∅, body⟩ := by
  simp [ControlPlaneClient.sent.request, hsession]

theorem callOverWire_membership (h : InRange adapter)
    (hsend : Sendable c correlationId .membership)
    (hreceivable : Receivable adapter winHttp c correlationId now s .membership) :
    callOverWire adapter winHttp c correlationId now s .membership
      = callDirectly adapter c correlationId now s .membership := by
  rcases hsession : c.session with _ | session
  · simp [callOverWire, callDirectly, Call.operation, ControlPlaneClient.call,
      ControlPlaneClient.membership, ControlPlaneClient.sent, ControlPlaneClient.sent.request,
      Direct.withSession, hsession]
  · have hsent : c.sent correlationId .membership = some _ := request_some hsession _ _ _
    have hline : PlainLine (bytes "GET") (bytes "/api/v1/membership") := by
      constructor <;> decide
    have hplain := hsend.plain_session hsession hline [] (Nat.zero_le _)
    have hfinish := sendSessionRequest_finish winHttp hsession hplain (hreceivable _ hsent)
      (by simp [bytes_injective.eq_iff])
      (fun _ stored s' => (sessionRoutes_membership _ _).symm ▸ membership_renders h session _)
    simp only [callOverWire, callDirectly, hsent, Direct.withSession, hsession, Option.elim_some,
      ← hfinish, Call.operation, ControlPlaneClient.call, ControlPlaneClient.membership,
      Prod.map_apply, id]

theorem callOverWire_voiceGrants (h : InRange adapter)
    (hsend : Sendable c correlationId .voiceGrants)
    (hreceivable : Receivable adapter winHttp c correlationId now s .voiceGrants) :
    callOverWire adapter winHttp c correlationId now s .voiceGrants
      = callDirectly adapter c correlationId now s .voiceGrants := by
  rcases hsession : c.session with _ | session
  · simp [callOverWire, callDirectly, Call.operation, ControlPlaneClient.call,
      ControlPlaneClient.voiceGrants, ControlPlaneClient.sent, ControlPlaneClient.sent.request,
      Direct.withSession, hsession]
  · have hsent : c.sent correlationId .voiceGrants = some _ := request_some hsession _ _ _
    have hline : PlainLine (bytes "POST") (bytes "/api/v1/voice-grants") := by
      constructor <;> decide
    have hplain := hsend.plain_session hsession hline [] (Nat.zero_le _)
    have hfinish := sendSessionRequest_finish winHttp hsession hplain (hreceivable _ hsent)
      (by simp [bytes_injective.eq_iff])
      (fun _ stored s' => (sessionRoutes_voiceGrants _ _).symm ▸ voiceGrants_renders h _ rfl)
    simp [callOverWire, callDirectly, hsent, Direct.withSession, hsession, ← hfinish,
      Call.operation, ControlPlaneClient.call, ControlPlaneClient.voiceGrants]

theorem callOverWire_startTransmission (h : InRange adapter) (clientId : ClientTransmissionId)
    (scope : VoiceScope) {membershipVersion : ℕ}
    (hsend : Sendable c correlationId (.startTransmission clientId scope membershipVersion))
    (hreceivable : Receivable adapter winHttp c correlationId now s
      (.startTransmission clientId scope membershipVersion)) :
    callOverWire adapter winHttp c correlationId now s
        (.startTransmission clientId scope membershipVersion)
      = callDirectly adapter c correlationId now s
        (.startTransmission clientId scope membershipVersion) := by
  rcases hsession : c.session with _ | session
  · by_cases hzero : membershipVersion = 0 <;>
      rcases hbody : startBody clientId scope membershipVersion with exception | body <;>
      simp [callOverWire, callDirectly, Call.operation, ControlPlaneClient.call,
        ControlPlaneClient.startTransmission, ControlPlaneClient.sent,
        ControlPlaneClient.sent.request, hsession, hzero, hbody]
  · by_cases hzero : membershipVersion = 0
    · simp [callOverWire, callDirectly, Call.operation, ControlPlaneClient.call,
        ControlPlaneClient.startTransmission, ControlPlaneClient.sent, hsession, hzero]
    rcases hbody : startBody clientId scope membershipVersion with exception | body
    · simp [callOverWire, callDirectly, Call.operation, ControlPlaneClient.call,
        ControlPlaneClient.startTransmission, ControlPlaneClient.sent, hsession, hzero, hbody,
        Except.map]
    · obtain ⟨hversion, hlength⟩ := hsend.fits
      have hobject := parseFlatJsonObject_startBody hversion hbody
      have hline : PlainLine (bytes "POST") (bytes "/api/v1/transmissions") := by
        constructor <;> decide
      have hplain := hsend.plain_session hsession hline body (hlength body hbody)
      have hsent : c.sent correlationId (.startTransmission clientId scope membershipVersion)
          = some ⟨bytes "POST", bytes "/api/v1/transmissions",
            c.sessionHeaders correlationId session ∅, body⟩ := by
        simp only [ControlPlaneClient.sent, if_neg hzero, hbody]
        exact request_some hsession _ _ _
      have hfinish := sendSessionRequest_finish winHttp hsession hplain (hreceivable _ hsent)
        (by simp [bytes_injective.eq_iff])
        (fun _ stored s' => (sessionRoutes_start _ _ hobject).symm ▸
          startTransmission_renders h clientId scope membershipVersion _)
      simp [callOverWire, callDirectly, hsent, hsession, hzero, hbody, ← hfinish, Call.operation,
        ControlPlaneClient.call, ControlPlaneClient.startTransmission, Except.map]

theorem callOverWire_endTransmission (transmissionId : TransmissionId)
    (hsend : Sendable c correlationId (.endTransmission transmissionId))
    (hreceivable : Receivable adapter winHttp c correlationId now s
      (.endTransmission transmissionId)) :
    callOverWire adapter winHttp c correlationId now s (.endTransmission transmissionId)
      = callDirectly adapter c correlationId now s (.endTransmission transmissionId) := by
  rcases hsession : c.session with _ | session
  · simp [callOverWire, callDirectly, Call.operation, ControlPlaneClient.call,
      ControlPlaneClient.endTransmission, ControlPlaneClient.sent, ControlPlaneClient.sent.request,
      Direct.withSession, hsession]
  · have hsent : c.sent correlationId (.endTransmission transmissionId) = some _ :=
      request_some hsession _ _ _
    have htext : Unreserved transmissionId.value := hsend.fits
    have hslash : transmissionId.value.contains 0x2f = false := by
      rw [← Bool.not_eq_true, List.contains_iff_mem]
      exact fun hmem => absurd (htext.2 _ hmem) (by decide)
    have hline : PlainLine (bytes "DELETE") (bytes "/api/v1/transmissions/") := by
      constructor <;> decide
    have hplain := hsend.plain_session hsession
      (hline.append htext (by decide : (bytes "/api/v1/transmissions/").length ≤ 48)) []
      (Nat.zero_le _)
    have hserve : ∀ headers stored s', Renders (interpret (readEnded transmissionId))
        (adapter.sessionRoutes ⟨bytes "DELETE", bytes "/api/v1/transmissions/"
          ++ transmissionId.value, headers, []⟩ now ⟨stored, c.deviceId, correlationId⟩)
        (Direct.endTransmission adapter now transmissionId ⟨stored, c.deviceId, correlationId⟩)
        s' := by
      intro headers stored s'
      rw [sessionRoutes_end _ _ transmissionId.nonempty, hslash, if_neg Bool.false_ne_true]
      exact endTransmission_renders _ _
    have hfinish := sendSessionRequest_finish winHttp hsession hplain (hreceivable _ hsent)
      ⟨append_ne_of_isPrefixOf_eq_false (by decide) _,
        append_ne_of_isPrefixOf_eq_false (by decide) _⟩ hserve
    simp [callOverWire, callDirectly, hsent, Direct.withSession, hsession, ← hfinish,
      Call.operation, ControlPlaneClient.call, ControlPlaneClient.endTransmission]

/-- A call over the wire ends as a direct one and leaves the services in the same state. -/
theorem callOverWire_eq (h : InRange adapter) {call : Call}
    (hsend : Sendable c correlationId call)
    (hreceivable : Receivable adapter winHttp c correlationId now s call) :
    callOverWire adapter winHttp c correlationId now s call
      = callDirectly adapter c correlationId now s call := by
  cases call with
  | createSession externalCredential => exact callOverWire_createSession h _ hsend hreceivable
  | membership => exact callOverWire_membership h hsend hreceivable
  | voiceGrants => exact callOverWire_voiceGrants h hsend hreceivable
  | startTransmission clientId scope membershipVersion =>
    exact callOverWire_startTransmission h clientId scope hsend hreceivable
  | endTransmission transmissionId =>
    exact callOverWire_endTransmission transmissionId hsend hreceivable

end Calls

/-! ## Runs -/

section Runs

variable {σ κ : Type} [DecidableEq κ] {adapter : ControlPlaneHttpAdapter σ}
  {winHttp : WinHttp}

/-- The call of the turn can be sent, and its response can be received. -/
def Proper (adapter : ControlPlaneHttpAdapter σ) (winHttp : WinHttp) (s : Shared κ σ)
    (turn : Turn κ) : Prop :=
  Sendable (s.client turn.caller) turn.correlationId turn.call
    ∧ Receivable adapter winHttp (s.client turn.caller) turn.correlationId turn.now s.server
      turn.call

omit [DecidableEq κ] in
theorem receivable_of_all {c : ControlPlaneClient} {correlationId : CorrelationId} {now : TimePoint}
    {s : σ} {call : Call}
    (h : (c.sent correlationId call).all (fun request =>
      (respond adapter winHttp now s request).1.body.length ≤ maximumResponseSize) = true) :
    Receivable adapter winHttp c correlationId now s call := by
  intro request hrequest
  rw [hrequest] at h
  exact of_decide_eq_true h

theorem plain_of_all {c : ControlPlaneClient}
    (h : c.session.all (fun session => Plain session.sessionId.value) = true)
    (session : ControlPlaneSession) (hsession : c.session = some session) :
    Plain session.sessionId.value := by
  rw [hsession] at h
  exact of_decide_eq_true h

theorem play_eq (h : InRange adapter) {s : Shared κ σ} {turn : Turn κ}
    (hproper : Proper adapter winHttp s turn) :
    s.play (callOverWire adapter winHttp) turn = s.play (callDirectly adapter) turn := by
  unfold Shared.play
  simp only [callOverWire_eq h hproper.1 hproper.2]

/-- Clients that share a control plane over the wire get the results, keep the sessions and leave
the services as if they called the services directly. -/
theorem wire_refines_services (h : InRange adapter) {s s' : Shared κ σ} {turns : List (Turn κ)}
    (hruns : Runs (fun s turn => some (s.play (callOverWire adapter winHttp) turn))
      (Proper adapter winHttp) s turns s') :
    turns.foldl (Shared.play (callDirectly adapter)) s = s' := by
  induction hruns with
  | nil s => rfl
  | cons hproper hstep _ ih =>
    obtain rfl := Option.some.inj hstep
    rw [List.foldl_cons, ← play_eq h hproper]
    exact ih

end Runs

section Samples

/-- An adapter that knows `alice` by any credential and keeps her session. -/
def keepingAdapter : ControlPlaneHttpAdapter (Option AuthenticatedSession) where
  authenticate _ _ := pure (.ok Sample.authenticated)
  sessions :=
    { find := fun id => return (← get).filter fun session => session.sessionId = id
      upsert := fun session => set (some session) }
  memberships := ⟨fun _ => pure none⟩
  transmissions :=
    { start := fun _ _ => pure (.error .membershipUnavailable)
      «end» := fun _ _ => pure (.error .transmissionNotFound)
      interruptForModeration := fun _ _ => pure (.error .notAuthorized) }

theorem inRange_keepingAdapter : InRange keepingAdapter where
  authenticated _ _ := .pure fun _ h => by
    cases h
    exact ⟨by decide, by decide⟩
  memberships _ := .pure fun _ h => by cases h
  started _ _ := .pure fun _ h => by cases h
  derived _ h := by cases h

/-- `alice` signs in and asks for her membership. -/
def twoTurns : List (Turn Unit) :=
  [⟨(), .createSession (bytes "secret"), Sample.correlation, 0⟩,
    ⟨(), .membership, Sample.correlation, 0⟩]

def beforeSignIn : Shared Unit (Option AuthenticatedSession) where
  client _ := { deviceId := Sample.device }
  server := none

/-- Nothing happens to a request, and a response comes in one chunk. -/
def direct : WinHttp where
  arrives request := request
  carries _ _ := ⟨rfl, rfl, fun _ _ h => h, rfl⟩
  delivers := inOneChunk

theorem wire_refines_services_twoTurns :
    (twoTurns.foldl (Shared.play (callDirectly keepingAdapter)) beforeSignIn).server
      = some Sample.authenticated := by
  have hsend : Sendable (beforeSignIn.client ()) Sample.correlation
      (.createSession (bytes "secret")) :=
    ⟨by decide +kernel, by decide +kernel, plain_of_all rfl,
      (by decide +kernel : Plain (bytes "secret"))⟩
  have hrun : Runs (fun s turn => some (s.play (callOverWire keepingAdapter direct) turn))
      (Proper keepingAdapter direct) beforeSignIn twoTurns _ :=
    .cons ⟨hsend, receivable_of_all (by decide +kernel)⟩ rfl
      (.cons ⟨⟨by decide +kernel, by decide +kernel, plain_of_all (by decide +kernel), trivial⟩,
        receivable_of_all (by decide +kernel)⟩ rfl (.nil _))
  rw [wire_refines_services inRange_keepingAdapter hrun]
  decide +kernel

end Samples

end VoxTree

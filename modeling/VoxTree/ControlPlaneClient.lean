import VoxTree.ClientTypes
import VoxTree.ControlPlaneHttp
import VoxTree.JsonParser

/-!
# The control-plane client

`ControlPlaneClient`: the request of every operation and what it makes of the response. A response
is checked in full before anything of it is returned. The identifiers an operation takes from the
generator are arguments, and so is the transport's `send`, which may throw.
-/

namespace VoxTree

structure ClientHttpRequest where
  method : Bytes
  target : Bytes
  headers : Headers
  body : Bytes

structure ClientHttpResponse where
  statusCode : Int := 0
  headers : Headers := ∅
  body : Bytes := []
  transportError : Bytes := []

/-- `IClientHttpTransport::send`, or the text of what it throws. -/
abbrev Send := ClientHttpRequest → Except Bytes ClientHttpResponse

structure ControlPlaneSession where
  sessionId : SessionId
  playerId : PlayerId
  deviceId : DeviceId
  expiresAt : TimePoint
  deriving DecidableEq

namespace Client

inductive DirectoryNodeKind
  | group | specialization | team
  deriving DecidableEq

structure DirectoryNodeView where
  nodeId : Bytes
  kind : DirectoryNodeKind
  parentNodeId : Option Bytes
  displayName : Bytes
  sortIndex : ℕ
  deriving DecidableEq

structure PublicRoleView where
  roleId : Bytes
  displayName : Bytes
  deriving DecidableEq

structure DirectoryParticipantView where
  playerId : Bytes
  displayName : Bytes
  primaryTeamId : Bytes
  publicRoleIds : List Bytes
  deriving DecidableEq

structure DirectoryView where
  version : ℕ
  groupId : Bytes
  nodes : List DirectoryNodeView
  publicRoles : List PublicRoleView
  participants : List DirectoryParticipantView
  deriving DecidableEq

/-- `DirectoryFetch`: no snapshot where the known one is current. -/
abbrev DirectoryFetch := Option DirectoryView

structure DirectoryPresenceEntry where
  playerId : Bytes
  online : Bool
  deriving DecidableEq

structure DirectoryPresenceView where
  version : ℕ
  mode : DirectoryPresenceMode
  observedAt : TimePoint
  entries : List DirectoryPresenceEntry
  /-- In seconds. -/
  retryAfter : ℕ
  deriving DecidableEq

/-! ## Texts and errors -/

def parseDirectoryNodeKind (value : Bytes) : Option DirectoryNodeKind :=
  if value = bytes "group" then some .group
  else if value = bytes "specialization" then some .specialization
  else if value = bytes "team" then some .team
  else none

/-- The client escapes fewer characters than the adapter and throws at the others. -/
def escapeCharacter (character : UInt8) : Except InvalidArgument Bytes :=
  match character with
  | 0x22 => .ok (bytes "\\\"")
  | 0x5c => .ok (bytes "\\\\")
  | 0x08 => .ok (bytes "\\b")
  | 0x0c => .ok (bytes "\\f")
  | 0x0a => .ok (bytes "\\n")
  | 0x0d => .ok (bytes "\\r")
  | 0x09 => .ok (bytes "\\t")
  | _ =>
    if character < 0x20 then .error ⟨"JSON value contains an unsupported control character"⟩
    else .ok [character]

def escapeJson (value : Bytes) : Except InvalidArgument Bytes :=
  (value.mapM escapeCharacter).map fun characters => 0x22 :: characters.flatten ++ [0x22]

def invalidState (message : String) : ControlPlaneError :=
  ⟨.invalidState, 0, bytes "invalid_state", bytes message⟩

def invalidArgument (message : String) : ControlPlaneError :=
  ⟨.invalidArgument, 0, bytes "invalid_argument", bytes message⟩

def invalidResponse (message : String) : ControlPlaneError :=
  ⟨.invalidResponse, 0, bytes "invalid_response", bytes message⟩

/-! ## Responses -/

def asciiHeaderNameEquals (left right : Bytes) : Bool :=
  left.length = right.length
    && (left.zip right).all fun p => lowerAscii p.1 = lowerAscii p.2

def responseHeader (response : ClientHttpResponse) (name : String) : Option Bytes :=
  (response.headers.toList.find? fun header => asciiHeaderNameEquals header.1 (bytes name)).map
    Prod.snd

def responseRoot (response : ClientHttpResponse) : ControlPlaneResult JsonValue :=
  if response.transportError ≠ [] then
    .error ⟨.transport, 0, bytes "transport_error", response.transportError⟩
  else if responseHeader response "x-hvc-api-version" ≠ some (bytes "v1") then
    .error (invalidResponse "control-plane response has an unsupported protocol header")
  else
    match JsonParser.parse response.body with
    | none => .error (invalidResponse "control-plane response is not valid JSON")
    | some parsed =>
      if field parsed (bytes "api_version") JsonValue.string? ≠ some (bytes "v1") then
        .error (invalidResponse "control-plane response has an unsupported API version")
      else if response.statusCode < 200 ∨ 300 ≤ response.statusCode then
        let error := field parsed (bytes "error") JsonValue.object?
        match error.bind fun error => field error (bytes "code") JsonValue.string?,
          error.bind fun error => field error (bytes "message") JsonValue.string? with
        | some code, some message => .error ⟨.server, response.statusCode, code, message⟩
        | _, _ =>
          .error (invalidResponse "control-plane error response has no valid error envelope")
      else .ok parsed

/-- Milliseconds that a `std::int64_t` holds. -/
def timePoint (milliseconds : ℕ) : Option TimePoint :=
  if UInt64.size / 2 ≤ milliseconds then none else some (milliseconds * 1000000)

/-! ## Reading a response -/

/-- What `createSession` reads of a response. -/
def readSession (deviceId : DeviceId) (object : JsonValue) :
    ControlPlaneResult ControlPlaneSession :=
  match field object (bytes "session_id") JsonValue.string?,
    field object (bytes "player_id") JsonValue.string?,
    field object (bytes "device_id") JsonValue.string?,
    (field object (bytes "expires_at_unix_ms") JsonValue.unsigned?).bind timePoint with
  | some sessionId, some playerId, some device, some expiresAt =>
    if device ≠ deviceId.value then
      .error (invalidResponse "session response is incomplete or device-mismatched")
    else
      match StrongId.make sessionId, StrongId.make playerId with
      | .ok sessionId, .ok playerId => .ok { sessionId, playerId, deviceId, expiresAt }
      | _, _ => .error (invalidResponse "session response contains an invalid identifier")
  | _, _, _, _ => .error (invalidResponse "session response is incomplete or device-mismatched")

def readRoleIds (roles : List JsonValue) : ControlPlaneResult (List RoleId) :=
  roles.mapM fun role =>
    match role.string? with
    | none => .error (invalidResponse "membership role IDs must be strings")
    | some value =>
      (StrongId.make value).mapError fun _ =>
        invalidResponse "membership response contains an invalid identifier"

/-- What `membership` reads of a response. -/
def readMembership (session : ControlPlaneSession) (object : JsonValue) :
    ControlPlaneResult MembershipView :=
  match field object (bytes "membership_version") JsonValue.unsigned?,
    field object (bytes "hierarchy_id") JsonValue.string?,
    field object (bytes "player_id") JsonValue.string?,
    field object (bytes "group_id") JsonValue.string?,
    field object (bytes "specialization_id") JsonValue.string?,
    field object (bytes "team_id") JsonValue.string?,
    field object (bytes "role_ids") JsonValue.array?,
    field object (bytes "connected") JsonValue.boolean?,
    field object (bytes "can_receive_voice") JsonValue.boolean?,
    field object (bytes "transmit_muted") JsonValue.boolean? with
  | some version, some hierarchy, some player, some group, some specialization, some team,
    some roles, some connected, some canReceive, some transmitMuted =>
    if version = 0 ∨ player ≠ session.playerId.value then
      .error (invalidResponse "membership response is incomplete or session-mismatched")
    else
      match readRoleIds roles with
      | .error error => .error error
      | .ok roleIds =>
        match StrongId.make hierarchy, StrongId.make player, StrongId.make group,
          StrongId.make specialization, StrongId.make team with
        | .ok hierarchyId, .ok playerId, .ok groupId, .ok specializationId, .ok teamId =>
          .ok
            { version, hierarchyId, playerId, groupId, specializationId, teamId, roleIds, connected
              canReceiveVoice := canReceive
              transmitMuted }
        | _, _, _, _, _ =>
          .error (invalidResponse "membership response contains an invalid identifier")
  | _, _, _, _, _, _, _, _, _, _ =>
    .error (invalidResponse "membership response is incomplete or session-mismatched")

/-! ## Directory -/

abbrev NodeKinds := Std.ExtTreeMap Bytes DirectoryNodeKind

structure DirectoryFields where
  version : ℕ
  groupId : Bytes
  nodes : List JsonValue
  roles : List JsonValue
  participants : List JsonValue

def directoryFields (object : JsonValue) : ControlPlaneResult DirectoryFields :=
  match field object (bytes "directory_version") JsonValue.unsigned?,
    field object (bytes "group_id") JsonValue.string?,
    field object (bytes "nodes") JsonValue.array?,
    field object (bytes "public_roles") JsonValue.array?,
    field object (bytes "participants") JsonValue.array? with
  | some version, some groupId, some nodes, some roles, some participants =>
    if version = 0 ∨ groupId = [] ∨ 200 < participants.length then
      .error (invalidResponse "directory response is incomplete")
    else .ok { version, groupId, nodes, roles, participants }
  | _, _, _, _, _ => .error (invalidResponse "directory response is incomplete")

def entityTag (version : ℕ) : Bytes := bytes "\"directory-" ++ decimal version ++ [0x22]

def readParent (node : JsonValue) : ControlPlaneResult (Option Bytes) :=
  match field node (bytes "parent_node_id") JsonValue.string?,
    field node (bytes "parent_node_id") JsonValue.null? with
  | some parent, _ =>
    if parent = [] then .error (invalidResponse "directory node has an empty parent")
    else .ok (some parent)
  | none, some _ => .ok none
  | none, none => .error (invalidResponse "directory node has no valid parent field")

/-- One round of the loop over the nodes, with the nodes so far and their kinds. -/
def readNode (seen : List DirectoryNodeView × NodeKinds) (node : JsonValue) :
    ControlPlaneResult (List DirectoryNodeView × NodeKinds) :=
  match field node (bytes "node_id") JsonValue.string?,
    (field node (bytes "node_type") JsonValue.string?).bind parseDirectoryNodeKind,
    field node (bytes "display_name") JsonValue.string?,
    field node (bytes "sort_index") JsonValue.unsigned? with
  | some nodeId, some kind, some displayName, some sortIndex =>
    if nodeId = [] ∨ displayName = [] ∨ seen.2.contains nodeId then
      .error (invalidResponse "directory node is invalid or duplicated")
    else
      match readParent node with
      | .error error => .error error
      | .ok parentNodeId =>
        if (kind = .group) ≠ parentNodeId.isNone then
          .error (invalidResponse "directory node hierarchy level and parent disagree")
        else
          .ok (seen.1 ++ [{ nodeId, kind, parentNodeId, displayName, sortIndex }],
            seen.2.insert nodeId kind)
  | _, _, _, _ => .error (invalidResponse "directory node is invalid or duplicated")

def checkRoot (groupId : Bytes) (nodes : List DirectoryNodeView) (kinds : NodeKinds) :
    ControlPlaneResult Unit :=
  if kinds.size ≠ nodes.length ∨ kinds[groupId]? ≠ some .group
      ∨ (nodes.countP fun node => node.kind = .group) ≠ 1 then
    .error (invalidResponse "directory hierarchy has no unique Group root")
  else .ok ()

def checkParent (kinds : NodeKinds) (node : DirectoryNodeView) : ControlPlaneResult Unit :=
  match node.parentNodeId with
  | none => .ok ()
  | some parent =>
    let expected := if node.kind = .team then DirectoryNodeKind.specialization else .group
    if kinds[parent]? ≠ some expected then
      .error (invalidResponse "directory hierarchy contains an invalid parent")
    else .ok ()

/-- One round of the loop over the public roles. -/
def readPublicRole (seen : List PublicRoleView) (role : JsonValue) :
    ControlPlaneResult (List PublicRoleView) :=
  match field role (bytes "role_id") JsonValue.string?,
    field role (bytes "display_name") JsonValue.string? with
  | some roleId, some displayName =>
    if roleId = [] ∨ displayName = [] ∨ seen.any fun other => other.roleId = roleId then
      .error (invalidResponse "public directory role is invalid or duplicated")
    else .ok (seen ++ [{ roleId, displayName }])
  | _, _ => .error (invalidResponse "public directory role is invalid or duplicated")

/-- One round of the loop over the roles of a participant. -/
def readParticipantRole (roles : List PublicRoleView) (seen : List Bytes) (role : JsonValue) :
    ControlPlaneResult (List Bytes) :=
  match role.string? with
  | some roleId =>
    if (!roles.any fun known => known.roleId = roleId) ∨ roleId ∈ seen then
      .error (invalidResponse "directory participant has an invalid public role")
    else .ok (seen ++ [roleId])
  | none => .error (invalidResponse "directory participant has an invalid public role")

/-- One round of the loop over the participants. -/
def readParticipant (kinds : NodeKinds) (roles : List PublicRoleView)
    (seen : List DirectoryParticipantView) (participant : JsonValue) :
    ControlPlaneResult (List DirectoryParticipantView) :=
  match field participant (bytes "player_id") JsonValue.string?,
    field participant (bytes "display_name") JsonValue.string?,
    field participant (bytes "primary_team_id") JsonValue.string?,
    field participant (bytes "public_role_ids") JsonValue.array? with
  | some playerId, some displayName, some primaryTeamId, some participantRoles =>
    if playerId = [] ∨ displayName = [] ∨ kinds[primaryTeamId]? ≠ some .team
        ∨ seen.any fun other => other.playerId = playerId then
      .error (invalidResponse "directory participant is invalid or duplicated")
    else
      match participantRoles.foldlM (readParticipantRole roles) [] with
      | .error error => .error error
      | .ok publicRoleIds =>
        .ok (seen ++ [{ playerId, displayName, primaryTeamId, publicRoleIds }])
  | _, _, _, _ => .error (invalidResponse "directory participant is invalid or duplicated")

/-- What `directory` reads after it has checked the entity tag. -/
def readDirectoryView (fields : DirectoryFields) : ControlPlaneResult DirectoryView := do
  let (nodes, kinds) ← fields.nodes.foldlM readNode ([], ∅)
  checkRoot fields.groupId nodes kinds
  nodes.forM (checkParent kinds)
  let publicRoles ← fields.roles.foldlM readPublicRole []
  let participants ← fields.participants.foldlM (readParticipant kinds publicRoles) []
  pure { version := fields.version, groupId := fields.groupId, nodes, publicRoles, participants }

/-- Whether a 304 answers the request for what is newer than the known version. -/
def notModified (knownVersion : Option ℕ) (response : ClientHttpResponse) : Bool :=
  response.transportError = [] && response.body = []
    && responseHeader response "x-hvc-api-version" = some (bytes "v1")
    && match knownVersion with
      | none => false
      | some known => responseHeader response "etag" = some (entityTag known)

/-- What `directory` makes of a response. -/
def readDirectory (knownVersion : Option ℕ) (response : ClientHttpResponse) :
    ControlPlaneResult DirectoryFetch :=
  if response.statusCode = 304 then
    if notModified knownVersion response then .ok none
    else .error (invalidResponse "directory not-modified response is inconsistent")
  else
    match (responseRoot response).bind directoryFields with
    | .error error => .error error
    | .ok fields =>
      if responseHeader response "etag" ≠ some (entityTag fields.version) then
        .error (invalidResponse "directory response has an inconsistent ETag")
      else (readDirectoryView fields).map some

/-! ## Presence -/

structure PresenceFields where
  version : ℕ
  observedAt : TimePoint
  entries : List JsonValue

def expectedMode (afterVersion : Option ℕ) : DirectoryPresenceMode :=
  if afterVersion.isSome then .delta else .snapshot

def presenceFields (afterVersion : Option ℕ) (object : JsonValue) :
    ControlPlaneResult PresenceFields :=
  match field object (bytes "presence_version") JsonValue.unsigned?,
    field object (bytes "mode") JsonValue.string?,
    (field object (bytes "observed_at_unix_ms") JsonValue.unsigned?).bind timePoint,
    field object (bytes "entries") JsonValue.array? with
  | some version, some mode, some observedAt, some entries =>
    if version = 0 ∨ (mode = bytes "snapshot") ≠ (expectedMode afterVersion = .snapshot)
        ∨ (mode ≠ bytes "snapshot" ∧ mode ≠ bytes "delta")
        ∨ afterVersion.any (version < ·) then
      .error (invalidResponse "presence response is incomplete or mode-mismatched")
    else .ok { version, observedAt, entries }
  | _, _, _, _ => .error (invalidResponse "presence response is incomplete or mode-mismatched")

/-- The seconds of a valid `Retry-After`. -/
def retryAfter (response : ClientHttpResponse) : Option ℕ :=
  ((responseHeader response "retry-after").bind fromChars).filter fun seconds =>
    seconds ≠ 0 && seconds < UInt64.size / 2

/-- One round of the loop over the entries. -/
def readPresenceEntry (seen : List DirectoryPresenceEntry) (entry : JsonValue) :
    ControlPlaneResult (List DirectoryPresenceEntry) :=
  match field entry (bytes "player_id") JsonValue.string?,
    field entry (bytes "state") JsonValue.string? with
  | some playerId, some state =>
    if playerId = [] ∨ (state ≠ bytes "online" ∧ state ≠ bytes "offline")
        ∨ seen.any fun other => other.playerId = playerId then
      .error (invalidResponse "presence entry is invalid or duplicated")
    else .ok (seen ++ [{ playerId, online := state = bytes "online" }])
  | _, _ => .error (invalidResponse "presence entry is invalid or duplicated")

/-- What `directoryPresence` makes of a response. -/
def readPresence (afterVersion : Option ℕ) (response : ClientHttpResponse) :
    ControlPlaneResult DirectoryPresenceView :=
  match (responseRoot response).bind (presenceFields afterVersion) with
  | .error error => .error error
  | .ok fields =>
    match retryAfter response with
    | none => .error (invalidResponse "presence response has no valid Retry-After")
    | some retryAfter =>
      (fields.entries.foldlM readPresenceEntry []).map fun entries =>
        { version := fields.version
          mode := expectedMode afterVersion
          observedAt := fields.observedAt
          entries
          retryAfter }

/-! ## Grants and transmissions -/

/-- One round of the loop over the grants. -/
def readGrant (serverUrl : Bytes) (seen : List VoiceRoomGrant) (grant : JsonValue) :
    ControlPlaneResult (List VoiceRoomGrant) :=
  match (field grant (bytes "scope") JsonValue.string?).bind Network.parseScope,
    field grant (bytes "access_token") JsonValue.string? with
  | some scope, some token =>
    if token = [] then .error (invalidResponse "voice grant entry is incomplete")
    else if seen.any fun other => other.scope = scope then
      .error (invalidResponse "voice grant response contains a duplicate scope")
    else .ok (seen ++ [{ scope, url := serverUrl, token }])
  | _, _ => .error (invalidResponse "voice grant entry is incomplete")

/-- What `voiceGrants` reads of a response. -/
def readVoiceGrants (object : JsonValue) : ControlPlaneResult VoiceGrantSet :=
  match field object (bytes "server_url") JsonValue.string?,
    field object (bytes "membership_version") JsonValue.unsigned?,
    (field object (bytes "expires_at_unix_ms") JsonValue.unsigned?).bind timePoint,
    field object (bytes "grants") JsonValue.array? with
  | some serverUrl, some version, some expiresAt, some grants =>
    if serverUrl = [] ∨ version = 0 ∨ grants = [] then
      .error (invalidResponse "voice grant response is incomplete")
    else if 3 < grants.length then
      .error (invalidResponse "voice grant response contains too many scopes")
    else
      (grants.foldlM (readGrant serverUrl) []).map fun roomGrants =>
        { membershipVersion := version, expiresAt, roomGrants }
  | _, _, _, _ => .error (invalidResponse "voice grant response is incomplete")

/-- What `startTransmission` reads of a response. -/
def readStarted (clientId : ClientTransmissionId) (scope : VoiceScope) (membershipVersion : ℕ)
    (object : JsonValue) : ControlPlaneResult StartedTransmission :=
  match field object (bytes "transmission_id") JsonValue.string?,
    field object (bytes "client_transmission_id") JsonValue.string?,
    (field object (bytes "scope") JsonValue.string?).bind Network.parseScope,
    field object (bytes "membership_version") JsonValue.unsigned?,
    field object (bytes "recipient_count") JsonValue.unsigned? with
  | some transmissionId, some responseClientId, some responseScope, some version,
    some recipientCount =>
    if responseClientId ≠ clientId.value ∨ responseScope ≠ scope ∨ version ≠ membershipVersion
        ∨ UInt64.size ≤ recipientCount then
      .error (invalidResponse "transmission start response does not match the request")
    else
      match StrongId.make transmissionId with
      | .ok transmissionId =>
        .ok
          { transmissionId
            clientTransmissionId := clientId
            scope := responseScope
            membershipVersion := version
            recipientCount }
      | .error _ =>
        .error (invalidResponse "transmission response contains an invalid identifier")
  | _, _, _, _, _ =>
    .error (invalidResponse "transmission start response does not match the request")

/-- What `endTransmission` reads of a response. -/
def readEnded (transmissionId : TransmissionId) (object : JsonValue) :
    ControlPlaneResult EndedTransmissionView :=
  match field object (bytes "transmission_id") JsonValue.string?,
    field object (bytes "status") JsonValue.string?,
    field object (bytes "stop_reason") JsonValue.string? with
  | some responseId, some status, some reason =>
    if responseId ≠ transmissionId.value ∨ status ≠ bytes "ended" then
      .error (invalidResponse "transmission end response does not match the request")
    else .ok ⟨transmissionId, reason⟩
  | _, _, _ =>
    .error (invalidResponse "transmission end response does not match the request")

end Client

/-! ## Operations -/

open Client

structure ControlPlaneClient where
  deviceId : DeviceId
  session : Option ControlPlaneSession := none
  deriving DecidableEq

namespace ControlPlaneClient

variable (c : ControlPlaneClient) (send : Send) (correlationId : CorrelationId)

/-- The headers of every request of a session, after the additional ones. -/
def sessionHeaders (session : ControlPlaneSession) (additional : Headers) : Headers :=
  ((additional.insertIfNew (bytes "authorization") (bytes "Session " ++ session.sessionId.value)
    ).insertIfNew (bytes "x-correlation-id") correlationId.value).insertIfNew
    (bytes "x-hvc-device-id") c.deviceId.value

def sendSessionRequest (method target : Bytes) (body : Bytes := []) (additional : Headers := ∅) :
    ClientHttpResponse :=
  match c.session with
  | none => { transportError := bytes "no active session" }
  | some session =>
    match send { method, target, headers := c.sessionHeaders correlationId session additional, body }
      with
    | .ok response => response
    | .error what => { transportError := what }

def createSession (externalCredential : Bytes) :
    ControlPlaneClient × ControlPlaneResult ControlPlaneSession :=
  if externalCredential = [] then
    (c, .error (invalidArgument "external credential must not be empty"))
  else
    let headers := ((∅ : Headers).insert (bytes "authorization")
      (bytes "Bearer " ++ externalCredential)).insert (bytes "x-correlation-id") correlationId.value
      |>.insert (bytes "x-hvc-device-id") c.deviceId.value
    match send { method := bytes "POST", target := bytes "/api/v1/sessions", headers, body := [] }
      with
    | .error what => (c, .error ⟨.transport, 0, bytes "transport_exception", what⟩)
    | .ok response =>
      match (responseRoot response).bind (readSession c.deviceId) with
      | .error error => (c, .error error)
      | .ok created => ({ c with session := some created }, .ok created)

def membership : ControlPlaneResult MembershipView :=
  match c.session with
  | none => .error (invalidState "a session is required before membership retrieval")
  | some session =>
    (responseRoot (c.sendSessionRequest send correlationId (bytes "GET")
      (bytes "/api/v1/membership"))).bind (readMembership session)

def directory (knownVersion : Option ℕ) : ControlPlaneResult DirectoryFetch :=
  if c.session.isNone then
    .error (invalidState "a session is required before directory retrieval")
  else if knownVersion = some 0 then
    .error (invalidArgument "known directory version must be positive")
  else
    let headers := match knownVersion with
      | none => ∅
      | some known => (∅ : Headers).insert (bytes "if-none-match") (entityTag known)
    readDirectory knownVersion (c.sendSessionRequest send correlationId (bytes "GET")
      (bytes "/api/v1/directory") [] headers)

def directoryPresence (afterVersion : Option ℕ) : ControlPlaneResult DirectoryPresenceView :=
  if c.session.isNone then
    .error (invalidState "a session is required before presence retrieval")
  else if afterVersion = some 0 then
    .error (invalidArgument "presence delta version must be positive")
  else
    let target := match afterVersion with
      | none => bytes "/api/v1/directory/presence"
      | some after => bytes "/api/v1/directory/presence?after_version=" ++ decimal after
    readPresence afterVersion (c.sendSessionRequest send correlationId (bytes "GET") target)

def voiceGrants : ControlPlaneResult VoiceGrantSet :=
  if c.session.isNone then
    .error (invalidState "a session is required before voice grant issuance")
  else
    (responseRoot (c.sendSessionRequest send correlationId (bytes "POST")
      (bytes "/api/v1/voice-grants"))).bind readVoiceGrants

/-- The body of a start; it throws where the identifier cannot be escaped. -/
def startBody (clientId : ClientTransmissionId) (scope : VoiceScope) (membershipVersion : ℕ) :
    Except InvalidArgument Bytes := do
  let clientId ← Client.escapeJson clientId.value
  let scope ← Client.escapeJson (Network.scopeName scope)
  pure (bytes "\x7b\"client_transmission_id\":" ++ clientId ++ bytes ",\"scope\":" ++ scope
    ++ bytes ",\"membership_version\":" ++ decimal membershipVersion ++ bytes "\x7d")

/-- The result, or the exception that leaves the function. -/
def startTransmission (clientId : ClientTransmissionId) (scope : VoiceScope)
    (membershipVersion : ℕ) : Except InvalidArgument (ControlPlaneResult StartedTransmission) :=
  if c.session.isNone then
    .ok (.error (invalidState "a session is required before starting a transmission"))
  else if membershipVersion = 0 then
    .ok (.error (invalidArgument "membership version must be positive"))
  else
    (startBody clientId scope membershipVersion).map fun body =>
      (responseRoot (c.sendSessionRequest send correlationId (bytes "POST")
        (bytes "/api/v1/transmissions") body)).bind (readStarted clientId scope membershipVersion)

def endTransmission (transmissionId : TransmissionId) : ControlPlaneResult EndedTransmissionView :=
  if c.session.isNone then
    .error (invalidState "a session is required before ending a transmission")
  else
    (responseRoot (c.sendSessionRequest send correlationId (bytes "DELETE")
      (bytes "/api/v1/transmissions/" ++ transmissionId.value))).bind (readEnded transmissionId)

/-! ## All operations -/

/-- An operation, with the identifier of a start that the generator hands out. -/
inductive Operation
  | createSession (externalCredential : Bytes)
  | membership
  | directory (knownVersion : Option ℕ)
  | directoryPresence (afterVersion : Option ℕ)
  | voiceGrants
  | startTransmission (clientId : ClientTransmissionId) (scope : VoiceScope)
      (membershipVersion : ℕ)
  | endTransmission (transmissionId : TransmissionId)

/-- The result of an operation; a new session is also kept by the client. -/
inductive Outcome
  | session (client : ControlPlaneClient) (result : ControlPlaneResult ControlPlaneSession)
  | membership (result : ControlPlaneResult MembershipView)
  | directory (result : ControlPlaneResult DirectoryFetch)
  | presence (result : ControlPlaneResult DirectoryPresenceView)
  | voiceGrants (result : ControlPlaneResult VoiceGrantSet)
  | started (result : Except InvalidArgument (ControlPlaneResult StartedTransmission))
  | ended (result : ControlPlaneResult EndedTransmissionView)

def call : Operation → Outcome
  | .createSession externalCredential =>
    let r := c.createSession send correlationId externalCredential
    .session r.1 r.2
  | .membership => .membership (c.membership send correlationId)
  | .directory knownVersion => .directory (c.directory send correlationId knownVersion)
  | .directoryPresence afterVersion =>
    .presence (c.directoryPresence send correlationId afterVersion)
  | .voiceGrants => .voiceGrants (c.voiceGrants send correlationId)
  | .startTransmission clientId scope membershipVersion =>
    .started (c.startTransmission send correlationId clientId scope membershipVersion)
  | .endTransmission transmissionId =>
    .ended (c.endTransmission send correlationId transmissionId)

end ControlPlaneClient

end VoxTree

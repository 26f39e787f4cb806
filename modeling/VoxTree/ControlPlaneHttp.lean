import VoxTree.FlatJson
import VoxTree.Services
import VoxTree.TransmissionAnswers

/-!
# The HTTP adapter of the control plane

`ControlPlaneHttpAdapter::handle` with its routes, the parsing of what they take from the request
and the JSON of what they answer. Headers are a map of lower-case names.
-/

namespace VoxTree

abbrev Headers := Std.ExtTreeMap Bytes Bytes

structure HttpRequest where
  method : Bytes
  target : Bytes
  headers : Headers
  body : Bytes

structure HttpResponse where
  statusCode : Int
  headers : Headers
  body : Bytes

/-- Empty where there is no such header. -/
def HttpRequest.header (request : HttpRequest) (name : String) : Bytes :=
  (request.headers[Network.asciiLower (bytes name)]?).getD []

/-- `headers.emplace`. -/
def HttpResponse.emplace (response : HttpResponse) (name : String) (value : Bytes) : HttpResponse :=
  { response with headers := response.headers.insertIfNew (bytes name) value }

namespace Network

def controlPlaneApiVersion : Bytes := bytes "v1"

/-! ## JSON -/

/-- The members in the order they are written. -/
def jsonObject (members : List (String × Bytes)) : Bytes :=
  0x7b :: [0x2c].intercalate (members.map fun member =>
    escapeJson (bytes member.1) ++ 0x3a :: member.2) ++ [0x7d]

def jsonArray (elements : List Bytes) : Bytes := 0x5b :: [0x2c].intercalate elements ++ [0x5d]

def jsonText (value : String) : Bytes := escapeJson (bytes value)

def jsonBoolean (value : Bool) : Bytes := if value then bytes "true" else bytes "false"

/-- The text of the milliseconds since the epoch, rounded towards it. -/
def unixMilliseconds (value : TimePoint) : Bytes := bytes (toString (value.tdiv 1000000))

def jsonResponse (statusCode : Int) (body : Bytes) : HttpResponse where
  statusCode
  headers := ((∅ : Headers).insert (bytes "cache-control") (bytes "no-store")).insert
    (bytes "content-type") (bytes "application/json; charset=utf-8") |>.insert
    (bytes "x-hvc-api-version") controlPlaneApiVersion
  body

def errorResponse (statusCode : Int) (code : Bytes) (message : String) : HttpResponse :=
  jsonResponse statusCode <| jsonObject
    [("api_version", jsonText "v1"),
      ("error", jsonObject [("code", escapeJson code), ("message", jsonText message)])]

/-! ## Names and errors -/

def scopeName : VoiceScope → Bytes
  | .team => bytes "team"
  | .specialization => bytes "specialization"
  | .group => bytes "group"

def parseScope (scope : Bytes) : Option VoiceScope :=
  if scope = bytes "team" then some .team
  else if scope = bytes "specialization" then some .specialization
  else if scope = bytes "group" then some .group
  else none

def authenticationError : SessionAuthenticationError → HttpResponse
  | .invalidCredentials =>
    errorResponse 401 (bytes "invalid_credentials") "The credential was rejected."
  | .deviceNotAllowed =>
    errorResponse 403 (bytes "device_not_allowed") "The device is not allowed."
  | .accountDisabled => errorResponse 403 (bytes "account_disabled") "The account is disabled."
  | .rateLimited => errorResponse 429 (bytes "rate_limited") "Too many authentication attempts."

def moderationErrorCode : ModerateTransmissionError → Bytes
  | .sessionNotFound => bytes "session_not_found"
  | .sessionDeviceMismatch => bytes "session_device_mismatch"
  | .sessionExpired => bytes "session_expired"
  | .notAuthorized => bytes "not_authorized"
  | .transmissionNotFound => bytes "transmission_not_found"

def moderationErrorStatus : ModerateTransmissionError → Int
  | .sessionNotFound | .sessionExpired => 401
  | .sessionDeviceMismatch | .notAuthorized => 403
  | .transmissionNotFound => 404

def membershipUnavailable : HttpResponse :=
  errorResponse 404 (bytes "membership_unavailable") "No authoritative membership is available."

def routeNotFound : HttpResponse :=
  errorResponse 404 (bytes "route_not_found") "No v1 route matches the request."

def directoryUnavailable : HttpResponse :=
  errorResponse 404 (bytes "directory_unavailable") "No active directory is available."

def bodyNotAllowed (message : String) : HttpResponse :=
  errorResponse 400 (bytes "body_not_allowed") message

def voiceGrantError : VoiceGrantError → HttpResponse
  | .sessionNotFound | .sessionExpired =>
    errorResponse 401 (bytes "invalid_session") "The session is missing or expired."
  | .sessionDeviceMismatch =>
    errorResponse 403 (bytes "session_device_mismatch") "The session belongs to another device."
  | .membershipUnavailable => membershipUnavailable
  | .playerNotInMembership =>
    errorResponse 409 (bytes "membership_inconsistent")
      "The authoritative membership does not contain the session player."
  | .voiceNotConnected =>
    errorResponse 409 (bytes "voice_not_connected") "The session player is not connected to voice."

def directoryNodeTypeName : DirectoryNodeType → String
  | .group => "group"
  | .specialization => "specialization"
  | .team => "team"

def presenceStateName : DirectoryPresenceState → String
  | .offline => "offline"
  | .online => "online"

/-! ## Requests -/

structure RequestSession where
  session : AuthenticatedSession
  deviceId : DeviceId
  correlationId : CorrelationId

/-- What follows the scheme in the authorization header, if anything does. -/
def authorizationValue (request : HttpRequest) (scheme : String) : Option Bytes :=
  let authorization := request.header "authorization"
  if (bytes scheme).isPrefixOf authorization ∧ authorization.length ≠ (bytes scheme).length then
    some (authorization.drop (bytes scheme).length)
  else none

/-- The constructor of an identifier. -/
def identifier {σ : Type} {tag : IdTag} (value : Bytes) : Service σ (StrongId tag) :=
  match StrongId.make value with
  | .ok id => pure id
  | .error _ => throw .invalidArgument

def authenticateRequestSession {σ : Type} (request : HttpRequest) (now : TimePoint)
    (sessions : SessionRepository σ) : Service σ (Except HttpResponse RequestSession) :=
  match authorizationValue request "Session " with
  | none =>
    pure (.error (errorResponse 401 (bytes "session_required")
      "Authorization must use the Session scheme."))
  | some sessionValue =>
    let deviceValue := request.header "x-hvc-device-id"
    let correlationValue := request.header "x-correlation-id"
    if deviceValue = [] ∨ correlationValue = [] then
      pure (.error (errorResponse 400 (bytes "required_header_missing")
        "X-HVC-Device-ID and X-Correlation-ID are required."))
    else do
      let sessionId ← identifier sessionValue
      let deviceId ← identifier deviceValue
      let correlationId ← identifier correlationValue
      match ← sessions.find sessionId with
      | none =>
        pure (.error (errorResponse 401 (bytes "invalid_session")
          "The session is missing or expired."))
      | some session =>
        if !session.activeAt now then
          pure (.error (errorResponse 401 (bytes "invalid_session")
            "The session is missing or expired."))
        else if session.deviceId ≠ deviceId then
          pure (.error (errorResponse 403 (bytes "session_device_mismatch")
            "The session belongs to another device."))
        else pure (.ok ⟨session, deviceId, correlationId⟩)

def presencePath : Bytes := bytes "/api/v1/directory/presence"

def parsePresenceVersion (target : Bytes) : Except HttpResponse (Option ℕ) :=
  if target = presencePath then .ok none
  else if !presencePath.isPrefixOf target ∨ target.length ≤ presencePath.length
      ∨ target[presencePath.length]? ≠ some 0x3f then .error routeNotFound
  else
    let query := target.drop (presencePath.length + 1)
    let start := bytes "after_version="
    if !start.isPrefixOf query ∨ query.length = start.length ∨ query.contains 0x26 then
      .error (errorResponse 400 (bytes "invalid_query")
        "Presence accepts only one after_version parameter.")
    else
      match fromChars (query.drop start.length) with
      | none =>
        .error (errorResponse 400 (bytes "invalid_query")
          "after_version must be an unsigned integer.")
      | some version => .ok (some version)

/-- The loop of `parseRoles`. A role takes at least one byte, so the length of the text is fuel
enough. -/
def parseRoleList : ℕ → List RoleId → Bytes → Option (List RoleId)
  | 0, roles, _ => some roles
  | _ + 1, roles, [] => some roles
  | fuel + 1, roles, value =>
    let role := value.takeWhile (· ≠ 0x2c)
    if h : role ≠ [] then
      if roles.any fun existing => existing.value = role then none
      else
        match value.dropWhile (· ≠ 0x2c) with
        | [] => some (roles ++ [⟨role, h⟩])
        | _ :: rest => parseRoleList fuel (roles ++ [⟨role, h⟩]) rest
    else none

def parseRoles (value : Bytes) : Option (List RoleId) :=
  match parseRoleList value.length [] value with
  | some [] => none
  | roles => roles

/-! ## Answers -/

def entityTag (version : ℕ) : Bytes := bytes "\"directory-" ++ decimal version ++ [0x22]

def directoryBody (snapshot : DirectorySnapshot) : Bytes :=
  jsonObject
    [("api_version", jsonText "v1"),
      ("directory_version", decimal snapshot.version),
      ("group_id", escapeJson snapshot.groupId.value),
      ("nodes", jsonArray (snapshot.nodes.map fun node => jsonObject
        [("node_id", escapeJson node.nodeId),
          ("node_type", jsonText (directoryNodeTypeName node.nodeType)),
          ("parent_node_id", (node.parentNodeId.map escapeJson).getD (bytes "null")),
          ("display_name", escapeJson node.displayName),
          ("sort_index", decimal node.sortIndex)])),
      ("public_roles", jsonArray (snapshot.publicRoles.map fun role => jsonObject
        [("role_id", escapeJson role.roleId.value),
          ("display_name", escapeJson role.displayName)])),
      ("participants", jsonArray (snapshot.participants.map fun participant => jsonObject
        [("player_id", escapeJson participant.playerId.value),
          ("display_name", escapeJson participant.displayName),
          ("primary_team_id", escapeJson participant.primaryTeamId.value),
          ("public_role_ids",
            jsonArray (participant.publicRoleIds.map fun role => escapeJson role.value))]))]

def notModifiedResponse (etag : Bytes) : HttpResponse where
  statusCode := 304
  headers := ((∅ : Headers).insert (bytes "cache-control") (bytes "no-store")).insert
    (bytes "etag") etag |>.insert (bytes "x-hvc-api-version") controlPlaneApiVersion
  body := []

variable {σ : Type}

def directoryResponse (request : HttpRequest) (actor : PlayerId) (directory : DirectoryService σ) :
    Service σ HttpResponse := do
  match ← directory.directoryFor actor with
  | .error .directoryUnavailable => pure directoryUnavailable
  | .error .directoryLimitExceeded =>
    pure (errorResponse 413 (bytes "directory_limit_exceeded")
      "The visible directory exceeds the participant limit.")
  | .ok snapshot =>
    let etag := entityTag snapshot.version
    if request.header "if-none-match" = etag then pure (notModifiedResponse etag)
    else pure ((jsonResponse 200 (directoryBody snapshot)).emplace "etag" etag)

def presenceBody (snapshot : DirectoryPresenceSnapshot) : Bytes :=
  jsonObject
    [("api_version", jsonText "v1"),
      ("presence_version", decimal snapshot.version),
      ("mode", jsonText (if snapshot.mode = .snapshot then "snapshot" else "delta")),
      ("observed_at_unix_ms", unixMilliseconds snapshot.observedAt),
      ("entries", jsonArray (snapshot.entries.map fun entry => jsonObject
        [("player_id", escapeJson entry.playerId.value),
          ("state", jsonText (presenceStateName entry.state))]))]

def presenceResponse (actor : PlayerId) (afterVersion : Option ℕ) (directory : DirectoryService σ)
    (now : TimePoint) : Service σ HttpResponse := do
  match ← directory.presenceFor actor afterVersion now with
  | .error .directoryUnavailable => pure directoryUnavailable
  | .error .snapshotRequired =>
    pure (errorResponse 409 (bytes "presence_snapshot_required")
      "A complete presence snapshot is required.")
  | .ok snapshot =>
    pure ((jsonResponse 200 (presenceBody snapshot)).emplace "retry-after" (bytes "1"))

def sessionResponse (session : AuthenticatedSession) : HttpResponse :=
  jsonResponse 201 <| jsonObject
    [("api_version", jsonText "v1"),
      ("session_id", escapeJson session.sessionId.value),
      ("player_id", escapeJson session.playerId.value),
      ("device_id", escapeJson session.deviceId.value),
      ("expires_at_unix_ms", unixMilliseconds session.expiresAt)]

def membershipResponse (session : AuthenticatedSession) (memberships : MembershipProvider σ) :
    Service σ HttpResponse := do
  match ← memberships.currentFor session.playerId with
  | none => pure membershipUnavailable
  | some context =>
    match context.snapshot.find session.playerId with
    | none =>
      pure (errorResponse 409 (bytes "membership_inconsistent")
        "The authoritative membership does not contain the session player.")
    | some membership =>
      pure <| jsonResponse 200 <| jsonObject
        [("api_version", jsonText "v1"),
          ("membership_version", decimal context.snapshot.version),
          ("hierarchy_id", escapeJson context.snapshot.hierarchy.id.value),
          ("player_id", escapeJson membership.playerId.value),
          ("group_id", escapeJson membership.groupId.value),
          ("specialization_id", escapeJson membership.specializationId.value),
          ("team_id", escapeJson membership.teamId.value),
          ("role_ids", jsonArray (membership.roleIds.map fun role => escapeJson role.value)),
          ("connected", jsonBoolean membership.connected),
          ("can_receive_voice", jsonBoolean membership.canReceiveVoice),
          ("transmit_muted", jsonBoolean membership.transmitMuted)]

/-- `derive` and `issue` are those of the authorization service and of the issuer. -/
def voiceGrantResponse (authenticated : RequestSession)
    (derive : SessionId → DeviceId → TimePoint →
      Service σ (Except VoiceGrantError VoiceGrantClaims))
    (issue : VoiceGrantClaims → Service σ (List IssuedVoiceRoomGrant)) (voiceServerUrl : Bytes)
    (now : TimePoint) : Service σ HttpResponse := do
  match ← derive authenticated.session.sessionId authenticated.deviceId now with
  | .error error => pure (voiceGrantError error)
  | .ok claims =>
    let grants ← issue claims
    if grants = [] then
      pure (errorResponse 403 (bytes "voice_grants_empty")
        "The current roles do not authorize any voice room.")
    else
      pure <| jsonResponse 201 <| jsonObject
        [("api_version", jsonText "v1"),
          ("server_url", escapeJson voiceServerUrl),
          ("membership_version", decimal claims.membershipVersion),
          ("expires_at_unix_ms", unixMilliseconds claims.expiresAt),
          ("grants", jsonArray (grants.map fun grant => jsonObject
            [("scope", escapeJson (scopeName grant.scope)),
              ("room_name", escapeJson grant.roomName),
              ("access_token", escapeJson grant.accessToken)]))]

def membershipFields : List Bytes :=
  [bytes "membership_version", bytes "group_id", bytes "specialization_id", bytes "team_id",
    bytes "role_ids", bytes "connected", bytes "can_receive_voice", bytes "transmit_muted"]

/-- The snapshot with the subject's membership replaced, through the constructors of the hierarchy
and of the snapshot. -/
def replacedSnapshot (version : ℕ) (snapshot : MembershipSnapshot)
    (replacement : VoiceMembership) : Except InvalidArgument MembershipSnapshot := do
  let hierarchy := snapshot.hierarchy
  let hierarchy ← Hierarchy.make hierarchy.id hierarchy.scopes hierarchy.groups
    hierarchy.specializations hierarchy.teams
  MembershipSnapshot.make version hierarchy (snapshot.memberships.map fun membership =>
    if membership.playerId = replacement.playerId then replacement else membership)

def replaceMembershipResponse (authenticated : RequestSession) (subject : PlayerId)
    (body : JsonObject) (administration : AdministrativeMembershipService σ) (now : TimePoint) :
    Service σ HttpResponse :=
  if !hasOnlyFields body membershipFields then
    pure (errorResponse 400 (bytes "unknown_field") "The request contains an unknown field.")
  else
    match unsignedField body (bytes "membership_version"), stringField body (bytes "group_id"),
      stringField body (bytes "specialization_id"), stringField body (bytes "team_id"),
      (stringField body (bytes "role_ids")).bind parseRoles, booleanField body (bytes "connected"),
      booleanField body (bytes "can_receive_voice"), booleanField body (bytes "transmit_muted") with
    | some version, some group, some specialization, some team, some roles, some connected,
      some canReceive, some transmitMuted => do
      match ← administration.currentFor subject with
      | none => pure membershipUnavailable
      | some current =>
        match current.snapshot.memberships.find? fun membership => membership.playerId = subject with
        | none =>
          pure (errorResponse 409 (bytes "membership_inconsistent")
            "The authoritative membership does not contain the subject.")
        | some existing =>
          let groupId ← identifier group
          let specializationId ← identifier specialization
          let teamId ← identifier team
          let replacement : VoiceMembership :=
            { playerId := subject, groupId, specializationId, teamId, roleIds := roles, connected
              canReceiveVoice := canReceive
              transmitMuted
              voiceBanStatus := existing.voiceBanStatus }
          let invalid := errorResponse 400 (bytes "invalid_membership")
            "The replacement membership is inconsistent with the hierarchy."
          match replacedSnapshot version current.snapshot replacement with
          | .error _ => pure invalid
          | .ok snapshot =>
            let replaced : Service σ HttpResponse := do
              match ← administration.replaceMembership subject ⟨snapshot, current.rolePolicy⟩ now
                  authenticated.correlationId with
              | .error _ =>
                pure (errorResponse 409 (bytes "membership_version_not_newer")
                  "The replacement version must be strictly newer.")
              | .ok interrupted =>
                pure <| jsonResponse 200 <| jsonObject
                  [("api_version", jsonText "v1"),
                    ("player_id", escapeJson subject.value),
                    ("membership_version", decimal version),
                    ("status", jsonText "replaced"),
                    ("interrupted_transmission_count", decimal interrupted.length)]
            tryCatch replaced fun
              | .invalidArgument => pure invalid
              | .other => throw .other
    | _, _, _, _, _, _, _, _ =>
      pure (errorResponse 400 (bytes "invalid_body")
        "A version, hierarchy path, role_ids and all membership flags are required.")

def startTransmissionResponse (authenticated : RequestSession) (body : JsonObject)
    (service : TransmissionService σ) (now : TimePoint) : Service σ HttpResponse :=
  if !hasOnlyFields body
      [bytes "client_transmission_id", bytes "scope", bytes "membership_version"] then
    pure (errorResponse 400 (bytes "unknown_field") "The request contains an unknown field.")
  else
    match stringField body (bytes "client_transmission_id"),
      (stringField body (bytes "scope")).bind parseScope,
      unsignedField body (bytes "membership_version") with
    | some clientId, some scope, some membershipVersion => do
      let clientTransmissionId ← identifier clientId
      match ← service.start ⟨authenticated.session.sessionId, authenticated.deviceId,
          clientTransmissionId, scope, membershipVersion, authenticated.correlationId⟩ now with
      | .error error =>
        pure (errorResponse (startErrorStatus error) (startErrorCode error)
          "The transmission could not be started.")
      | .ok transmission =>
        let authorization := transmission.authorization
        pure <| jsonResponse 201 <| jsonObject
          [("api_version", jsonText "v1"),
            ("transmission_id", escapeJson authorization.transmissionId.value),
            ("client_transmission_id", escapeJson authorization.clientTransmissionId.value),
            ("scope", escapeJson (scopeName authorization.scope)),
            ("membership_version", decimal authorization.membershipVersion),
            ("recipient_count", decimal authorization.recipients.length)]
    | _, _, _ =>
      pure (errorResponse 400 (bytes "invalid_body")
        "client_transmission_id, scope and membership_version are required.")

/-- The answer that an end and a moderation share. -/
def stoppedResponse (transmissionId : Bytes) (stopReason : String) : HttpResponse :=
  jsonResponse 200 <| jsonObject
    [("api_version", jsonText "v1"), ("transmission_id", escapeJson transmissionId),
      ("status", jsonText "ended"), ("stop_reason", jsonText stopReason)]

def endTransmissionResponse (authenticated : RequestSession) (transmissionId : Bytes)
    (service : TransmissionService σ) (now : TimePoint) : Service σ HttpResponse := do
  let id ← identifier transmissionId
  match ← service.end ⟨authenticated.session.sessionId, authenticated.deviceId, id,
      authenticated.correlationId⟩ now with
  | .error error =>
    pure (errorResponse (endErrorStatus error) (endErrorCode error)
      "The transmission could not be ended.")
  | .ok _ => pure (stoppedResponse transmissionId "push_to_talk_released")

def moderateTransmissionResponse (authenticated : RequestSession) (transmissionId : Bytes)
    (service : TransmissionService σ) (now : TimePoint) : Service σ HttpResponse := do
  let id ← identifier transmissionId
  match ← service.interruptForModeration ⟨authenticated.session.sessionId,
      authenticated.deviceId, id, authenticated.correlationId⟩ now with
  | .error error =>
    pure (errorResponse (moderationErrorStatus error) (moderationErrorCode error)
      "The transmission could not be interrupted.")
  | .ok _ => pure (stoppedResponse transmissionId "moderation_interrupted")

end Network

open Network

/-- The adapter with its collaborators; the optional ones may be null. -/
structure ControlPlaneHttpAdapter (σ : Type) where
  authenticate : AuthenticateSessionCommand → TimePoint →
    Service σ (Except SessionAuthenticationError AuthenticatedSession)
  sessions : SessionRepository σ
  memberships : MembershipProvider σ
  transmissions : TransmissionService σ
  administration : Option (AdministrativeMembershipService σ) := none
  administrationAuthorizer : Option (AdministrativeMembershipAuthorizer σ) := none
  deriveVoiceGrants : Option (SessionId → DeviceId → TimePoint →
    Service σ (Except VoiceGrantError VoiceGrantClaims)) := none
  issueVoiceGrants : Option (VoiceGrantClaims → Service σ (List IssuedVoiceRoomGrant)) := none
  voiceServerUrl : Bytes := []
  directory : Option (DirectoryService σ) := none

namespace ControlPlaneHttpAdapter

variable {σ : Type} (adapter : ControlPlaneHttpAdapter σ) (request : HttpRequest) (now : TimePoint)

def createSession : Service σ HttpResponse :=
  match authorizationValue request "Bearer " with
  | none =>
    pure (errorResponse 401 (bytes "credential_required")
      "Authorization must use the Bearer scheme at the session boundary.")
  | some credential =>
    let device := request.header "x-hvc-device-id"
    let correlation := request.header "x-correlation-id"
    if device = [] ∨ correlation = [] then
      pure (errorResponse 400 (bytes "required_header_missing")
        "X-HVC-Device-ID and X-Correlation-ID are required.")
    else if request.body ≠ [] then
      pure (bodyNotAllowed "Session creation does not accept a request body.")
    else do
      let deviceId ← identifier device
      let correlationId ← identifier correlation
      match ← adapter.authenticate ⟨credential, deviceId, correlationId⟩ now with
      | .error error => pure (authenticationError error)
      | .ok session =>
        if session.deviceId ≠ deviceId ∨ !session.activeAt now then
          pure (errorResponse 502 (bytes "invalid_authenticator_result")
            "The authenticator returned an invalid or device-mismatched session.")
        else do
          adapter.sessions.upsert session
          pure (sessionResponse session)

def membershipAdminPath : Bytes := bytes "/api/v1/admin/memberships/"

def notAuthorized (message : String) : HttpResponse :=
  errorResponse 403 (bytes "not_authorized") message

/-- The route of the administrative memberships, for the subject the path names. -/
def administerMembership (session : RequestSession) (subjectValue : Bytes) :
    Service σ HttpResponse :=
  if subjectValue = [] ∨ subjectValue.contains 0x2f then
    pure (errorResponse 400 (bytes "invalid_membership_path")
      "The administrative membership path is invalid.")
  else
    match adapter.administration, adapter.administrationAuthorizer with
    | some administration, some authorizer => do
      let subject ← identifier subjectValue
      let actor := session.session.playerId
      if request.method = bytes "GET" ∧ request.body = [] then
        if !(← authorizer.canRead actor subject) then
          pure (notAuthorized "The session cannot read administrative memberships.")
        else
          membershipResponse ⟨session.session.sessionId, subject, session.deviceId,
            session.session.expiresAt⟩ administration.toMembershipProvider
      else if request.method = bytes "DELETE" ∧ request.body = [] then
        if !(← authorizer.canRemove actor subject) then
          pure (notAuthorized "The session cannot remove administrative memberships.")
        else
          match ← administration.currentFor subject with
          | none => pure membershipUnavailable
          | some _ => do
            let interrupted ← administration.removeMembership subject now session.correlationId
            pure <| jsonResponse 200 <| jsonObject
              [("api_version", jsonText "v1"),
                ("player_id", escapeJson subject.value),
                ("status", jsonText "removed"),
                ("interrupted_transmission_count", decimal interrupted.length)]
      else if request.method = bytes "PUT" then
        if !(← authorizer.canReplace actor subject) then
          pure (notAuthorized "The session cannot replace administrative memberships.")
        else
          match parseFlatJsonObject request.body with
          | none =>
            pure (errorResponse 400 (bytes "invalid_json")
              "The request body must be a flat JSON object.")
          | some body => replaceMembershipResponse session subject body administration now
      else pure routeNotFound
    | _, _ =>
      pure (errorResponse 403 (bytes "administration_unavailable")
        "Membership administration is not enabled.")

def directoryNotConfigured : HttpResponse :=
  errorResponse 503 (bytes "directory_unavailable") "Directory service is not configured."

def readDirectory (session : RequestSession) : Service σ HttpResponse :=
  if request.body ≠ [] then
    pure (bodyNotAllowed "Directory retrieval does not accept a request body.")
  else
    match adapter.directory with
    | none => pure directoryNotConfigured
    | some directory => directoryResponse request session.session.playerId directory

def readPresence (session : RequestSession) : Service σ HttpResponse :=
  if request.method ≠ bytes "GET" then pure routeNotFound
  else if request.body ≠ [] then
    pure (bodyNotAllowed "Presence retrieval does not accept a request body.")
  else
    match parsePresenceVersion request.target with
    | .error response => pure response
    | .ok afterVersion =>
      match adapter.directory with
      | none => pure directoryNotConfigured
      | some directory => presenceResponse session.session.playerId afterVersion directory now

def issueGrants (session : RequestSession) : Service σ HttpResponse :=
  if request.body ≠ [] then
    pure (bodyNotAllowed "Voice grant issuance does not accept a request body.")
  else
    match adapter.deriveVoiceGrants, adapter.issueVoiceGrants, adapter.voiceServerUrl with
    | some derive, some issue, url@(_ :: _) => voiceGrantResponse session derive issue url now
    | _, _, _ =>
      pure (errorResponse 503 (bytes "voice_grants_unavailable")
        "Voice grant issuance is not configured.")

def transmissionPath : Bytes := bytes "/api/v1/transmissions/"

def interruptSuffix : Bytes := bytes "/interrupt"

/-- The routes of one transmission, for the rest of the path. -/
def transmissionRoute (session : RequestSession) (transmissionId : Bytes) :
    Service σ HttpResponse :=
  if request.method = bytes "POST" ∧ interruptSuffix.isSuffixOf transmissionId then
    let transmissionId := transmissionId.take (transmissionId.length - interruptSuffix.length)
    if transmissionId = [] ∨ transmissionId.contains 0x2f ∨ request.body ≠ [] then
      pure (errorResponse 400 (bytes "invalid_transmission_path")
        "The transmission path or body is invalid.")
    else moderateTransmissionResponse session transmissionId adapter.transmissions now
  else if request.method = bytes "DELETE" ∧ transmissionId ≠ [] ∧ !transmissionId.contains 0x2f
      ∧ request.body = [] then
    endTransmissionResponse session transmissionId adapter.transmissions now
  else pure routeNotFound

/-- The routes behind the check of the session, in the order they are tried. -/
def sessionRoutes (session : RequestSession) : Service σ HttpResponse :=
  if request.target = bytes "/api/v1/directory" ∧ request.method = bytes "GET" then
    adapter.readDirectory request session
  else if presencePath.isPrefixOf request.target then adapter.readPresence request now session
  else if membershipAdminPath.isPrefixOf request.target then
    adapter.administerMembership request now session
      (request.target.drop membershipAdminPath.length)
  else if request.target = bytes "/api/v1/membership" ∧ request.method = bytes "GET" then
    if request.body ≠ [] then
      pure (bodyNotAllowed "Membership retrieval does not accept a request body.")
    else membershipResponse session.session adapter.memberships
  else if request.target = bytes "/api/v1/voice-grants" ∧ request.method = bytes "POST" then
    adapter.issueGrants request now session
  else if request.target = bytes "/api/v1/transmissions" ∧ request.method = bytes "POST" then
    match parseFlatJsonObject request.body with
    | none =>
      pure (errorResponse 400 (bytes "invalid_json") "The request body must be a flat JSON object.")
    | some body => startTransmissionResponse session body adapter.transmissions now
  else if transmissionPath.isPrefixOf request.target then
    adapter.transmissionRoute request now session (request.target.drop transmissionPath.length)
  else pure routeNotFound

/-- The body of `handle` inside its `try`. -/
def answer : Service σ HttpResponse :=
  if request.target = bytes "/api/v1/health" ∧ request.method = bytes "GET" then
    if request.body ≠ [] then
      pure (bodyNotAllowed "Health retrieval does not accept a request body.")
    else
      pure <| jsonResponse 200 <| jsonObject
        [("api_version", jsonText "v1"), ("status", jsonText "ready")]
  else if request.target = bytes "/api/v1/sessions" ∧ request.method = bytes "POST" then
    adapter.createSession request now
  else do
    match ← authenticateRequestSession request now adapter.sessions with
    | .error response => pure response
    | .ok session => adapter.sessionRoutes request now session

/-- The response, and the state the services leave behind. -/
def handle (s : σ) : HttpResponse × σ :=
  match (adapter.answer request now).run.run s with
  | (.ok response, s') => (response, s')
  | (.error .invalidArgument, s') =>
    (errorResponse 400 (bytes "invalid_identifier") "An identifier is empty or invalid.", s')
  | (.error .other, s') =>
    (errorResponse 500 (bytes "internal_error") "The request could not be completed.", s')

end ControlPlaneHttpAdapter

end VoxTree

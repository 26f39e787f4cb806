import VoxTree.WinHttp

/-!
# Calls over the wire and calls without one

A call of the control-plane client with HTTP and JSON between the client and the adapter, and the
same call with nothing between them: the session is looked up, the service is asked, and its answer
goes through the client's checks. The directory is left out; it takes headers that do not arrive.
-/

namespace VoxTree

open Client ControlPlaneClient

/-- The operations that take no header but the API version from the response. -/
inductive Call
  | createSession (externalCredential : Bytes)
  | membership
  | voiceGrants
  | startTransmission (clientId : ClientTransmissionId) (scope : VoiceScope)
      (membershipVersion : ℕ)
  | endTransmission (transmissionId : TransmissionId)

def Call.operation : Call → Operation
  | createSession externalCredential => .createSession externalCredential
  | membership => .membership
  | voiceGrants => .voiceGrants
  | startTransmission clientId scope membershipVersion =>
    .startTransmission clientId scope membershipVersion
  | endTransmission transmissionId => .endTransmission transmissionId

variable {σ : Type} (adapter : ControlPlaneHttpAdapter σ)

/-! ## WinHTTP -/

/-- A character that is not escaped in a URL. -/
def isUnreserved (character : UInt8) : Bool :=
  (0x61 ≤ character && character ≤ 0x7a) || (0x41 ≤ character && character ≤ 0x5a)
    || (0x30 ≤ character && character ≤ 0x39) || character = 0x2d || character = 0x2e
    || character = 0x5f || character = 0x7e

def isVisible (character : UInt8) : Bool := 0x21 ≤ character && character ≤ 0x7e

/-- A header of printable characters, with a value that no blank starts or ends. -/
structure PlainHeader (name value : Bytes) : Prop where
  nameLength : name.length ≤ 64
  nameVisible : ∀ character ∈ name, isVisible character = true ∧ character ≠ 0x3a
  valueLength : value.length ≤ 2048
  valuePrintable : ∀ character ∈ value, isVisible character = true ∨ character = 0x20
  trimmed : value.head? ≠ some 0x20 ∧ value.getLast? ≠ some 0x20

/-- A request in which nothing is escaped, converted or too long for the server. -/
structure PlainRequest (request : ClientHttpRequest) : Prop where
  method : request.method ≠ [] ∧ ∀ character ∈ request.method, isVisible character = true
  methodLength : request.method.length ≤ 64
  absolute : request.target.head? = some 0x2f
  target : ∀ character ∈ request.target, isUnreserved character = true ∨ character = 0x2f
  targetLength : request.target.length ≤ 2048
  headers : ∀ name value, request.headers[name]? = some value → PlainHeader name value
  headerCount : request.headers.size ≤ 3
  body : request.body.length ≤ 65536

/-- The request comes with the headers that were set, and maybe others. -/
structure Carried (request arrived : HttpRequest) : Prop where
  method : arrived.method = request.method
  target : arrived.target = request.target
  headers : ∀ name value : Bytes, request.headers[name]? = some value →
    arrived.headers[name]? = some value
  body : arrived.body = request.body

/-- What WinHTTP, and the server in front of the adapter, make of a request and of a response on
their way. -/
structure WinHttp where
  arrives : HttpRequest → HttpRequest
  carries : ∀ request, PlainRequest request →
    Carried (WinHttpTransport.handedOver request) (arrives (WinHttpTransport.handedOver request))
  delivers : (response : HttpResponse) → Delivery response

/-! ## Over the wire -/

section Wire

variable (winHttp : WinHttp)

/-- The answer of the adapter to what arrives, and the state it leaves behind. -/
def respond (now : TimePoint) (s : σ) (request : ClientHttpRequest) : HttpResponse × σ :=
  adapter.handle (winHttp.arrives (WinHttpTransport.handedOver request)) now s

/-- `WinHttpTransport::send`; a request that is refused does not get to the server. -/
def exchange (now : TimePoint) (s : σ) (request : ClientHttpRequest) : ClientHttpResponse × σ :=
  match WinHttpTransport.checkRequest request with
  | .error what => ({ transportError := what }, s)
  | .ok _ =>
    let answered := respond adapter winHttp now s request
    (WinHttpTransport.send _ (winHttp.delivers answered.1), answered.2)

/-- The request for a session. -/
def ControlPlaneClient.signIn (c : ControlPlaneClient) (correlationId : CorrelationId)
    (externalCredential : Bytes) : ClientHttpRequest where
  method := bytes "POST"
  target := bytes "/api/v1/sessions"
  headers := ((∅ : Headers).insert (bytes "authorization")
    (bytes "Bearer " ++ externalCredential)).insert (bytes "x-correlation-id") correlationId.value
    |>.insert (bytes "x-hvc-device-id") c.deviceId.value
  body := []

/-- The request of a call, where it gets to one. -/
def ControlPlaneClient.sent (c : ControlPlaneClient) (correlationId : CorrelationId) :
    Call → Option ClientHttpRequest
  | .createSession externalCredential =>
    if externalCredential = [] then none else some (c.signIn correlationId externalCredential)
  | .membership => request (bytes "GET") (bytes "/api/v1/membership") []
  | .voiceGrants => request (bytes "POST") (bytes "/api/v1/voice-grants") []
  | .startTransmission clientId scope membershipVersion =>
    if membershipVersion = 0 then none
    else
      match startBody clientId scope membershipVersion with
      | .ok body => request (bytes "POST") (bytes "/api/v1/transmissions") body
      | .error _ => none
  | .endTransmission transmissionId =>
    request (bytes "DELETE") (bytes "/api/v1/transmissions/" ++ transmissionId.value) []
where
  request (method target body : Bytes) : Option ClientHttpRequest :=
    c.session.map fun session =>
      { method, target, headers := c.sessionHeaders correlationId session ∅, body }

def callOverWire (c : ControlPlaneClient) (correlationId : CorrelationId) (now : TimePoint) (s : σ)
    (call : Call) : ControlPlaneClient.Outcome × σ :=
  (c.call (fun request => .ok (exchange adapter winHttp now s request).1) correlationId
      call.operation,
    (c.sent correlationId call).elim s fun request => (exchange adapter winHttp now s request).2)

end Wire

/-! ## Without a wire -/

def serverError (statusCode : Int) (code message : String) : ControlPlaneError :=
  ⟨.server, statusCode, bytes code, bytes message⟩

def authenticationRefusal : SessionAuthenticationError → ControlPlaneError
  | .invalidCredentials => serverError 401 "invalid_credentials" "The credential was rejected."
  | .deviceNotAllowed => serverError 403 "device_not_allowed" "The device is not allowed."
  | .accountDisabled => serverError 403 "account_disabled" "The account is disabled."
  | .rateLimited => serverError 429 "rate_limited" "Too many authentication attempts."

def invalidSession : ControlPlaneError :=
  serverError 401 "invalid_session" "The session is missing or expired."

def deviceMismatch : ControlPlaneError :=
  serverError 403 "session_device_mismatch" "The session belongs to another device."

def noMembership : ControlPlaneError :=
  serverError 404 "membership_unavailable" "No authoritative membership is available."

def inconsistentMembership : ControlPlaneError :=
  serverError 409 "membership_inconsistent"
    "The authoritative membership does not contain the session player."

def voiceGrantRefusal : VoiceGrantError → ControlPlaneError
  | .sessionNotFound | .sessionExpired => invalidSession
  | .sessionDeviceMismatch => deviceMismatch
  | .membershipUnavailable => noMembership
  | .playerNotInMembership => inconsistentMembership
  | .voiceNotConnected =>
    serverError 409 "voice_not_connected" "The session player is not connected to voice."

/-- A time as far as it is written. -/
def wholeMilliseconds (value : TimePoint) : TimePoint := value.tdiv 1000000 * 1000000

/-- The client's checks of a membership. -/
def membershipView (session : ControlPlaneSession) (snapshot : MembershipSnapshot)
    (membership : VoiceMembership) : ControlPlaneResult MembershipView :=
  if membership.playerId ≠ session.playerId then
    .error (invalidResponse "membership response is incomplete or session-mismatched")
  else
    .ok
      { version := snapshot.version
        hierarchyId := snapshot.hierarchy.id
        playerId := membership.playerId
        groupId := membership.groupId
        specializationId := membership.specializationId
        teamId := membership.teamId
        roleIds := membership.roleIds
        connected := membership.connected
        canReceiveVoice := membership.canReceiveVoice
        transmitMuted := membership.transmitMuted }

/-- One grant after those the client has taken. -/
def takeGrant (serverUrl : Bytes) (seen : List VoiceRoomGrant) (grant : IssuedVoiceRoomGrant) :
    ControlPlaneResult (List VoiceRoomGrant) :=
  if grant.accessToken = [] then .error (invalidResponse "voice grant entry is incomplete")
  else if seen.any fun other => other.scope = grant.scope then
    .error (invalidResponse "voice grant response contains a duplicate scope")
  else .ok (seen ++ [{ scope := grant.scope, url := serverUrl, token := grant.accessToken }])

/-- The client's checks of the grants. -/
def takeGrants (serverUrl : Bytes) (claims : VoiceGrantClaims)
    (grants : List IssuedVoiceRoomGrant) : ControlPlaneResult VoiceGrantSet :=
  if claims.membershipVersion = 0 then
    .error (invalidResponse "voice grant response is incomplete")
  else if 3 < grants.length then
    .error (invalidResponse "voice grant response contains too many scopes")
  else
    (grants.foldlM (takeGrant serverUrl) []).map fun roomGrants =>
      { membershipVersion := claims.membershipVersion
        expiresAt := wholeMilliseconds claims.expiresAt
        roomGrants }

/-- The client's checks of a start. -/
def takeStarted (clientId : ClientTransmissionId) (scope : VoiceScope) (membershipVersion : ℕ)
    (transmission : ActiveTransmission) : ControlPlaneResult StartedTransmission :=
  if transmission.authorization.clientTransmissionId ≠ clientId
      ∨ transmission.authorization.scope ≠ scope
      ∨ transmission.authorization.membershipVersion ≠ membershipVersion then
    .error (invalidResponse "transmission start response does not match the request")
  else startAnswer (.ok transmission)

namespace Direct

/-- What becomes of an exception of a service. -/
def finish {α : Type} (m : Service σ (ControlPlaneResult α)) (s : σ) : ControlPlaneResult α × σ :=
  match m.run.run s with
  | (.ok result, s') => (result, s')
  | (.error .invalidArgument, s') =>
    (.error (serverError 400 "invalid_identifier" "An identifier is empty or invalid."), s')
  | (.error .other, s') =>
    (.error (serverError 500 "internal_error" "The request could not be completed."), s')

variable (c : ControlPlaneClient) (correlationId : CorrelationId) (now : TimePoint)

def createSession (externalCredential : Bytes) :
    Service σ (ControlPlaneResult ControlPlaneSession) := do
  match ← adapter.authenticate ⟨externalCredential, c.deviceId, correlationId⟩ now with
  | .error error => pure (.error (authenticationRefusal error))
  | .ok session =>
    if session.deviceId ≠ c.deviceId ∨ !session.activeAt now then
      pure (.error (serverError 502 "invalid_authenticator_result"
        "The authenticator returned an invalid or device-mismatched session."))
    else do
      adapter.sessions.upsert session
      pure (.ok
        { sessionId := session.sessionId
          playerId := session.playerId
          deviceId := c.deviceId
          expiresAt := wholeMilliseconds session.expiresAt })

/-- What is asked in a session. -/
def inSession {α : Type} (session : ControlPlaneSession)
    (serve : Network.RequestSession → Service σ (ControlPlaneResult α)) :
    Service σ (ControlPlaneResult α) := do
  match ← adapter.sessions.find session.sessionId with
  | none => pure (.error invalidSession)
  | some stored =>
    if !stored.activeAt now then pure (.error invalidSession)
    else if stored.deviceId ≠ c.deviceId then pure (.error deviceMismatch)
    else serve ⟨stored, c.deviceId, correlationId⟩

def membership (session : ControlPlaneSession) (request : Network.RequestSession) :
    Service σ (ControlPlaneResult MembershipView) := do
  match ← adapter.memberships.currentFor request.session.playerId with
  | none => pure (.error noMembership)
  | some context =>
    match context.snapshot.find request.session.playerId with
    | none => pure (.error inconsistentMembership)
    | some membership => pure (membershipView session context.snapshot membership)

def voiceGrants (request : Network.RequestSession) : Service σ (ControlPlaneResult VoiceGrantSet) :=
  match adapter.deriveVoiceGrants, adapter.issueVoiceGrants, adapter.voiceServerUrl with
  | some derive, some issue, url@(_ :: _) => do
    match ← derive request.session.sessionId request.deviceId now with
    | .error error => pure (.error (voiceGrantRefusal error))
    | .ok claims =>
      let grants ← issue claims
      if grants = [] then
        pure (.error (serverError 403 "voice_grants_empty"
          "The current roles do not authorize any voice room."))
      else pure (takeGrants url claims grants)
  | _, _, _ =>
    pure (.error (serverError 503 "voice_grants_unavailable"
      "Voice grant issuance is not configured."))

def startTransmission (clientId : ClientTransmissionId) (scope : VoiceScope)
    (membershipVersion : ℕ) (request : Network.RequestSession) :
    Service σ (ControlPlaneResult StartedTransmission) := do
  match ← adapter.transmissions.start ⟨request.session.sessionId, request.deviceId, clientId, scope,
      membershipVersion, request.correlationId⟩ now with
  | .error error => pure (startAnswer (.error error))
  | .ok transmission => pure (takeStarted clientId scope membershipVersion transmission)

def endTransmission (transmissionId : TransmissionId) (request : Network.RequestSession) :
    Service σ (ControlPlaneResult EndedTransmissionView) :=
  return endAnswer transmissionId (← adapter.transmissions.end
    ⟨request.session.sessionId, request.deviceId, transmissionId, request.correlationId⟩ now)

/-- A call in a session, where the client has one. -/
def withSession {α : Type} (refused : String) (s : σ)
    (serve : ControlPlaneSession → Network.RequestSession → Service σ (ControlPlaneResult α)) :
    ControlPlaneResult α × σ :=
  match c.session with
  | none => (.error (invalidState refused), s)
  | some session => finish (inSession adapter c correlationId now session (serve session)) s

end Direct

open Direct in
def callDirectly (c : ControlPlaneClient) (correlationId : CorrelationId) (now : TimePoint)
    (s : σ) : Call → ControlPlaneClient.Outcome × σ
  | .createSession externalCredential =>
    if externalCredential = [] then
      (.session c (.error (invalidArgument "external credential must not be empty")), s)
    else
      let (result, s') :=
        finish (Direct.createSession adapter c correlationId now externalCredential) s
      (match result with
        | .error error => .session c (.error error)
        | .ok created => .session { c with session := some created } (.ok created), s')
  | .membership =>
    Prod.map .membership id (withSession adapter c correlationId now
      "a session is required before membership retrieval" s (Direct.membership adapter))
  | .voiceGrants =>
    Prod.map .voiceGrants id (withSession adapter c correlationId now
      "a session is required before voice grant issuance" s
      fun _ => Direct.voiceGrants adapter now)
  | .startTransmission clientId scope membershipVersion =>
    match c.session with
    | none =>
      (.started
        (.ok (.error (invalidState "a session is required before starting a transmission"))), s)
    | some session =>
      if membershipVersion = 0 then
        (.started (.ok (.error (invalidArgument "membership version must be positive"))), s)
      else
        match startBody clientId scope membershipVersion with
        | .error exception => (.started (.error exception), s)
        | .ok _ =>
          Prod.map (fun result => .started (.ok result)) id (finish
            (inSession adapter c correlationId now session
              (Direct.startTransmission adapter now clientId scope membershipVersion)) s)
  | .endTransmission transmissionId =>
    Prod.map .ended id (withSession adapter c correlationId now
      "a session is required before ending a transmission" s
      fun _ => Direct.endTransmission adapter now transmissionId)

/-! ## Clients that share a control plane -/

/-- Any number of clients, and what has become of their calls so far. -/
structure Shared (κ σ : Type) where
  client : κ → ControlPlaneClient
  server : σ
  outcomes : List (κ × ControlPlaneClient.Outcome) := []

structure Turn (κ : Type) where
  caller : κ
  call : Call
  correlationId : CorrelationId
  now : TimePoint

/-- The client after a call; a new session replaces the old one. -/
def ControlPlaneClient.after (c : ControlPlaneClient) :
    ControlPlaneClient.Outcome → ControlPlaneClient
  | .session client _ => client
  | _ => c

variable {κ : Type} [DecidableEq κ]

/-- A turn, where `perform` says what becomes of a call. -/
def Shared.play
    (perform : ControlPlaneClient → CorrelationId → TimePoint → σ → Call →
      ControlPlaneClient.Outcome × σ)
    (s : Shared κ σ) (turn : Turn κ) : Shared κ σ :=
  let c := s.client turn.caller
  let (outcome, server) := perform c turn.correlationId turn.now s.server turn.call
  { client := Function.update s.client turn.caller (c.after outcome)
    server
    outcomes := s.outcomes ++ [(turn.caller, outcome)] }

end VoxTree

import VoxTree.Lib.Fields
import VoxTree.LiveKitToken
import VoxTree.RateLimiter

/-!
# The control plane as it is started

`main` of the control plane: its arguments, the files they name, the accounts and the roles they
give, and the control plane that is put together from them. A text ends up in an exception where
`main` writes it out and returns 1. The database is left to the caller, which gives the version of
its schema or what opening it throws, and what earlier runs have left in it.
-/

namespace VoxTree

open Fields

/-! ## Credentials -/

/-- `constantTimeEqual`: the loop looks at every byte, whatever it has found. -/
def constantTimeEqual (left right : Bytes) : Bool :=
  let maximumSize := max left.length right.length
  let difference := (List.range maximumSize).foldl (fun difference index =>
    difference ||| (left.getD index 0 ^^^ right.getD index 0).toNat) (left.length ^^^ right.length)
  difference = 0

/-- The loop that takes the ends of lines off. -/
def stripLineEnds (credential : Bytes) : Bytes :=
  (credential.reverse.dropWhile fun character => character = 0x0d || character = 0x0a).reverse

/-- `readCredentialFile` of a file that is not there or has these contents. -/
def readCredentialFile (file : Option Bytes) (description : String) : Except Bytes Bytes :=
  match file with
  | none => .error (bytes "Cannot open the " ++ bytes description ++ bytes " file.")
  | some contents =>
    let credential := stripLineEnds contents
    if credential = [] then .error (bytes "The " ++ bytes description ++ bytes " file is empty.")
    else .ok credential

/-- `RandomIdentifiers`: what it generates, which is never the same for two sessions. -/
structure RandomIdentifiers where
  sessionIds : SessionIdGenerator
  next : ℕ → TransmissionId

/-! ## Identity providers -/

theorem fifteenMinutes_pos : (0 : Milliseconds) < 900000 := by decide

theorem thirtySeconds_pos : (0 : Milliseconds) < 30000 := by decide

/-- What a provider gives a player who presented his credential, for fifteen minutes. -/
def verified (playerId : PlayerId) : VerifiedIdentity := ⟨playerId, 900000, fifteenMinutes_pos⟩

structure BootstrapIdentityProvider where
  credential : Bytes
  player : PlayerId

def BootstrapIdentityProvider.verify (provider : BootstrapIdentityProvider) (credential : Bytes) :
    Except SessionAuthenticationError VerifiedIdentity :=
  if !constantTimeEqual credential provider.credential then .error .invalidCredentials
  else .ok (verified provider.player)

structure DeploymentIdentity where
  credential : Bytes
  playerId : PlayerId
  allowedDevices : List Bytes

structure MultiUserIdentityProvider where
  identities : List DeploymentIdentity

namespace MultiUserIdentityProvider

def invalidRow (lineNumber : ℕ) : Bytes :=
  bytes "Invalid identity file row " ++ decimal lineNumber ++ bytes "."

def duplicateRow (lineNumber : ℕ) : Bytes :=
  bytes "Duplicate credential or player in identity row " ++ decimal lineNumber ++ bytes "."

def noAllowedDevice : Bytes := bytes "Identity row has no allowed device."

/-- The line without the carriage return of a line end of two characters. -/
def withoutReturn (devices : Bytes) : Bytes :=
  if devices.getLast? = some 0x0d then devices.dropLast else devices

/-- The body of the loop over the lines. -/
def readRow (identities : List DeploymentIdentity) (lineNumber : ℕ) (line : Bytes) :
    Except Bytes (List DeploymentIdentity) :=
  if line = [] ∨ line.head? = some 0x23 then .ok identities
  else
    match getline 0x09 line with
    | none => .error (invalidRow lineNumber)
    | some (credential, fields) =>
      match getline 0x09 fields with
      | none => .error (invalidRow lineNumber)
      | some (player, fields) =>
        match getline 0x0a fields with
        | none => .error (invalidRow lineNumber)
        | some (devices, _) =>
          if h : credential = [] ∨ player = [] ∨ devices = [] then .error (invalidRow lineNumber)
          else
            let devices := withoutReturn devices
            if devices = [] then .error noAllowedDevice
            else if identities.any fun identity =>
                constantTimeEqual credential identity.credential
                  || identity.playerId.value = player then
              .error (duplicateRow lineNumber)
            else
              let allowedDevices := (pieces 0x2c devices).filter fun device => device ≠ []
              if allowedDevices = [] then .error noAllowedDevice
              else
                .ok (identities ++
                  [⟨credential, ⟨player, fun hempty => h (.inr (.inl hempty))⟩, allowedDevices⟩])

/-- The loop. -/
def readRows (identities : List DeploymentIdentity) (lineNumber : ℕ) :
    List Bytes → Except Bytes (List DeploymentIdentity)
  | [] => .ok identities
  | line :: lines =>
    (readRow identities (lineNumber + 1) line).bind fun identities =>
      readRows identities (lineNumber + 1) lines

/-- The constructor, of a file that is not there or has these contents. -/
def make (file : Option Bytes) : Except Bytes MultiUserIdentityProvider :=
  match file with
  | none => .error (bytes "Cannot open the identity file.")
  | some contents =>
    (readRows [] 0 (pieces 0x0a contents)).bind fun identities =>
      if identities.length < 2 then
        .error (bytes "Production identity mode requires at least two configured accounts.")
      else .ok ⟨identities⟩

variable (provider : MultiUserIdentityProvider)

/-- The identity that the loop is left with: the last one whose credential it is. -/
def selected (credential : Bytes) : Option DeploymentIdentity :=
  provider.identities.foldl (fun selected identity =>
    if constantTimeEqual credential identity.credential then some identity else selected) none

def verify (credential : Bytes) (deviceId : DeviceId) :
    Except SessionAuthenticationError VerifiedIdentity :=
  match provider.selected credential with
  | none => .error .invalidCredentials
  | some identity =>
    if identity.allowedDevices.contains (bytes "*")
        || identity.allowedDevices.contains deviceId.value then
      .ok (verified identity.playerId)
    else .error .deviceNotAllowed

end MultiUserIdentityProvider

inductive IdentityProvider
  | bootstrap (provider : BootstrapIdentityProvider)
  | multiUser (provider : MultiUserIdentityProvider)

def IdentityProvider.verify (provider : IdentityProvider) (credential : Bytes)
    (deviceId : DeviceId) : Except SessionAuthenticationError VerifiedIdentity :=
  match provider with
  | .bootstrap provider => provider.verify credential
  | .multiUser provider => provider.verify credential deviceId

/-! ## Roles and presence -/

/-- `MembershipRoleAuthorizer::hasRole`. -/
def hasRole (s : Store) (actor : PlayerId) (role : String) : Bool :=
  match s.memberships[actor]? with
  | none => false
  | some context =>
    match context.snapshot.find actor with
    | none => false
    | some membership => membership.roleIds.any fun roleId => roleId.value = bytes role

namespace MembershipRoleAuthorizer

def canInterrupt (s : Store) (actor : PlayerId) (_ : TransmissionId) : Bool :=
  hasRole s actor "moderator" || hasRole s actor "administrator"

def canRead (s : Store) (actor _subject : PlayerId) : Bool := hasRole s actor "administrator"

def canRemove (s : Store) (actor _subject : PlayerId) : Bool := hasRole s actor "administrator"

def canReplace (s : Store) (actor _subject : PlayerId) : Bool := hasRole s actor "administrator"

end MembershipRoleAuthorizer

/-- `MembershipTransportPresenceProvider::connectedScopeCount`. -/
def connectedScopeCount (s : Store) (playerId : PlayerId) : ℕ :=
  match s.memberships[playerId]? with
  | none => 0
  | some context =>
    match context.snapshot.find playerId with
    | none => 0
    | some membership => if membership.connected then 1 else 0

/-! ## What the adapter is wrapped in -/

structure RuntimeState (σ : Type) where
  api : σ
  requestCount : UInt64 := 0
  errorCount : UInt64 := 0

/-- `RuntimeHttpHandler`, with what it reads of the store, of the publication controller and of the
repository. -/
structure RuntimeHttpHandler (σ : Type) where
  api : HttpRequest → TimePoint → σ → HttpResponse × σ
  activeCount : σ → ℕ
  failureCount : σ → UInt64
  droppedAuditEventCount : σ → UInt64

namespace RuntimeHttpHandler

variable {σ : Type} (handler : RuntimeHttpHandler σ)

def metricsBody (s : RuntimeState σ) : Bytes :=
  bytes "hvc_http_requests_total " ++ decimal s.requestCount.toNat
    ++ bytes "\nhvc_http_error_responses_total " ++ decimal s.errorCount.toNat
    ++ bytes "\nhvc_active_transmissions " ++ decimal (handler.activeCount s.api)
    ++ bytes "\nhvc_livekit_operation_failures_total "
    ++ decimal (handler.failureCount s.api).toNat
    ++ bytes "\nhvc_sqlite_dropped_audit_events_total "
    ++ decimal (handler.droppedAuditEventCount s.api).toNat ++ bytes "\n"

def metricsResponse (s : RuntimeState σ) : HttpResponse where
  statusCode := 200
  headers := ((∅ : Headers).insert (bytes "cache-control") (bytes "no-store")).insert
    (bytes "content-type") (bytes "text/plain; version=0.0.4; charset=utf-8") |>.insert
    (bytes "x-hvc-api-version") Network.controlPlaneApiVersion
  body := handler.metricsBody s

def isMetrics (request : HttpRequest) : Bool :=
  request.method = bytes "GET" && request.target = bytes "/api/v1/metrics"

def handle (request : HttpRequest) (now : TimePoint) (s : RuntimeState σ) :
    HttpResponse × RuntimeState σ :=
  let s := { s with requestCount := s.requestCount + 1 }
  if isMetrics request then (handler.metricsResponse s, s)
  else
    let r := handler.api request now s.api
    (r.1, { s with
      api := r.2
      errorCount := if 400 ≤ r.1.statusCode then s.errorCount + 1 else s.errorCount })

end RuntimeHttpHandler

/-! ## Arguments -/

namespace Deployment

structure Options where
  databasePath : Bytes := bytes "hvc-control-plane.db"
  listenAddress : Bytes := []
  port : ℕ := 8080
  httpWorkers : ℕ := 8
  httpQueueCapacity : ℕ := 64
  bootstrapTokenFile : Bytes := []
  bootstrapPlayer : Bytes := []
  identityFile : Bytes := []
  livekitUrl : Bytes := []
  livekitControlUrl : Bytes := []
  livekitApiKey : Bytes := []
  livekitApiSecretFile : Bytes := []
  showHelp : Bool := false

def parsePort (value : Bytes) : Except Bytes ℕ :=
  match fromChars value with
  | some port =>
    if port = 0 ∨ 65535 < port then
      .error (bytes "The port must be an integer from 1 through 65535.")
    else .ok port
  | none => .error (bytes "The port must be an integer from 1 through 65535.")

def parsePositiveSize (value : Bytes) (description : String) : Except Bytes ℕ :=
  match fromChars value with
  | some parsed =>
    if parsed = 0 then .error (bytes description ++ bytes " must be a positive integer.")
    else .ok parsed
  | none => .error (bytes description ++ bytes " must be a positive integer.")

/-- The chain of comparisons in `parseOptions`, for an argument and its value. -/
def parseOption (options : Options) (argument value : Bytes) : Except Bytes Options :=
  if argument = bytes "--database" then .ok { options with databasePath := value }
  else if argument = bytes "--listen" then .ok { options with listenAddress := value }
  else if argument = bytes "--port" then
    (parsePort value).map fun port => { options with port }
  else if argument = bytes "--http-workers" then
    (parsePositiveSize value "HTTP worker count").map fun httpWorkers =>
      { options with httpWorkers }
  else if argument = bytes "--http-queue-capacity" then
    (parsePositiveSize value "HTTP queue capacity").map fun httpQueueCapacity =>
      { options with httpQueueCapacity }
  else if argument = bytes "--bootstrap-token-file" then
    .ok { options with bootstrapTokenFile := value }
  else if argument = bytes "--bootstrap-player" then .ok { options with bootstrapPlayer := value }
  else if argument = bytes "--identity-file" then .ok { options with identityFile := value }
  else if argument = bytes "--livekit-url" then .ok { options with livekitUrl := value }
  else if argument = bytes "--livekit-control-url" then
    .ok { options with livekitControlUrl := value }
  else if argument = bytes "--livekit-api-key" then .ok { options with livekitApiKey := value }
  else if argument = bytes "--livekit-api-secret-file" then
    .ok { options with livekitApiSecretFile := value }
  else .error (bytes "Unknown argument: " ++ argument)

/-- The loop of `parseOptions`; the arguments are those behind the name of the program. -/
def parseOptions (options : Options) : List Bytes → Except Bytes Options
  | [] => .ok options
  | [argument] =>
    if argument = bytes "--help" then .ok { options with showHelp := true }
    else .error (bytes "A value is missing after " ++ argument ++ bytes ".")
  | argument :: value :: rest =>
    if argument = bytes "--help" then parseOptions { options with showHelp := true } (value :: rest)
    else (parseOption options argument value).bind fun options => parseOptions options rest

end Deployment

/-! ## Starting -/

/-- Where `LiveKitRoomServiceClient` connects to. -/
structure LiveKitRoomServiceClient where
  host : Bytes
  port : Bytes

/-- The constructor. Without a colon the whole authority is the host. -/
def LiveKitRoomServiceClient.make (serverUrl : Bytes) : Except Bytes LiveKitRoomServiceClient :=
  let connect (rest : Bytes) : Except Bytes LiveKitRoomServiceClient :=
    let authority := rest.takeWhile (· ≠ 0x2f)
    let client : LiveKitRoomServiceClient :=
      if authority.contains 0x3a then
        ⟨(authority.reverse.dropWhile (· ≠ 0x3a)).tail.reverse,
          (authority.reverse.takeWhile (· ≠ 0x3a)).reverse⟩
      else ⟨authority, bytes "7880"⟩
    if client.host = [] ∨ client.port = [] then
      .error (bytes "LiveKit control URL has an empty host or port.")
    else .ok client
  if (bytes "ws://").isPrefixOf serverUrl then connect (serverUrl.drop (bytes "ws://").length)
  else if (bytes "http://").isPrefixOf serverUrl then
    connect (serverUrl.drop (bytes "http://").length)
  else .error (bytes "LiveKit control URL must use ws:// or http://.")

/-- What the LiveKit options give. -/
structure LiveKitDeployment where
  credentials : LiveKit.LiveKitCredentials
  roomService : LiveKitRoomServiceClient

/-- What the server is run with. -/
structure Deployment where
  options : Deployment.Options
  identities : IdentityProvider
  livekit : Option LiveKitDeployment

namespace Deployment

variable (files : Bytes → Option Bytes) (options : Options)

/-- The identity provider that the options ask for. -/
def identityProvider : Except Bytes IdentityProvider :=
  if options.identityFile ≠ [] then
    (MultiUserIdentityProvider.make (files options.identityFile)).map .multiUser
  else
    (readCredentialFile (files options.bootstrapTokenFile) "bootstrap token").bind fun credential =>
      match StrongId.make options.bootstrapPlayer with
      | .ok player => .ok (.bootstrap ⟨credential, player⟩)
      | .error e => .error (bytes e.message)

def hasBootstrap : Prop := options.bootstrapTokenFile ≠ [] ∨ options.bootstrapPlayer ≠ []

def hasAnyLivekitOption : Prop :=
  options.livekitUrl ≠ [] ∨ options.livekitControlUrl ≠ [] ∨ options.livekitApiKey ≠ []
    ∨ options.livekitApiSecretFile ≠ []

def hasAllLivekitOptions : Prop :=
  options.livekitUrl ≠ [] ∧ options.livekitApiKey ≠ [] ∧ options.livekitApiSecretFile ≠ []

instance : Decidable (hasBootstrap options) := inferInstanceAs (Decidable (_ ∨ _))

instance : Decidable (hasAnyLivekitOption options) :=
  inferInstanceAs (Decidable (_ ∨ _ ∨ _ ∨ _))

instance : Decidable (hasAllLivekitOptions options) := inferInstanceAs (Decidable (_ ∧ _ ∧ _))

/-- The credentials, which come first, and the client of the room service. -/
def livekitDeployment : Except Bytes LiveKitDeployment :=
  (readCredentialFile (files options.livekitApiSecretFile) "LiveKit API secret").bind fun secret =>
    if h : options.livekitApiKey ≠ [] ∧ secret ≠ [] then
      (LiveKitRoomServiceClient.make
        (if options.livekitControlUrl = [] then options.livekitUrl
          else options.livekitControlUrl)).map
        fun client => ⟨⟨options.livekitApiKey, secret, h.1, h.2⟩, client⟩
    else .error (bytes "LiveKit API key and secret must not be empty")

/-- `main` with an address to listen on, up to the start of the server. -/
def configure : Except Bytes Deployment :=
  if hasBootstrap options
      ∧ (options.bootstrapTokenFile = [] ∨ options.bootstrapPlayer = []) then
    .error (bytes "Bootstrap mode requires both --bootstrap-token-file and --bootstrap-player.")
  else if hasBootstrap options ↔ options.identityFile ≠ [] then
    .error (bytes "--listen requires exactly one of --identity-file or bootstrap mode.")
  else
    (identityProvider files options).bind fun identities =>
      if hasAnyLivekitOption options ∧ ¬hasAllLivekitOptions options then
        .error (bytes "LiveKit integration requires URL, API key and API secret file.")
      else if hasAllLivekitOptions options then
        (livekitDeployment files options).map fun livekit => ⟨options, identities, some livekit⟩
      else .ok ⟨options, identities, none⟩

/-- What `main` gets to. -/
inductive Started
  | usage
  | schemaReady (version : ℕ)
  | serving (deployment : Deployment)

/-- `main` of the Linux build, up to the start of the server. -/
def main (arguments : List Bytes) (database : Bytes → Except Bytes ℕ) : Except Bytes Started :=
  (parseOptions {} arguments).bind fun options =>
    if options.showHelp then .ok .usage
    else
      (database options.databasePath).bind fun version =>
        if options.listenAddress = [] then
          if hasBootstrap options ∨ options.identityFile ≠ [] ∨ hasAnyLivekitOption options then
            .error (bytes "Authentication and LiveKit options require --listen.")
          else .ok (.schemaReady version)
        else (configure files options).map .serving

/-! ## The control plane that is served -/

/-- Ten starts and twenty ends a second. -/
def rateLimiter : InMemoryTransmissionRateLimiter :=
  .start ⟨10, 1000, by decide, by decide⟩ ⟨20, 1000, by decide, by decide⟩

/-- What `main` puts together before it starts the server. -/
def plane {ω : Type} (deployment : Deployment) (observer : LifecycleObserver ω)
    (random : RandomIdentifiers) : ControlPlane ω InMemoryTransmissionRateLimiter where
  observer
  verify credential deviceId _ := pure (deployment.identities.verify credential deviceId)
  sessionIds := random.sessionIds
  sessionPolicy := ⟨900000, fifteenMinutes_pos⟩
  transmissionIds := random.next
  allow playerId action now := ExceptT.mk fun limiter =>
    let r := limiter.allow playerId action now
    (.ok r.1, r.2)
  canInterrupt s _ actor transmissionId :=
    .ok (MembershipRoleAuthorizer.canInterrupt s actor transmissionId)
  maximumDuration := 30000
  administrationAuthorizer := some
    { canRead := fun s _ actor subject => .ok (MembershipRoleAuthorizer.canRead s actor subject)
      canRemove := fun s _ actor subject =>
        .ok (MembershipRoleAuthorizer.canRemove s actor subject)
      canReplace := fun s _ actor subject =>
        .ok (MembershipRoleAuthorizer.canReplace s actor subject) }
  voiceGrants := deployment.livekit.map fun _ => ⟨30000, thirtySeconds_pos⟩
  voiceGrantIssuer := deployment.livekit.map fun livekit claims =>
    .ok (LiveKit.LiveKitTokenAdapter.issue livekit.credentials claims)
  voiceServerUrl := deployment.options.livekitUrl
  transportPresence := some fun s _ playerId => connectedScopeCount s playerId

/-- The handler that the server is run with. -/
def runtimeApi {ω : Type} (deployment : Deployment) (observer : LifecycleObserver ω)
    (random : RandomIdentifiers) (failureCount droppedAuditEventCount : ω → UInt64) :
    RuntimeHttpHandler (ControlPlaneState ω InMemoryTransmissionRateLimiter) where
  api := (deployment.plane observer random).adapter.handle
  activeCount s := s.store.activeTransmissions.size
  failureCount s := failureCount s.audited.observer
  droppedAuditEventCount s := droppedAuditEventCount s.audited.observer

/-- The sessions and memberships that the database holds. Its sessions are found under their own
identifiers, which are among the first that have been generated. -/
structure DatabaseContents (sessionIds : SessionIdGenerator) where
  sessions : Std.ExtTreeMap SessionId AuthenticatedSession := ∅
  memberships : Std.ExtTreeMap PlayerId AuthoritativeMembershipContext := ∅
  sessionsIssued : ℕ := 0
  keyed : ∀ (id : SessionId) (session : AuthenticatedSession),
    sessions[id]? = some session → session.sessionId = id
  issued : ∀ (id : SessionId) (session : AuthenticatedSession),
    sessions[id]? = some session → ∃ n < sessionsIssued, id = sessionIds.nextSession n

variable {ω : Type} (deployment : Deployment) (observer : LifecycleObserver ω)
  (random : RandomIdentifiers) (failureCount droppedAuditEventCount : ω → UInt64)
  (contents : DatabaseContents random.sessionIds)

/-- Nobody is speaking yet, and the repositories behind the store have what the database holds. -/
def start (w : ω) : ControlPlaneState ω InMemoryTransmissionRateLimiter where
  audited := ⟨{ sessions := contents.sessions, memberships := contents.memberships }, w, [], 0⟩
  sessionsIssued := contents.sessionsIssued
  outside := rateLimiter

/-- Requests go to the handler, and a restart counts them anew. -/
def next (s : RuntimeState (ControlPlaneState ω InMemoryTransmissionRateLimiter)) :
    ControlPlaneStep ω InMemoryTransmissionRateLimiter →
      RuntimeState (ControlPlaneState ω InMemoryTransmissionRateLimiter)
  | .request request now =>
    ((deployment.runtimeApi observer random failureCount droppedAuditEventCount).handle request now
      s).2
  | .restart w limiter =>
    { api := (deployment.plane observer random).next s.api (.restart w limiter) }
  | step => { s with api := (deployment.plane observer random).next s.api step }

def run (w : ω) (steps : List (ControlPlaneStep ω InMemoryTransmissionRateLimiter)) :
    RuntimeState (ControlPlaneState ω InMemoryTransmissionRateLimiter) :=
  steps.foldl (deployment.next observer random failureCount droppedAuditEventCount)
    { api := start random contents w }

end Deployment

end VoxTree

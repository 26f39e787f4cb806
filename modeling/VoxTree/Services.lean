import VoxTree.Transmission

/-!
# What the control-plane adapter asks of the application

The services behind the HTTP adapter, over any state `σ`. A service may throw; the adapter tells
`std::invalid_argument` from the other exceptions, and what was changed before stays changed.
-/

namespace VoxTree

inductive ServiceException
  | invalidArgument | other
  deriving DecidableEq

abbrev Service (σ : Type) (α : Type) := ExceptT ServiceException (StateM σ) α

structure AuthenticateSessionCommand where
  credential : Bytes
  deviceId : DeviceId
  correlationId : CorrelationId

inductive SessionAuthenticationError
  | invalidCredentials | deviceNotAllowed | accountDisabled | rateLimited
  deriving DecidableEq

structure ModerateTransmissionCommand where
  sessionId : SessionId
  deviceId : DeviceId
  transmissionId : TransmissionId
  correlationId : CorrelationId

inductive ModerateTransmissionError
  | sessionNotFound | sessionDeviceMismatch | sessionExpired | notAuthorized | transmissionNotFound
  deriving DecidableEq

/-! ## Voice grants -/

structure VoiceGrantClaims where
  playerId : PlayerId
  deviceId : DeviceId
  membershipVersion : ℕ
  groupId : GroupId
  specializationId : SpecializationId
  teamId : TeamId
  transmitScopes : List VoiceScope
  receiveScopes : List VoiceScope
  expiresAt : TimePoint

inductive VoiceGrantError
  | sessionNotFound | sessionDeviceMismatch | sessionExpired | membershipUnavailable
  | playerNotInMembership | voiceNotConnected
  deriving DecidableEq

structure IssuedVoiceRoomGrant where
  scope : VoiceScope
  roomName : Bytes
  accessToken : Bytes

/-! ## Directory -/

inductive DirectoryNodeType
  | group | specialization | team
  deriving DecidableEq

structure DirectoryNode where
  nodeId : Bytes
  nodeType : DirectoryNodeType
  parentNodeId : Option Bytes
  displayName : Bytes
  sortIndex : ℕ

structure PublicDirectoryRole where
  roleId : RoleId
  displayName : Bytes
  version : ℕ

structure DirectoryParticipant where
  playerId : PlayerId
  displayName : Bytes
  primaryTeamId : TeamId
  publicRoleIds : List RoleId

structure DirectorySnapshot where
  version : ℕ
  groupId : GroupId
  nodes : List DirectoryNode
  publicRoles : List PublicDirectoryRole
  participants : List DirectoryParticipant

inductive DirectoryReadError
  | directoryUnavailable | directoryLimitExceeded
  deriving DecidableEq

inductive DirectoryPresenceState
  | offline | online
  deriving DecidableEq

structure DirectoryPresenceEntry where
  playerId : PlayerId
  state : DirectoryPresenceState

inductive DirectoryPresenceMode
  | snapshot | delta
  deriving DecidableEq

structure DirectoryPresenceSnapshot where
  version : ℕ
  mode : DirectoryPresenceMode
  observedAt : TimePoint
  entries : List DirectoryPresenceEntry

inductive DirectoryPresenceReadError
  | directoryUnavailable | snapshotRequired
  deriving DecidableEq

/-! ## Interfaces -/

variable (σ : Type)

/-- `IMutableSessionRepository`, as far as the adapter uses it. -/
structure SessionRepository where
  find : SessionId → Service σ (Option AuthenticatedSession)
  upsert : AuthenticatedSession → Service σ Unit

/-- `IAuthoritativeMembershipProvider`. -/
structure MembershipProvider where
  currentFor : PlayerId → Service σ (Option AuthoritativeMembershipContext)

/-- `TransmissionApplicationService`, as far as the adapter uses it. -/
structure TransmissionService where
  start : StartTransmissionCommand → TimePoint →
    Service σ (Except StartTransmissionError ActiveTransmission)
  «end» : EndTransmissionCommand → TimePoint →
    Service σ (Except EndTransmissionError EndedTransmission)
  interruptForModeration : ModerateTransmissionCommand → TimePoint →
    Service σ (Except ModerateTransmissionError EndedTransmission)

/-- `IAdministrativeMembershipService`. -/
structure AdministrativeMembershipService extends MembershipProvider σ where
  replaceMembership : PlayerId → AuthoritativeMembershipContext → TimePoint → CorrelationId →
    Service σ (Except MembershipUpdateError (List EndedTransmission))
  removeMembership : PlayerId → TimePoint → CorrelationId → Service σ (List EndedTransmission)

/-- `IAdministrativeMembershipAuthorizer`. -/
structure AdministrativeMembershipAuthorizer where
  canRead : PlayerId → PlayerId → Service σ Bool
  canRemove : PlayerId → PlayerId → Service σ Bool
  canReplace : PlayerId → PlayerId → Service σ Bool

/-- `DirectoryApplicationService`, as far as the adapter uses it. -/
structure DirectoryService where
  directoryFor : PlayerId → Service σ (Except DirectoryReadError DirectorySnapshot)
  presenceFor : PlayerId → Option ℕ → TimePoint →
    Service σ (Except DirectoryPresenceReadError DirectoryPresenceSnapshot)

end VoxTree

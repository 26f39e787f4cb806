import VoxTree.Services

/-!
# Deriving voice grants

`VoiceGrantAuthorizationService` over the store: which scopes a player may send to and receive
from, evaluated on its own and not by asking for a start.
-/

namespace VoxTree

/-- `VoiceGrantPolicy`, with what its constructor checks. -/
structure VoiceGrantPolicy where
  lifetime : Milliseconds
  positive : 0 < lifetime

namespace VoiceGrantAuthorizationService

def mayTransmit (context : AuthoritativeMembershipContext) (membership : VoiceMembership)
    (scope : VoiceScope) : Bool :=
  !membership.transmitMuted && membership.voiceBanStatus = .none
    && context.rolePolicy.canTransmit membership.roleIds scope

def derive (s : Store) (policy : VoiceGrantPolicy) (sessionId : SessionId) (deviceId : DeviceId)
    (now : TimePoint) : Except VoiceGrantError VoiceGrantClaims :=
  match requireSession .sessionNotFound .sessionDeviceMismatch .sessionExpired s sessionId deviceId
      now with
  | .error e => .error e
  | .ok session =>
    match s.memberships[session.playerId]? with
    | none => .error .membershipUnavailable
    | some context =>
      match context.snapshot.find session.playerId with
      | none => .error .playerNotInMembership
      | some membership =>
        if !membership.connected then .error .voiceNotConnected
        else
          let scopes := context.snapshot.hierarchy.scopes.map ScopeDefinition.scope
          .ok
            { playerId := session.playerId
              deviceId
              membershipVersion := context.snapshot.version
              groupId := membership.groupId
              specializationId := membership.specializationId
              teamId := membership.teamId
              transmitScopes := scopes.filter (mayTransmit context membership)
              receiveScopes := scopes.filter (receiveRight context membership)
              expiresAt := min session.expiresAt (now + policy.lifetime.toNanoseconds) }

end VoiceGrantAuthorizationService

end VoxTree

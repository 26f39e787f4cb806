import VoxTree.ControlPlane
import VoxTree.Lib.Machine

/-!
# Edits of memberships between starts

An administrator replaces or removes one player's membership at a time, in the context stored for
that player; the contexts stored for other players list him as before. A start resolves the
sender's own context.
-/

namespace VoxTree

variable {ω ρ : Type}

open Network

inductive AdministrationStep
  | replace (authenticated : RequestSession) (subject : PlayerId) (body : JsonObject)
      (now : TimePoint)
  | remove (subject : PlayerId) (now : TimePoint) (correlationId : CorrelationId)
  | start (command : StartTransmissionCommand) (now : TimePoint)

namespace ControlPlane

variable (plane : ControlPlane ω ρ)

/-- What a start answers in a state. -/
def startAnswer (s : ControlPlaneState ω ρ) (command : StartTransmissionCommand) (now : TimePoint) :
    Except ServiceException (Except StartTransmissionError ActiveTransmission) :=
  ((plane.transmissions.start command now).run.run s).1

def administer (s : ControlPlaneState ω ρ) :
    AdministrationStep → Option (ControlPlaneState ω ρ)
  | .replace authenticated subject body now =>
    some ((replaceMembershipResponse authenticated subject body plane.administration now).run.run
      s).2
  | .remove subject now correlationId =>
    some ((plane.administration.removeMembership subject now correlationId).run.run s).2
  | .start command now => some ((plane.transmissions.start command now).run.run s).2

end ControlPlane

namespace VoiceMembership

/-- The two memberships are of the same team, so of the same node in every scope. -/
def SamePath (m m' : VoiceMembership) : Prop :=
  m.groupId = m'.groupId ∧ m.specializationId = m'.specializationId ∧ m.teamId = m'.teamId

/-- The player could hear somebody. -/
def Listening (m : VoiceMembership) : Prop := m.connected = true ∧ m.canReceiveVoice = true

end VoiceMembership

namespace Store

variable (s : Store)

/-- The player's own context has a membership of his with which he listens where `m` does. -/
def Confirms (m : VoiceMembership) : Prop :=
  ∃ context own, s.memberships[m.playerId]? = some context
    ∧ context.snapshot.find m.playerId = some own ∧ own.Listening ∧ own.SamePath m

/-- Whoever listens in anybody's context listens in his own, in the same place. -/
def Agrees : Prop :=
  ∀ (owner : PlayerId) (context : AuthoritativeMembershipContext) (m : VoiceMembership),
    s.memberships[owner]? = some context → m ∈ context.snapshot.memberships → m.Listening →
      s.Confirms m

/-- A context other than the player's own lists him as listening. -/
def ListedElsewhere (subject : PlayerId) (m : VoiceMembership) : Prop :=
  m.playerId = subject ∧ m.Listening ∧ ∃ owner context, owner ≠ subject
    ∧ s.memberships[owner]? = some context ∧ m ∈ context.snapshot.memberships

/-- The player's own context places him in the sender's node of the scope, where he listens. -/
def Placed (t : AuthorizedTransmission) (p : PlayerId) : Prop :=
  ∃ context own senderContext sender, s.memberships[p]? = some context
    ∧ context.snapshot.find p = some own ∧ own.Listening
    ∧ s.memberships[t.senderPlayerId]? = some senderContext
    ∧ senderContext.snapshot.find t.senderPlayerId = some sender
    ∧ scopeNodeId own t.scope = scopeNodeId sender t.scope

end Store

/-- The body leaves a player listening where `m` does. -/
structure KeepsListening (body : JsonObject) (m : VoiceMembership) : Prop where
  group : stringField body (bytes "group_id") = some m.groupId.value
  specialization : stringField body (bytes "specialization_id") = some m.specializationId.value
  team : stringField body (bytes "team_id") = some m.teamId.value
  connected : booleanField body (bytes "connected") = some true
  can_receive : booleanField body (bytes "can_receive_voice") = some true

/-- The edit does not change what other players' contexts say of its subject as a listener. -/
def ListenersKept (s : ControlPlaneState ω ρ) : AdministrationStep → Prop
  | .replace _ subject body _ => ∀ m, s.store.ListedElsewhere subject m → KeepsListening body m
  | .remove subject _ _ => ∀ m, ¬s.store.ListedElsewhere subject m
  | .start .. => True

end VoxTree

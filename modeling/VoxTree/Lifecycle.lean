import VoxTree.Store
import VoxTree.Lib.Deferred

/-!
# Lifecycle notifications across threads

`activate`, `end` and `interrupt` notify the lifecycle observer under the mutex; `removeSession`,
`updateMembership`, `replaceMembership`, `removeMembership` and `expireTimedOut` after releasing
it. The store is here the locked part of a component whose messages are the notifications, and the
observer accepts every start.
-/

namespace VoxTree

inductive LifecycleEvent
  | started (transmission : ActiveTransmission)
  | ended (transmission : EndedTransmission)
  deriving DecidableEq

/-- Whose publication in which room: the room is given by the scope and its node. -/
structure Publication where
  senderPlayerId : PlayerId
  scope : VoiceScope
  scopeNodeId : Bytes
  deriving DecidableEq

def ActiveTransmission.publication (t : ActiveTransmission) : Publication :=
  ⟨t.authorization.senderPlayerId, t.authorization.scope, t.scopeNodeId⟩

def LifecycleEvent.publication : LifecycleEvent → Publication
  | .started t => t.publication
  | .ended e => e.transmission.publication

/-- The observer that accepts every start and writes down what it is told. -/
def recorder : LifecycleObserver (List LifecycleEvent) where
  onStarted t events := (true, events ++ [.started t])
  onEnded e events := events ++ [.ended e]

/-- The store with its notifications: those made under the mutex, then those left for later. -/
def lifecycle : Deferred.Component Store StoreOp LifecycleEvent Unit Unit where
  call s op :=
    let r := op.locked recorder s []
    (r.2.1, r.2.2, r.1.map .ended)
  receive := fun _ _ _ => ()

abbrev LifecycleConfig := Deferred.Config Store LifecycleEvent Unit

abbrev LifecycleAction := Deferred.Action StoreOp LifecycleEvent Unit

/-- No start is accepted while a notification for the same publication is still to be delivered. -/
def StartsSettled (c : LifecycleConfig) : LifecycleAction → Prop
  | .call _ op _ => ∀ entry, op.activation c.state = some entry →
      Deferred.Settled LifecycleEvent.publication c entry.publication
  | .deliver _ _ => True

/-- `StartsSettled`, looking at the threads below `n` only. -/
def startsSettledOn (n : ℕ) (c : LifecycleConfig) : LifecycleAction → Bool
  | .call _ op _ => (op.activation c.state).all fun entry =>
      Deferred.settledOn LifecycleEvent.publication n c entry.publication
  | .deliver _ _ => true

end VoxTree

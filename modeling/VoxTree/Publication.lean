import VoxTree.Store

/-!
# Publication rights on the room service

`LiveKitPublicationController` observes the store and asks the room service, one request after the
other, to change a participant's permission. What the room service does with a request and what
comes back are independent of each other, except that withdrawing the right to publish always
takes effect.
-/

namespace VoxTree

/-- `publicationRoom`. -/
def publicationRoom (t : ActiveTransmission) : Bytes :=
  match t.authorization.scope with
  | .team => bytes "team:" ++ t.scopeNodeId
  | .specialization => bytes "specialization:" ++ t.scopeNodeId
  | .group => bytes "group:" ++ t.scopeNodeId

structure Permission where
  canPublish : Bool
  canSubscribe : Bool
  deriving DecidableEq

structure UpdateParticipantRequest where
  room : Bytes
  identity : Bytes
  permission : Permission
  deriving DecidableEq

/-- What the caller sees of the answer: an exception on the way, or the chunk the single `recv`
returned, which is empty when it returned nothing. -/
inductive Reply
  | failed
  | received (chunk : Bytes)
  deriving DecidableEq

structure Outcome where
  applied : Bool
  reply : Reply
  deriving DecidableEq

/-- The room service, the answers it is going to give, and what the controller counts. -/
structure RoomService where
  permission : Bytes → Bytes → Permission := fun _ _ => ⟨false, false⟩
  answers : ℕ → Outcome
  requests : ℕ := 0
  failureCount : UInt64 := 0

namespace RoomService

/-- The answer to the request that comes next. -/
def next (s : RoomService) : Outcome := s.answers s.requests

def apply (s : RoomService) (request : UpdateParticipantRequest) : RoomService :=
  { s with
    permission := fun room identity =>
      if room = request.room ∧ identity = request.identity then request.permission
      else s.permission room identity }

end RoomService

/-- What `updateParticipant` makes of the chunk it received. -/
def confirms (chunk : Bytes) : Bool :=
  if chunk = [] then false
  else (bytes "HTTP/1.1 200 ").isPrefixOf chunk || (bytes "HTTP/1.1 204 ").isPrefixOf chunk

/-- `LiveKitRoomServiceClient::updateParticipant`; an error is an exception. -/
def updateParticipant (request : UpdateParticipantRequest) (s : RoomService) :
    Except Unit Bool × RoomService :=
  let changed :=
    if s.next.applied || !request.permission.canPublish then s.apply request else s
  let s' := { changed with requests := s.requests + 1 }
  match s.next.reply with
  | .failed => (.error (), s')
  | .received chunk => (.ok (confirms chunk), s')

namespace LiveKitPublicationController

def update (t : ActiveTransmission) (canPublish : Bool) (s : RoomService) :
    Except Unit Bool × RoomService :=
  updateParticipant
    ⟨publicationRoom t, t.authorization.senderPlayerId.value, ⟨canPublish, t.scopeCanSubscribe⟩⟩ s

def countFailure (s : RoomService) : RoomService := { s with failureCount := s.failureCount + 1 }

def onStarted (t : ActiveTransmission) (s : RoomService) : Bool × RoomService :=
  match update t true s with
  | (.ok true, s') => (true, s')
  | (.ok false, s') => (false, countFailure s')
  | (.error _, s') => (false, countFailure s')

def onEnded (e : EndedTransmission) (s : RoomService) : RoomService :=
  match update e.transmission false s with
  | (.ok true, s') => s'
  | (.ok false, s') => countFailure s'
  | (.error _, s') => countFailure s'

end LiveKitPublicationController

def publicationController : LifecycleObserver RoomService :=
  ⟨LiveKitPublicationController.onStarted, LiveKitPublicationController.onEnded⟩

/-- The store's operations with the controller as observer, one whole call after the other. -/
def publicationRun (answers : ℕ → Outcome) (ops : List StoreOp) : Store × RoomService :=
  StoreOp.calls publicationController ops ({}, { answers })

/-- Only senders with an active transmission may publish, and only in its room. -/
def FailsClosed (c : Store × RoomService) : Prop :=
  ∀ room identity, (c.2.permission room identity).canPublish = true →
    ∃ (id : TransmissionId) (t : ActiveTransmission), c.1.activeTransmissions[id]? = some t
      ∧ publicationRoom t = room ∧ t.authorization.senderPlayerId.value = identity

/-- If the call gets as far as asking for the right to publish, then an answer other than success
means that the room service has not granted it. -/
def GrantConfirmed (c : Store × RoomService) (op : StoreOp) : Prop :=
  ∀ entry, op.activation c.1 = some entry → c.2.next.applied = true →
    ∃ chunk, c.2.next.reply = .received chunk ∧ confirms chunk = true

end VoxTree

import VoxTree.Store

/-!
# The state machines of a voice session

`ConnectionStateMachine` and `TransmissionStateMachine`, and `VoiceSessionStateMachine`, which
coordinates one of each. An operation answers whether the transition was accepted, with the state
afterwards.
-/

namespace VoxTree

inductive ConnectionState
  | disconnected | connectingTransport | refreshingMembership | restoringSubscriptions | ready
  | reconnectingTransport
  deriving DecidableEq

inductive TransmissionState
  | idle | requesting | transmitting | ending
  deriving DecidableEq

/-- A transition that is accepted where the guard holds. -/
def attempt {σ : Type*} (s : σ) (guard : Bool) (next : σ) : Bool × σ :=
  if guard then (true, next) else (false, s)

structure ConnectionStateMachine where
  state : ConnectionState := .disconnected
  membershipVersion : Option ℕ := none
  deriving DecidableEq

namespace ConnectionStateMachine

variable (c : ConnectionStateMachine)

def ready : Bool := c.state = .ready

def beginConnect : Bool × ConnectionStateMachine :=
  attempt c (c.state = .disconnected) { c with state := .connectingTransport }

def transportConnected : Bool × ConnectionStateMachine :=
  attempt c (c.state = .connectingTransport || c.state = .reconnectingTransport)
    { state := .refreshingMembership, membershipVersion := none }

def membershipRefreshed (version : ℕ) : Bool × ConnectionStateMachine :=
  attempt c (c.state = .refreshingMembership && version ≠ 0)
    { state := .restoringSubscriptions, membershipVersion := some version }

def subscriptionsRestored (version : ℕ) : Bool × ConnectionStateMachine :=
  attempt c (c.state = .restoringSubscriptions && c.membershipVersion = some version)
    { c with state := .ready }

def membershipChanged (version : ℕ) : Bool × ConnectionStateMachine :=
  attempt c (c.state = .ready && c.membershipVersion.any fun current => current < version)
    { state := .restoringSubscriptions, membershipVersion := some version }

def connectionLost : Bool × ConnectionStateMachine :=
  attempt c (c.state ≠ .disconnected && c.state ≠ .reconnectingTransport)
    { state := .reconnectingTransport, membershipVersion := none }

def disconnect : Bool × ConnectionStateMachine :=
  attempt c (c.state ≠ .disconnected) { state := .disconnected, membershipVersion := none }

end ConnectionStateMachine

/-- `TransmissionStateMachine::Context`. -/
structure TransmissionContext where
  clientRequestId : ClientTransmissionId
  transmissionId : Option TransmissionId := none
  scope : VoiceScope
  membershipVersion : ℕ
  deriving DecidableEq

structure TransmissionStateMachine where
  state : TransmissionState := .idle
  context : Option TransmissionContext := none
  lastStopReason : TransmissionStopReason := .none
  deriving DecidableEq

namespace TransmissionStateMachine

variable (t : TransmissionStateMachine)

def transmissionId : Option TransmissionId := t.context.bind TransmissionContext.transmissionId

def membershipVersion : Option ℕ := t.context.map TransmissionContext.membershipVersion

def finish (reason : TransmissionStopReason) : TransmissionStateMachine :=
  { state := .idle, context := none, lastStopReason := reason }

def requestStart (clientRequestId : ClientTransmissionId) (scope : VoiceScope)
    (membershipVersion : ℕ) : Bool × TransmissionStateMachine :=
  attempt t (t.state = .idle && membershipVersion ≠ 0)
    { state := .requesting
      context := some { clientRequestId, scope, membershipVersion }
      lastStopReason := .none }

/-- Whether the request is the one that is pending. -/
def pending (clientRequestId : ClientTransmissionId) : Bool :=
  t.state = .requesting && t.context.any fun context => context.clientRequestId = clientRequestId

def accepted (clientRequestId : ClientTransmissionId) (transmissionId : TransmissionId) :
    Bool × TransmissionStateMachine :=
  attempt t (t.pending clientRequestId)
    { t with
      state := .transmitting
      context := t.context.map fun context => { context with transmissionId := some transmissionId } }

def rejected (clientRequestId : ClientTransmissionId) : Bool × TransmissionStateMachine :=
  attempt t (t.pending clientRequestId) (finish .rejected)

/-- A request that is still pending is given up at once. -/
def requestEnd : Bool × TransmissionStateMachine :=
  if t.state = .requesting then (true, finish .pushToTalkReleased)
  else attempt t (t.state = .transmitting) { t with state := .ending }

def ended (transmissionId : TransmissionId) : Bool × TransmissionStateMachine :=
  attempt t (t.state = .ending && t.transmissionId = some transmissionId)
    (finish .pushToTalkReleased)

def interrupt (reason : TransmissionStopReason) : Bool × TransmissionStateMachine :=
  attempt t (t.state ≠ .idle && reason ≠ .none) (finish reason)

end TransmissionStateMachine

structure VoiceSessionStateMachine where
  connection : ConnectionStateMachine := {}
  transmission : TransmissionStateMachine := {}
  selectedScope : VoiceScope := .team
  deriving DecidableEq

namespace VoiceSessionStateMachine

variable (s : VoiceSessionStateMachine)

/-- An operation of the connection alone. -/
def onConnection (r : Bool × ConnectionStateMachine) : Bool × VoiceSessionStateMachine :=
  (r.1, { s with connection := r.2 })

/-- An operation of the transmission alone. -/
def onTransmission (r : Bool × TransmissionStateMachine) : Bool × VoiceSessionStateMachine :=
  (r.1, { s with transmission := r.2 })

/-- An operation of the connection that interrupts the transmission where it is accepted. -/
def interrupting (r : Bool × ConnectionStateMachine) (reason : TransmissionStopReason) :
    Bool × VoiceSessionStateMachine :=
  if !r.1 then (false, { s with connection := r.2 })
  else (true, { s with connection := r.2, transmission := (s.transmission.interrupt reason).2 })

def selectScope (scope : VoiceScope) : VoiceSessionStateMachine := { s with selectedScope := scope }

def beginConnect : Bool × VoiceSessionStateMachine := s.onConnection s.connection.beginConnect

def transportConnected : Bool × VoiceSessionStateMachine :=
  s.onConnection s.connection.transportConnected

def membershipRefreshed (version : ℕ) : Bool × VoiceSessionStateMachine :=
  s.onConnection (s.connection.membershipRefreshed version)

def subscriptionsRestored (version : ℕ) : Bool × VoiceSessionStateMachine :=
  s.onConnection (s.connection.subscriptionsRestored version)

def membershipChanged (version : ℕ) : Bool × VoiceSessionStateMachine :=
  s.interrupting (s.connection.membershipChanged version) .membershipChanged

def connectionLost : Bool × VoiceSessionStateMachine :=
  s.interrupting s.connection.connectionLost .connectionLost

def disconnect : Bool × VoiceSessionStateMachine :=
  s.interrupting s.connection.disconnect .disconnected

def requestTransmission (clientRequestId : ClientTransmissionId) :
    Bool × VoiceSessionStateMachine :=
  match s.connection.ready, s.connection.membershipVersion with
  | true, some version =>
    s.onTransmission (s.transmission.requestStart clientRequestId s.selectedScope version)
  | _, _ => (false, s)

def transmissionAccepted (clientRequestId : ClientTransmissionId)
    (transmissionId : TransmissionId) : Bool × VoiceSessionStateMachine :=
  s.onTransmission (s.transmission.accepted clientRequestId transmissionId)

def transmissionRejected (clientRequestId : ClientTransmissionId) :
    Bool × VoiceSessionStateMachine :=
  s.onTransmission (s.transmission.rejected clientRequestId)

def endTransmission : Bool × VoiceSessionStateMachine :=
  s.onTransmission s.transmission.requestEnd

def transmissionEnded (transmissionId : TransmissionId) : Bool × VoiceSessionStateMachine :=
  s.onTransmission (s.transmission.ended transmissionId)

def permissionRevoked : Bool × VoiceSessionStateMachine :=
  s.onTransmission (s.transmission.interrupt .permissionRevoked)

def transmissionTimedOut : Bool × VoiceSessionStateMachine :=
  s.onTransmission (s.transmission.interrupt .timedOut)

def transmissionTransportFailed : Bool × VoiceSessionStateMachine :=
  s.onTransmission (s.transmission.interrupt .transportError)

/-! ## Events -/

inductive Event
  | selectScope (scope : VoiceScope)
  | beginConnect
  | transportConnected
  | membershipRefreshed (version : ℕ)
  | subscriptionsRestored (version : ℕ)
  | membershipChanged (version : ℕ)
  | connectionLost
  | disconnect
  | requestTransmission (clientRequestId : ClientTransmissionId)
  | transmissionAccepted (clientRequestId : ClientTransmissionId) (transmissionId : TransmissionId)
  | transmissionRejected (clientRequestId : ClientTransmissionId)
  | endTransmission
  | transmissionEnded (transmissionId : TransmissionId)
  | permissionRevoked
  | transmissionTimedOut
  | transmissionTransportFailed

/-- What an event answers, with the state afterwards; a selection is always accepted. -/
def apply : Event → Bool × VoiceSessionStateMachine
  | .selectScope scope => (true, s.selectScope scope)
  | .beginConnect => s.beginConnect
  | .transportConnected => s.transportConnected
  | .membershipRefreshed version => s.membershipRefreshed version
  | .subscriptionsRestored version => s.subscriptionsRestored version
  | .membershipChanged version => s.membershipChanged version
  | .connectionLost => s.connectionLost
  | .disconnect => s.disconnect
  | .requestTransmission clientRequestId => s.requestTransmission clientRequestId
  | .transmissionAccepted clientRequestId transmissionId =>
    s.transmissionAccepted clientRequestId transmissionId
  | .transmissionRejected clientRequestId => s.transmissionRejected clientRequestId
  | .endTransmission => s.endTransmission
  | .transmissionEnded transmissionId => s.transmissionEnded transmissionId
  | .permissionRevoked => s.permissionRevoked
  | .transmissionTimedOut => s.transmissionTimedOut
  | .transmissionTransportFailed => s.transmissionTransportFailed

/-- The state after the events. -/
def run : VoiceSessionStateMachine → List Event → VoiceSessionStateMachine
  | s, [] => s
  | s, event :: events => run (s.apply event).2 events

/-- The events that interrupt a transmission. -/
def Event.interrupts : Event → Bool
  | .membershipChanged _ | .connectionLost | .disconnect | .permissionRevoked
  | .transmissionTimedOut | .transmissionTransportFailed => true
  | _ => false

/-- The events that end what the connection knows of the membership. -/
def Event.ends : Event → Bool
  | .connectionLost | .disconnect => true
  | _ => false

end VoiceSessionStateMachine

end VoxTree

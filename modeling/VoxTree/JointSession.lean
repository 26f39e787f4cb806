import VoxTree.TransmissionAnswers
import VoxTree.VoiceSession

/-!
# The authorized voice client and its server

The threads of `AuthorizedVoiceClient` with every start and end answered by
`TransmissionApplicationService` over the store, between any operations of the store. A start is
three steps at the server, as in `StartMachine`, an end is two; the session, the device, the time
and the rate limiter's answer come with the step. `handedOut` are the identifiers the generator has
handed out, which it never repeats; `notFound` are those for which a release or an
`endInterruptedTransmission` was answered that the server has no such transmission.
-/

namespace VoxTree

namespace JointSession

open VoiceSession (Pc Client Op Answer)
open StartMachine (Phase)

structure State (ω : Type*) where
  voice : VoiceSession.State := {}
  store : Store := {}
  observer : ω
  starts : ℕ → Phase := fun _ => .outside
  ends : ℕ → Option (EndTransmissionCommand × TimePoint) := fun _ => none
  handedOut : List TransmissionId := []
  notFound : List TransmissionId := []

inductive Action
  | call (t : ℕ) (op : Op)
  | resume (t : ℕ) (answer : Answer)
  | lookUp (t : ℕ) (sessionId : SessionId) (deviceId : DeviceId)
      (clientTransmissionId : ClientTransmissionId) (correlationId : CorrelationId)
      (now : TimePoint) (allowed : Bool)
  | authorize (t : ℕ) (id : TransmissionId)
  | activate (t : ℕ)
  | lookUpEnd (t : ℕ) (sessionId : SessionId) (deviceId : DeviceId)
      (correlationId : CorrelationId) (now : TimePoint) (allowed : Bool)
  | end (t : ℕ)
  | store (op : StoreOp)

/-- Whether the answer is one of `startTransmission` or `endTransmission`. -/
def fromService : Answer → Bool
  | .started _ | .ended _ => true
  | _ => false

/-- The transmission whose end the next step of a thread requests. -/
def endRequest (c : Client) : Pc → Option TransmissionId
  | .pressEnd _ _ started _ => some started.transmissionId
  | .releaseEnd _ _ transmission _ => some transmission.transmissionId
  | .endInterrupted _ => c.activeTransmission.map StartedTransmission.transmissionId
  | _ => none

/-- What a step adds to `notFound`: a press that ends its own transmission adds nothing. -/
def notFoundBy (id : TransmissionId) :
    Pc → Except EndTransmissionError EndedTransmission → List TransmissionId
  | .pressEnd .., _ => []
  | _, .error .transmissionNotFound => [id]
  | _, _ => []

variable {ω : Type*}

/-- The client's part of a step. -/
def State.voiceStep (c : State ω) (a : VoiceSession.Action) : Option (State ω) :=
  (VoiceSession.step c.voice a).map fun voice => { c with voice }

variable (observer : LifecycleObserver ω)

def step (c : State ω) : Action → Option (State ω)
  | .call t op => c.voiceStep (.call t op)
  | .resume t answer => if fromService answer then none else c.voiceStep (.resume t answer)
  | .lookUp t sessionId deviceId clientTransmissionId correlationId now allowed =>
    match c.voice.threads t, c.starts t with
    | .pressStart scope _ membershipVersion, .outside =>
      let command : StartTransmissionCommand :=
        ⟨sessionId, deviceId, clientTransmissionId, scope, membershipVersion, correlationId⟩
      match TransmissionApplicationService.lookUp c.store command now allowed with
      | .error e => c.voiceStep (.resume t (.started (startAnswer (.error e))))
      | .ok _ => some { c with starts := Function.update c.starts t (.lookedUp command now) }
    | _, _ => none
  | .authorize t id =>
    match c.starts t with
    | .lookedUp command now =>
      if id ∈ c.handedOut then none
      else
        match authorizeStart c.store command now id with
        | .error e =>
          { c with starts := Function.update c.starts t .outside }.voiceStep
            (.resume t (.started (startAnswer (.error (mapAuthorizationError e)))))
        | .ok transmission =>
          some { c with
            starts := Function.update c.starts t (.authorized command now transmission)
            handedOut := id :: c.handedOut }
    | _ => none
  | .activate t =>
    match c.starts t with
    | .authorized command now transmission =>
      let r := c.store.activate observer transmission command.sessionId command.deviceId now
        c.observer
      { c with
        store := r.2.1
        observer := r.2.2
        starts := Function.update c.starts t .outside }.voiceStep
          (.resume t (.started (startAnswer (r.1.mapError mapActivationError))))
    | _ => none
  | .lookUpEnd t sessionId deviceId correlationId now allowed =>
    match endRequest c.voice.client (c.voice.threads t), c.ends t with
    | some id, none =>
      let command : EndTransmissionCommand := ⟨sessionId, deviceId, id, correlationId⟩
      match TransmissionApplicationService.lookUpEnd c.store command now allowed with
      | .error e => c.voiceStep (.resume t (.ended (endAnswer id (.error e))))
      | .ok _ => some { c with ends := Function.update c.ends t (some (command, now)) }
    | _, _ => none
  | .end t =>
    match c.ends t with
    | some (command, now) =>
      if endRequest c.voice.client (c.voice.threads t) = some command.transmissionId then
        let r := TransmissionApplicationService.endActive observer c.store command now c.observer
        { c with
          store := r.2.1
          observer := r.2.2
          ends := Function.update c.ends t none
          notFound := notFoundBy command.transmissionId (c.voice.threads t) r.1 ++ c.notFound
          }.voiceStep (.resume t (.ended (endAnswer command.transmissionId r.1)))
      else none
    | none => none
  | .store op =>
    let r := op.call observer (c.store, c.observer)
    some { c with store := r.1, observer := r.2 }

def initial (w : ω) : State ω := { observer := w }

/-- The store has the transmission among its active ones. -/
def Active (c : State ω) (id : TransmissionId) : Prop :=
  (c.store.activeTransmissions[id]?).isSome = true

instance (c : State ω) (id : TransmissionId) : Decidable (Active c id) :=
  inferInstanceAs (Decidable (_ = true))

/-- No operation of the store, as opposed to an end the client asks for, takes a transmission the
client was granted from the active ones. -/
def keepsGranted (c : State ω) : Action → Bool
  | .store op => c.voice.started.all fun id =>
      !(c.store.activeTransmissions[id]?).isSome
        || ((op.call observer (c.store, c.observer)).1.activeTransmissions[id]?).isSome
  | _ => true

end JointSession

end VoxTree

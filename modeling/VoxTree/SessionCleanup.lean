import VoxTree.Transmission
import Mathlib.Data.List.Sort

/-!
# Creating, using and cleaning up sessions

`main` of the control plane keeps the sessions in the repository. The adapter reads and writes
them there; the store asks the repository for a session it does not have itself. The workers start
transmissions as of the time at which their request was received, and the maintenance loop removes
each expired session from the store and then from the repository, with the mutex free in between.
-/

namespace VoxTree

/-- The sessions of the repository, as they are read back. -/
abbrev Sessions := Std.ExtTreeMap SessionId AuthenticatedSession

def toUnixMilliseconds (timePoint : TimePoint) : Int := timePoint.tdiv 1000000

def fromUnixMilliseconds (milliseconds : Int) : TimePoint := milliseconds * 1000000

namespace Sessions

variable (sessions : Sessions)

/-- `SqliteControlPlaneRepository::upsert`, which keeps milliseconds. -/
def upsert (session : AuthenticatedSession) : Sessions :=
  sessions.insert session.sessionId
    { session with expiresAt := fromUnixMilliseconds (toUnixMilliseconds session.expiresAt) }

/-- The expiry and then the identifier ascend. -/
def byExpiry (a b : SessionId × AuthenticatedSession) : Bool :=
  a.2.expiresAt < b.2.expiresAt || a.2.expiresAt = b.2.expiresAt && (compare a.1 b.1).isLE

def expiredSessionIds (now : TimePoint) (limit : ℕ) : List SessionId :=
  (((sessions.toList.filter fun entry =>
      toUnixMilliseconds entry.2.expiresAt ≤ toUnixMilliseconds now).insertionSort
        fun a b => byExpiry a b = true).take limit).map Prod.fst

/-- What `authenticateRequestSession` asks of the session. -/
def authenticates (command : StartTransmissionCommand) (now : TimePoint) : Bool :=
  sessions[command.sessionId]?.any fun session =>
    session.activeAt now && session.deviceId = command.deviceId

end Sessions

/-- The store over the repository: its own sessions, contexts and transmissions, and the sessions
of the repository. -/
structure RuntimeStore where
  memory : Store := {}
  repository : Sessions := ∅

namespace RuntimeStore

variable (r : RuntimeStore)

/-- What the locked sections see: a session of the store hides the repository's. -/
def view : Store := { r.memory with sessions := r.repository ∪ r.memory.sessions }

def currentSessionLocked (sessionId : SessionId) : Option AuthenticatedSession :=
  r.view.sessions[sessionId]?

def removeSessionLocked (sessionId : SessionId) (now : TimePoint) (correlationId : CorrelationId) :
    List EndedTransmission × RuntimeStore :=
  match r.currentSessionLocked sessionId with
  | none => ([], r)
  | some _ =>
    let interrupted := { r.memory with sessions := r.memory.sessions.erase sessionId
      }.interruptForSessionLocked sessionId .disconnected now correlationId
    (interrupted.1, { r with memory := interrupted.2 })

/-- The store's own part after a locked section that saw the sessions of the repository too. -/
def withView (store : Store) : RuntimeStore :=
  { r with memory := { store with sessions := r.memory.sessions } }

end RuntimeStore

namespace SessionCleanup

/-- Where a worker is with a request to start a transmission, and when it was received. -/
inductive Worker
  | idle
  | received (command : StartTransmissionCommand) (now : TimePoint)
  | authenticated (command : StartTransmissionCommand) (now : TimePoint)
  | lookedUp (command : StartTransmissionCommand) (now : TimePoint)
  | authorized (command : StartTransmissionCommand) (now : TimePoint)
      (transmission : AuthorizedTransmission)
  deriving DecidableEq

/-- Where the maintenance loop is, and when its iteration began. -/
inductive Maintenance
  | sleeping
  | begun (now : TimePoint)
  | sweeping (now : TimePoint) (remaining : List SessionId)
  | removed (now : TimePoint) (sessionId : SessionId) (remaining : List SessionId)
  deriving DecidableEq

structure State (ω : Type*) where
  runtime : RuntimeStore
  observer : ω
  clock : TimePoint
  sessionsIssued : ℕ
  workers : ℕ → Worker
  maintenance : Maintenance

inductive Action
  | wait (elapsed : ℕ)
  | createSession (playerId : PlayerId) (deviceId : DeviceId) (expiresAt : TimePoint)
  | receive (worker : ℕ) (command : StartTransmissionCommand)
  | authenticate (worker : ℕ)
  | lookUp (worker : ℕ) (allowed : Bool)
  | authorize (worker : ℕ) (id : TransmissionId)
  | activate (worker : ℕ)
  | store (op : StoreOp)
  | beginIteration
  | listExpired
  | removeSession
  | eraseSession
  | endIteration

/-- Sessions cleaned up in one iteration. -/
def sweepLimit : ℕ := 256

def schedulerSessionCleanup : CorrelationId := ⟨bytes "scheduler-session-cleanup", by decide⟩

variable {ω : Type*} (nextSession : ℕ → SessionId) (observer : LifecycleObserver ω)

def State.set (c : State ω) (worker : ℕ) (phase : Worker) : State ω :=
  { c with workers := Function.update c.workers worker phase }

/-- A rejected request leaves its worker idle. Sessions are created for requests and removed by
the maintenance loop only, and every activation belongs to a request. An iteration of the
maintenance loop ends behind its last session, or by an exception wherever it is. -/
def step (c : State ω) : Action → Option (State ω)
  | .wait elapsed => some { c with clock := c.clock + elapsed }
  | .createSession playerId deviceId expiresAt =>
    some { c with
      runtime := { c.runtime with
        repository := c.runtime.repository.upsert
          ⟨nextSession c.sessionsIssued, playerId, deviceId, expiresAt⟩ }
      sessionsIssued := c.sessionsIssued + 1 }
  | .receive worker command =>
    match c.workers worker with
    | .idle => some (c.set worker (.received command c.clock))
    | _ => none
  | .authenticate worker =>
    match c.workers worker with
    | .received command now =>
      some (c.set worker
        (if c.runtime.repository.authenticates command now then .authenticated command now
          else .idle))
    | _ => none
  | .lookUp worker allowed =>
    match c.workers worker with
    | .authenticated command now =>
      match TransmissionApplicationService.lookUp c.runtime.view command now allowed with
      | .error _ => some (c.set worker .idle)
      | .ok _ => some (c.set worker (.lookedUp command now))
    | _ => none
  | .authorize worker id =>
    match c.workers worker with
    | .lookedUp command now =>
      match authorizeStart c.runtime.view command now id with
      | .error _ => some (c.set worker .idle)
      | .ok transmission => some (c.set worker (.authorized command now transmission))
    | _ => none
  | .activate worker =>
    match c.workers worker with
    | .authorized command now transmission =>
      let r := c.runtime.view.activate observer transmission command.sessionId command.deviceId now
        c.observer
      some { c.set worker .idle with runtime := c.runtime.withView r.2.1, observer := r.2.2 }
    | _ => none
  | .store op =>
    match op with
    | .upsertSession .. | .removeSession .. | .activate .. => none
    | op =>
      let r := op.call observer (c.runtime.view, c.observer)
      some { c with runtime := c.runtime.withView r.1, observer := r.2 }
  | .beginIteration =>
    match c.maintenance with
    | .sleeping => some { c with maintenance := .begun c.clock }
    | _ => none
  | .listExpired =>
    match c.maintenance with
    | .begun now =>
      some { c with
        maintenance := .sweeping now (c.runtime.repository.expiredSessionIds now sweepLimit) }
    | _ => none
  | .removeSession =>
    match c.maintenance with
    | .sweeping now (sessionId :: remaining) =>
      let r := c.runtime.removeSessionLocked sessionId now schedulerSessionCleanup
      some { c with
        runtime := r.2
        observer := Store.notifyEnded observer r.1 c.observer
        maintenance := .removed now sessionId remaining }
    | _ => none
  | .eraseSession =>
    match c.maintenance with
    | .removed now sessionId remaining =>
      some { c with
        runtime := { c.runtime with repository := c.runtime.repository.erase sessionId }
        maintenance := .sweeping now remaining }
    | _ => none
  | .endIteration => some { c with maintenance := .sleeping }

/-- A process that begins with the sessions an earlier one has left in the repository. -/
def initial (sessionsIssued : ℕ) (repository : Sessions) (clock : TimePoint) (w : ω) : State ω where
  runtime := { repository }
  observer := w
  clock
  sessionsIssued
  workers _ := .idle
  maintenance := .sleeping

/-- No start passes the checks of its activation and is accepted by the observer while its session
has been removed from the store and not yet from the repository. -/
def NoneBetween (c : State ω) : Action → Prop
  | .activate worker => ∀ command now transmission,
      c.workers worker = .authorized command now transmission → ∀ sweep remaining,
      c.maintenance = .removed sweep command.sessionId remaining → ∀ entry,
      c.runtime.view.checkActivation transmission command.sessionId command.deviceId now = .ok entry →
      (observer.onStarted entry c.observer).1 = false
  | _ => True

end SessionCleanup

end VoxTree

import VoxTree.RemoteAudio

/-!
# Push-to-talk of the voice client on several threads

The calls of `VoiceClient` that connect, disconnect, press and release, and the transport's state
callback. A thread's `Phase` is where it stands in a call; one step runs one region under the mutex
or one call of the transport, whose answer comes with the step.
-/

namespace VoxTree

namespace MicrophonePublication

/-- The fields of the client that its mutex guards. -/
structure Client where
  state : VoiceTransportState
  connectionGeneration : ℕ := 0
  publicationState : MicrophonePublicationState := .idle
  publicationGeneration : ℕ := 0
  activeScope : Option VoiceScope := none
  lastStopResult : VoiceTransportResult := .success

inductive Op
  | connect (grants : List VoiceRoomGrant) | disconnect | pressPushToTalk (scope : VoiceScope)
  | releasePushToTalk

/-- What a call of `releasePushToTalk` returns to. -/
inductive Caller
  | user | disconnect

inductive Phase
  | outside (result : Option VoiceTransportResult)
  -- `connect`
  | connectBegin (grants : List VoiceRoomGrant)
  | connect
  | connectDone (result : VoiceTransportResult)
  -- `disconnect`
  | disconnectBegin
  | disconnect
  | disconnectDone (result : VoiceTransportResult)
  -- `pressPushToTalk`
  | pressBegin (scope : VoiceScope)
  | pressStart (scope : VoiceScope) (generation : ℕ)
  | pressStarted (scope : VoiceScope) (generation : ℕ) (result : VoiceTransportResult)
  | pressQuery (generation : ℕ) (result : VoiceTransportResult)
  | pressStop (generation : ℕ) (result : VoiceTransportResult)
  | pressFinish (generation : ℕ) (result stopResult : VoiceTransportResult)
  -- `releasePushToTalk`
  | releaseBegin (caller : Caller)
  | releaseWait (caller : Caller) (generation : ℕ)
  | releaseStop (caller : Caller) (generation : ℕ)
  | releaseFinish (caller : Caller) (generation : ℕ) (result : VoiceTransportResult)

/-- What the step of a thread gets from outside: nothing in a region under the mutex, the result of
`connect`, `disconnect`, `startMicrophone` or `stopMicrophone`, or the transport's scope. -/
inductive Answer
  | silent
  | result (result : VoiceTransportResult)
  | activeScope (scope : Option VoiceScope)

def Op.entry : Op → Phase
  | .connect grants => .connectBegin grants
  | .disconnect => .disconnectBegin
  | .pressPushToTalk scope => .pressBegin scope
  | .releasePushToTalk => .releaseBegin .user

def returned (result : VoiceTransportResult) : Phase := .outside (some result)

/-- Where a call stands when the release inside it has returned. -/
def Caller.afterRelease (result : VoiceTransportResult) : Caller → Phase
  | .user => returned result
  | .disconnect =>
    if !result.ok && result.error ≠ .invalidState then returned result else .disconnect

namespace Client

variable (c : Client)

/-- The last region of a press that fails and of a release that stopped the microphone. -/
def stopped (generation : ℕ) (stopResult : VoiceTransportResult) : Client :=
  if generation = c.publicationGeneration then
    { c with publicationState := .idle, activeScope := none, lastStopResult := stopResult }
  else c

def onTransportStateChanged (state : VoiceTransportState) : Client :=
  let c₁ : Client := { c with
    connectionGeneration :=
      if state = .reconnecting ∧ c.state ≠ .reconnecting then c.connectionGeneration + 1
      else c.connectionGeneration
    state
    activeScope := if state ≠ .connected then none else c.activeScope }
  if state ≠ .connected ∧ c.publicationState = .active then
    { c₁ with publicationState := .idle, lastStopResult := .success }
  else if state ≠ .connected ∧ c.publicationState = .starting then
    { c₁ with publicationState := .stopping }
  else c₁

end Client

/-- The steps of `connect` and `disconnect`. -/
def connectionStep (c : Client) : Phase → Answer → Option (Client × Phase)
  | .connectBegin grants, .silent =>
    let validation := VoiceClient.validateGrants grants
    if !validation.ok then some (c, returned validation)
    else if c.state ≠ .disconnected then
      some (c, returned (.failure .invalidState (bytes "voice client is already active")))
    else
      some ({ c with
        state := .connecting
        connectionGeneration := c.connectionGeneration + 1 }, .connect)
  | .connect, .result result => some (c, .connectDone result)
  | .connectDone result, .silent =>
    some (if result.ok then c else { c with state := .disconnected }, returned result)
  | .disconnectBegin, .silent =>
    if c.state = .disconnected then some ({ c with activeScope := none }, returned .success)
    else some (c, .releaseBegin .disconnect)
  | .disconnect, .result result => some (c, .disconnectDone result)
  | .disconnectDone result, .silent =>
    some (if result.ok then { c with state := .disconnected, activeScope := none } else c,
      returned result)
  | _, _ => none

/-- What a press that did not become active returns. -/
def pressResult (generation : ℕ) (result stopResult : VoiceTransportResult) :
    VoiceTransportResult :=
  if !result.ok then result
  else if !stopResult.ok then stopResult
  else
    .failure .invalidState (bytes "microphone publication generation " ++ decimal generation
      ++ bytes " was cancelled during the starting-to-stopping transition")

/-- The steps of `pressPushToTalk`. -/
def pressStep (c : Client) : Phase → Answer → Option (Client × Phase)
  | .pressBegin scope, .silent =>
    if c.state ≠ .connected then
      some (c, returned (.failure .invalidState (bytes "voice transport is not connected")))
    else if c.publicationState ≠ .idle then
      some (c, returned (.failure .invalidState
        (bytes "only one push-to-talk transmission may be active")))
    else
      let generation := c.publicationGeneration + 1
      some ({ c with
        publicationGeneration := generation
        publicationState := .starting
        activeScope := none
        lastStopResult := .success }, .pressStart scope generation)
  | .pressStart scope generation, .result result =>
    some (c, .pressStarted scope generation result)
  | .pressStarted scope generation result, .silent =>
    if result.ok ∧ generation = c.publicationGeneration ∧ c.publicationState = .starting
        ∧ c.state = .connected then
      some ({ c with publicationState := .active, activeScope := some scope }, returned result)
    else if result.ok ∧ generation = c.publicationGeneration ∧ c.publicationState ≠ .idle then
      some (c, .pressStop generation result)
    else some (c, .pressQuery generation result)
  | .pressQuery generation result, .activeScope scope =>
    some (c, if scope.isSome then .pressStop generation result
      else .pressFinish generation result .success)
  | .pressStop generation result, .result stopResult =>
    some (c, .pressFinish generation result
      (if !stopResult.ok && stopResult.error = .invalidState then .success else stopResult))
  | .pressFinish generation result stopResult, .silent =>
    some (c.stopped generation stopResult, returned (pressResult generation result stopResult))
  | _, _ => none

/-- The steps of `releasePushToTalk`. -/
def releaseStep (c : Client) : Phase → Answer → Option (Client × Phase)
  | .releaseBegin caller, .silent =>
    match c.publicationState with
    | .idle =>
      some (c, caller.afterRelease (.failure .invalidState
        (bytes "no push-to-talk transmission is active")))
    | .starting =>
      some ({ c with publicationState := .stopping },
        .releaseWait caller c.publicationGeneration)
    | .stopping => some (c, .releaseWait caller c.publicationGeneration)
    | .active =>
      some ({ c with publicationState := .stopping },
        .releaseStop caller c.publicationGeneration)
  | .releaseWait caller generation, .silent =>
    -- the wait is over once its condition holds
    if c.publicationGeneration ≠ generation ∨ c.publicationState = .idle then
      some (c, caller.afterRelease c.lastStopResult)
    else none
  | .releaseStop caller generation, .result result =>
    some (c, .releaseFinish caller generation result)
  | .releaseFinish caller generation result, .silent =>
    some (c.stopped generation result, caller.afterRelease result)
  | _, _ => none

/-- One step of a thread inside a call. -/
def resume (c : Client) (phase : Phase) (answer : Answer) : Option (Client × Phase) :=
  (connectionStep c phase answer).or ((pressStep c phase answer).or (releaseStep c phase answer))

structure State where
  client : Client
  threads : ℕ → Phase := fun _ => .outside none

inductive Action
  | call (t : ℕ) (op : Op)
  | resume (t : ℕ) (answer : Answer)
  | onTransportStateChanged (state : VoiceTransportState)

def step (c : State) : Action → Option State
  | .call t op =>
    match c.threads t with
    | .outside _ => some { c with threads := Function.update c.threads t op.entry }
    | _ => none
  | .resume t answer =>
    (resume c.client (c.threads t) answer).map fun r =>
      { client := r.1, threads := Function.update c.threads t r.2 }
  | .onTransportStateChanged state =>
    some { c with client := c.client.onTransportStateChanged state }

/-- The client takes over the state its transport is in. -/
def initial (state : VoiceTransportState) : State := { client := { state } }

/-! ## What is asked of a run -/

/-- Whether the action is a step of the thread inside a call. -/
def Action.isOf (t : ℕ) : Action → Bool
  | .resume t' _ => t' = t
  | _ => false

/-- A publication is being started or stopped. -/
def pending (c : State) : Bool :=
  c.client.publicationState = .starting || c.client.publicationState = .stopping

/-- The generation whose transport calls the thread makes or has the results of. -/
def Phase.generation : Phase → Option ℕ
  | .pressStart _ generation | .pressStarted _ generation _ | .pressQuery generation _
  | .pressStop generation _ | .pressFinish generation _ _ | .releaseStop _ generation
  | .releaseFinish _ generation _ => some generation
  | _ => none

/-- The thread itself ends what is pending: while it is pending the thread can go on, whatever the
others do; only a step of the thread ends it; and after five of its steps it has. -/
def Settles (c : State) (t : ℕ) : Prop :=
  ∀ as c', Machine.Runs step (fun c _ => pending c = true) c as c' →
    as.countP (Action.isOf t) ≤ 5
    ∧ (pending c' = true → ∃ answer, (step c' (.resume t answer)).isSome = true)
    ∧ ∀ a c'', pending c' = true → step c' a = some c'' → pending c'' = false → a.isOf t = true

structure Consistent (c : State) : Prop where
  scope : c.client.activeScope.isSome = true →
    c.client.publicationState = .active ∨ c.client.publicationState = .stopping
  active : c.client.publicationState = .active →
    c.client.state = .connected ∧ c.client.activeScope.isSome = true
  /-- A thread that works for another generation makes nothing active. -/
  current : ∀ t generation answer c', (c.threads t).generation = some generation →
    c.client.publicationGeneration ≠ generation → step c (.resume t answer) = some c' →
    (c'.client.publicationState = .active → c.client.publicationState = .active)
      ∧ (c'.client.activeScope.isSome = true → c'.client.activeScope = c.client.activeScope)
  settles : pending c = true → ∃ t, Settles c t
  /-- A release that waits can return, or what it waits for is pending. -/
  waits : ∀ t caller generation, c.threads t = .releaseWait caller generation →
    (step c (.resume t .silent)).isSome = true ∨ pending c = true

/-- No failed `connect` and no `disconnect` writes its last region while a publication is
active. -/
def keepsActive (c : State) : Action → Bool
  | .resume t .silent =>
    match c.threads t with
    | .connectDone result => result.ok || c.client.publicationState ≠ .active
    | .disconnectDone result => !result.ok || c.client.publicationState ≠ .active
    | _ => true
  | _ => true

end MicrophonePublication

end VoxTree

import VoxTree.ClientTypes
import VoxTree.Lib.Machine

/-!
# The authorized voice client on several threads

`AuthorizedVoiceClient`. A thread's `Pc` is where it stands in a call; one step runs one region
under the mutex or one call of the control plane or the voice client, whose answer comes with the
step. `endInterruptedTransmission` and `connect` hold the mutex over their calls and are one step.
`started` and `ended` record the transmissions the server granted and those it ended on request.
-/

namespace VoxTree

namespace VoiceSession

def scopeName : VoiceScope → Bytes
  | .team => bytes "team"
  | .specialization => bytes "specialization"
  | .group => bytes "group"

def cancelledPublication (scope : VoiceScope) (generation : UInt64) (correlationId : Bytes) :
    VoiceSessionResult :=
  clientStateFailure (bytes "publication_cancelled")
    (bytes "scope=" ++ scopeName scope ++ bytes "; transition=starting->stopping->idle"
      ++ bytes "; generation=" ++ decimal generation.toNat ++ bytes "; correlation_id="
      ++ correlationId)

/-- The fields of the client that its mutex guards. -/
structure Client where
  membership : Option MembershipView := none
  activeTransmission : Option StartedTransmission := none
  pushToTalkEnabled : Bool := false
  publicationState : MicrophonePublicationState := .idle
  publicationGeneration : UInt64 := 0
  voiceStartInProgress : Bool := false
  lastReleaseResult : VoiceSessionResult := {}

inductive Op
  | connect | disconnect | refreshAuthorization | pressPushToTalk (scope : VoiceScope)
  | releasePushToTalk | endInterruptedTransmission

/-- What a call of `releasePushToTalk` or `endInterruptedTransmission` returns to. -/
inductive Caller
  | user
  | disconnect
  | refresh (membership : MembershipView) (grants : VoiceGrantSet)

/-- Why a press ends the transmission it was granted. -/
inductive Ending
  | cancelledBeforeVoice
  | microphoneFailed (microphone : VoiceTransportResult) (cancelledWhileStarting : Bool)
  | cancelledAfterVoice

inductive Pc
  | outside (result : Option VoiceSessionResult)
  | connecting
  -- `pressPushToTalk`
  | pressBegin (scope : VoiceScope)
  | pressStart (scope : VoiceScope) (generation : UInt64) (membershipVersion : Nat)
  | pressStartFailed (generation : UInt64) (error : ControlPlaneError)
  | pressStarted (scope : VoiceScope) (generation : UInt64) (started : StartedTransmission)
  | pressMicrophone (scope : VoiceScope) (generation : UInt64) (started : StartedTransmission)
  | pressMicrophoneDone (scope : VoiceScope) (generation : UInt64) (started : StartedTransmission)
      (microphone : VoiceTransportResult)
  | pressActivate (scope : VoiceScope) (generation : UInt64) (started : StartedTransmission)
  | pressStopVoice (scope : VoiceScope) (generation : UInt64) (started : StartedTransmission)
  | pressEnd (scope : VoiceScope) (generation : UInt64) (started : StartedTransmission)
      (ending : Ending)
  | pressFinish (scope : VoiceScope) (generation : UInt64) (started : StartedTransmission)
      (ending : Ending) (ended : ControlPlaneResult EndedTransmissionView)
  -- `releasePushToTalk`
  | releaseBegin (caller : Caller)
  | releaseCancelStart (caller : Caller) (generation : UInt64)
  | releaseWait (caller : Caller) (generation : UInt64) (stopped : VoiceTransportResult)
  | releaseStopVoice (caller : Caller) (generation : UInt64) (transmission : StartedTransmission)
  | releaseEnd (caller : Caller) (generation : UInt64) (transmission : StartedTransmission)
      (stopped : VoiceTransportResult)
  | releaseFinish (caller : Caller) (generation : UInt64) (transmission : StartedTransmission)
      (stopped : VoiceTransportResult) (ended : ControlPlaneResult EndedTransmissionView)
  -- `endInterruptedTransmission`
  | endInterrupted (caller : Caller)
  -- `disconnect`
  | disconnectBegin
  | disconnectVoice
  | disconnectReset
  | disconnectClearSession
  -- `refreshAuthorization`
  | refreshBegin
  | refreshMembership (knownVersion : Nat)
  | refreshGrants (membership : MembershipView)
  | refreshDisable (membership : MembershipView) (grants : VoiceGrantSet)
  | refreshDisconnect (membership : MembershipView) (grants : VoiceGrantSet)
  | refreshConnect (membership : MembershipView) (grants : VoiceGrantSet)
  | refreshFailed (connected : VoiceTransportResult)
  | refreshFinish (membership : MembershipView)

/-- What the environment answers to the step a thread takes. -/
inductive Answer
  | silent
  | voiceState (state : VoiceTransportState)
  | voice (result : VoiceTransportResult)
  | started (result : ControlPlaneResult StartedTransmission)
  | ended (result : ControlPlaneResult EndedTransmissionView)
  | membership (result : ControlPlaneResult MembershipView)
  | grants (result : ControlPlaneResult VoiceGrantSet)
  | connect (state : VoiceTransportState) (session : ControlPlaneResult Unit)
      (membership : ControlPlaneResult MembershipView) (grants : ControlPlaneResult VoiceGrantSet)
      (connected : VoiceTransportResult)

/-- What a step has the server do to a transmission. -/
inductive Event
  | none
  | started (id : TransmissionId)
  | ended (id : TransmissionId)

/-- The operation's first step. -/
def Op.entry : Op → Pc
  | .connect => .connecting
  | .disconnect => .disconnectBegin
  | .refreshAuthorization => .refreshBegin
  | .pressPushToTalk scope => .pressBegin scope
  | .releasePushToTalk => .releaseBegin .user
  | .endInterruptedTransmission => .endInterrupted .user

def finished (result : VoiceSessionResult) : Pc := .outside (some result)

/-- Where a finished release leads: `disconnect` and `refreshAuthorization` go on if it worked. -/
def Caller.afterRelease (result : VoiceSessionResult) : Caller → Pc
  | .user => finished result
  | caller => if result.successful then .endInterrupted caller else finished result

/-- Where a finished `endInterruptedTransmission` leads. -/
def Caller.afterEndInterrupted (result : VoiceSessionResult) : Caller → Pc
  | .user => finished result
  | .disconnect => if result.successful then .disconnectVoice else finished result
  | .refresh membership grants =>
    if result.successful then .refreshDisconnect membership grants else finished result

/-- The region with which `disconnect` and `refreshAuthorization` switch push-to-talk off. -/
def switchOff (c : Client) (caller : Caller) : Client × Pc :=
  ({ c with pushToTalkEnabled := false },
    if c.publicationState ≠ .idle then .releaseBegin caller else .endInterrupted caller)

def endedResult : ControlPlaneResult EndedTransmissionView → VoiceSessionResult
  | .ok _ => .success
  | .error e => controlPlaneFailure e

def endedEvent (id : TransmissionId) : ControlPlaneResult EndedTransmissionView → Event
  | .ok _ => .ended id
  | .error _ => .none

/-- The region in which the owner of a publication gives it up. -/
def giveUp (c : Client) (generation : UInt64) (ended : ControlPlaneResult EndedTransmissionView)
    (releaseResult : VoiceSessionResult) : Client :=
  if generation = c.publicationGeneration then
    { c with
      activeTransmission := if ended.isOk then none else c.activeTransmission
      lastReleaseResult := releaseResult
      publicationState := .idle }
  else c

/-- What a press that ended its transmission returns. -/
def Ending.result (scope : VoiceScope) (generation : UInt64) (started : StartedTransmission)
    (ended : ControlPlaneResult EndedTransmissionView) : Ending → VoiceSessionResult
  | .microphoneFailed microphone cancelledWhileStarting =>
    if cancelledWhileStarting && ended.isOk then
      cancelledPublication scope generation started.clientTransmissionId.value
    else
      transportFailure
        { microphone with
          message := microphone.message ++ bytes "; scope=" ++ scopeName scope
            ++ bytes "; transition=starting->idle" ++ bytes "; generation="
            ++ decimal generation.toNat ++ bytes "; correlation_id="
            ++ started.clientTransmissionId.value
            ++ match ended with
              | .ok _ => []
              | .error e => bytes "; server rollback also failed: " ++ e.code }
  | _ => cancelledPublication scope generation started.clientTransmissionId.value

def connectStep (c : Client) (state : VoiceTransportState) (session : ControlPlaneResult Unit)
    (membership : ControlPlaneResult MembershipView) (grants : ControlPlaneResult VoiceGrantSet)
    (connected : VoiceTransportResult) : Client × VoiceSessionResult :=
  if c.membership.isSome || state ≠ .disconnected then
    (c, clientStateFailure (bytes "already_connected")
      (bytes "the authorized voice client is already active"))
  else
    match session, membership, grants with
    | .error e, _, _ => (c, controlPlaneFailure e)
    | .ok _, .error e, _ => (c, controlPlaneFailure e)
    | .ok _, .ok _, .error e => (c, controlPlaneFailure e)
    | .ok _, .ok m, .ok g =>
      if g.membershipVersion ≠ m.version then
        (c, .failure ⟨.controlPlane, bytes "voice_membership_stale",
          bytes "voice grants do not match the current membership version", 0⟩)
      else if !connected.ok then (c, transportFailure connected)
      else ({ c with membership := some m, pushToTalkEnabled := true }, .success)

/-- The steps of `pressPushToTalk`. -/
def pressStep (c : Client) : Pc → Answer → Option (Client × Pc × Event)
  | .pressBegin scope, .voiceState state =>
    match c.membership with
    | some membership =>
      if !c.pushToTalkEnabled || state ≠ .connected then
        some (c, finished (clientStateFailure (bytes "not_connected")
          (bytes "membership and voice transport must be ready before push-to-talk")), .none)
      else if c.publicationState ≠ .idle || c.activeTransmission.isSome then
        some (c, finished (clientStateFailure (bytes "transmission_already_active")
          (bytes "only one authorized transmission may be active")), .none)
      else
        let generation := c.publicationGeneration + 1
        some ({ c with
            publicationGeneration := generation
            publicationState := .starting
            lastReleaseResult := .success }, .pressStart scope generation membership.version, .none)
    | none =>
      some (c, finished (clientStateFailure (bytes "not_connected")
        (bytes "membership and voice transport must be ready before push-to-talk")), .none)
  | .pressStart scope generation _, .started result =>
    match result with
    | .ok started => some (c, .pressStarted scope generation started, .started started.transmissionId)
    | .error e => some (c, .pressStartFailed generation e, .none)
  | .pressStartFailed generation e, .silent =>
    some (if generation = c.publicationGeneration then { c with publicationState := .idle } else c,
      finished (controlPlaneFailure e), .none)
  | .pressStarted scope generation started, .silent =>
    if generation ≠ c.publicationGeneration then
      some (c, .pressEnd scope generation started .cancelledBeforeVoice, .none)
    else
      let cancelled : Bool := c.publicationState = .stopping
      some ({ c with activeTransmission := some started, voiceStartInProgress := !cancelled },
        if cancelled then .pressEnd scope generation started .cancelledBeforeVoice
        else .pressMicrophone scope generation started, .none)
  | .pressMicrophone scope generation started, .voice microphone =>
    some (c, .pressMicrophoneDone scope generation started microphone, .none)
  | .pressMicrophoneDone scope generation started microphone, .silent =>
    let cancelled : Bool := generation = c.publicationGeneration && c.publicationState = .stopping
    some ({ c with voiceStartInProgress := false },
      if microphone.ok then .pressActivate scope generation started
      else .pressEnd scope generation started (.microphoneFailed microphone cancelled), .none)
  | .pressActivate scope generation started, .silent =>
    if generation = c.publicationGeneration ∧ c.publicationState = .starting then
      some ({ c with publicationState := .active },
        finished (.success c.activeTransmission), .none)
    else some (c, .pressStopVoice scope generation started, .none)
  | .pressStopVoice scope generation started, .voice _ =>
    some (c, .pressEnd scope generation started .cancelledAfterVoice, .none)
  | .pressEnd scope generation started ending, .ended result =>
    some (c, .pressFinish scope generation started ending result,
      endedEvent started.transmissionId result)
  | .pressFinish scope generation started ending ended, .silent =>
    some (giveUp c generation ended (endedResult ended),
      finished (ending.result scope generation started ended), .none)
  | _, _ => none

/-- The steps of `releasePushToTalk`. -/
def releaseStep (c : Client) : Pc → Answer → Option (Client × Pc × Event)
  | .releaseBegin caller, .silent =>
    match c.publicationState with
    | .idle =>
      some (c, caller.afterRelease (clientStateFailure (bytes "no_active_transmission")
        (bytes "no authorized transmission is active")), .none)
    | .stopping => some (c, .releaseWait caller c.publicationGeneration .success, .none)
    | .starting =>
      some ({ c with publicationState := .stopping },
        if c.voiceStartInProgress then .releaseCancelStart caller c.publicationGeneration
        else .releaseWait caller c.publicationGeneration .success, .none)
    | .active =>
      some ({ c with publicationState := .stopping },
        match c.activeTransmission with
        | some transmission => .releaseStopVoice caller c.publicationGeneration transmission
        | none => .releaseWait caller c.publicationGeneration .success, .none)
  | .releaseCancelStart caller generation, .voice stopped =>
    some (c, .releaseWait caller generation stopped, .none)
  | .releaseWait caller generation stopped, .silent =>
    if c.publicationGeneration ≠ generation ∨ c.publicationState = .idle then
      some (c, caller.afterRelease
        (if stopped.ok then c.lastReleaseResult else transportFailure stopped), .none)
    else none
  | .releaseStopVoice caller generation transmission, .voice stopped =>
    some (c, .releaseEnd caller generation transmission stopped, .none)
  | .releaseEnd caller generation transmission stopped, .ended result =>
    some (c, .releaseFinish caller generation transmission stopped result,
      endedEvent transmission.transmissionId result)
  | .releaseFinish caller generation _ stopped ended, .silent =>
    let result := match ended with
      | .error e => controlPlaneFailure e
      | .ok _ => if stopped.ok then .success else transportFailure stopped
    some (giveUp c generation ended result, caller.afterRelease result, .none)
  | _, _ => none

/-- The steps of `connect`, `endInterruptedTransmission`, `disconnect` and
`refreshAuthorization`. -/
def sessionStep (c : Client) : Pc → Answer → Option (Client × Pc × Event)
  | .connecting, .connect state session membership grants connected =>
    let r := connectStep c state session membership grants connected
    some (r.1, finished r.2, .none)
  | .endInterrupted caller, answer =>
    match c.activeTransmission, answer with
    | none, .silent => some (c, caller.afterEndInterrupted .success, .none)
    | some transmission, .ended result =>
      some (if result.isOk then { c with activeTransmission := none } else c,
        caller.afterEndInterrupted (endedResult result),
        endedEvent transmission.transmissionId result)
    | _, _ => none
  | .disconnectBegin, .silent =>
    let r := switchOff c .disconnect
    some (r.1, r.2, .none)
  | .disconnectVoice, .voice disconnected =>
    some (c, if disconnected.ok then .disconnectReset else finished (transportFailure disconnected),
      .none)
  | .disconnectReset, .silent => some ({ c with membership := none }, .disconnectClearSession, .none)
  | .disconnectClearSession, .silent => some (c, finished .success, .none)
  | .refreshBegin, .voiceState state =>
    some (c, match c.membership with
      | some membership =>
        if state = .disconnected then
          finished (clientStateFailure (bytes "not_connected")
            (bytes "membership refresh requires a connected voice session"))
        else .refreshMembership membership.version
      | none => finished (clientStateFailure (bytes "not_connected")
          (bytes "membership refresh requires a connected voice session")), .none)
  | .refreshMembership knownVersion, .membership result =>
    some (c, match result with
      | .error e => finished (controlPlaneFailure e)
      | .ok membership =>
        if membership.version = knownVersion then finished .success
        else if membership.version < knownVersion then
          finished (.failure ⟨.controlPlane, bytes "voice_membership_stale",
            bytes "the server returned an obsolete membership version", 0⟩)
        else .refreshGrants membership, .none)
  | .refreshGrants membership, .grants result =>
    some (c, match result with
      | .error e => finished (controlPlaneFailure e)
      | .ok grants =>
        if grants.membershipVersion ≠ membership.version then
          finished (.failure ⟨.controlPlane, bytes "voice_membership_stale",
            bytes "voice grants do not match the refreshed membership version", 0⟩)
        else .refreshDisable membership grants, .none)
  | .refreshDisable membership grants, .silent =>
    let r := switchOff c (.refresh membership grants)
    some (r.1, r.2, .none)
  | .refreshDisconnect membership grants, .voice disconnected =>
    some (c, if disconnected.ok then .refreshConnect membership grants
      else finished (transportFailure disconnected), .none)
  | .refreshConnect membership _, .voice connected =>
    some (c, if connected.ok then .refreshFinish membership else .refreshFailed connected, .none)
  | .refreshFailed connected, .silent =>
    some ({ c with membership := none }, finished (transportFailure connected), .none)
  | .refreshFinish membership, .silent =>
    some ({ c with membership := some membership, pushToTalkEnabled := true },
      finished .success, .none)
  | _, _ => none

/-- One step of a thread inside a call. -/
def resume (c : Client) (pc : Pc) (answer : Answer) : Option (Client × Pc × Event) :=
  (pressStep c pc answer).or ((releaseStep c pc answer).or (sessionStep c pc answer))

structure State where
  client : Client := {}
  threads : ℕ → Pc := fun _ => .outside none
  started : List TransmissionId := []
  ended : List TransmissionId := []

inductive Action
  | call (t : ℕ) (op : Op)
  | resume (t : ℕ) (answer : Answer)

def State.record (s : State) : Event → State
  | .none => s
  | .started id => { s with started := s.started ++ [id] }
  | .ended id => { s with ended := s.ended ++ [id] }

def step (s : State) : Action → Option State
  | .call t op =>
    match s.threads t with
    | .outside _ => some { s with threads := Function.update s.threads t op.entry }
    | _ => none
  | .resume t answer =>
    match resume s.client (s.threads t) answer with
    | some (client, pc, event) =>
      some ({ s with client, threads := Function.update s.threads t pc }.record event)
    | none => none

def Action.thread : Action → ℕ
  | .call t _ => t
  | .resume t _ => t

/-- `endInterruptedTransmission` ends a held transmission only while nothing is being published. -/
def interruptedIdle (s : State) : Action → Bool
  | .resume t (.ended (.ok _)) =>
    match s.threads t with
    | .endInterrupted _ => s.client.publicationState = .idle
    | _ => true
  | _ => true

end VoiceSession

end VoxTree

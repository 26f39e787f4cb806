import VoxTree.Audit
import VoxTree.Proofs.StoreUpdates
import Mathlib.Data.List.Induction

/-!
# Audit accounting

A command or operation changes the active transmissions and the log together in one of three ways
(`step_change`): it is rejected, starts one transmission, or takes some away. From these alone the
log accounts for every transmission that was ever active: it started once, and it ended once, by
the step that took it away, or is still active (`audit_accounts`).
-/

namespace VoxTree

variable {ω : Type*}

/-! ## What one step does -/

namespace AuditedOp

/-- The event that accounts for a transmission the step takes away. -/
def terminal (c : AuditedStore ω) (t : ActiveTransmission) :
    AuditedOp → Option TransmissionAuditEvent
  | .end command now _ =>
    some (recordEnded ⟨t, .pushToTalkReleased, now, command.correlationId⟩)
  | .interruptForModeration command now _ =>
    some (recordForcedInterruption ⟨t, .moderationInterrupted, now, command.correlationId⟩
      .moderation (c.playerOf command.sessionId))
  | .expireTimedOut now correlationId =>
    some (recordForcedInterruption ⟨t, .timedOut, now, correlationId⟩ .timeout)
  | .removeSession _ now correlationId =>
    some (recordForcedInterruption ⟨t, .disconnected, now, correlationId⟩ .sessionLifecycle)
  | .updateMembership _ _ now correlationId change =>
    some (recordForcedInterruption ⟨t, Store.changeReason change, now, correlationId⟩
      .membershipChange)
  | .replaceMembership _ _ now correlationId | .removeMembership _ now correlationId =>
    some (recordForcedInterruption ⟨t, .membershipChanged, now, correlationId⟩ .membershipChange)
  | .start .. | .upsertSession _ => none

/-- Whether the step is a start, an end or a moderation that is rejected. -/
def rejected (observer : LifecycleObserver ω) (ids : ℕ → TransmissionId) (c : AuditedStore ω) :
    AuditedOp → Bool
  | .start command now allowed => !(c.start observer ids command now allowed).1.isOk
  | .end command now allowed => !(c.end observer command now allowed).1.isOk
  | .interruptForModeration command now canInterrupt =>
    !(c.interruptForModeration observer command now canInterrupt).1.isOk
  | _ => false

/-- When the step is taken and under which correlation, if it may end transmissions. -/
def occasion : AuditedOp → Option (TimePoint × CorrelationId)
  | .end command now _ => some (now, command.correlationId)
  | .interruptForModeration command now _ => some (now, command.correlationId)
  | .expireTimedOut now correlationId | .removeSession _ now correlationId
  | .updateMembership _ _ now correlationId _ | .replaceMembership _ _ now correlationId
  | .removeMembership _ now correlationId => some (now, correlationId)
  | .start .. | .upsertSession _ => none

/-- What a step that ends transmissions is to the log: the type of its events, its operation, why
it ends them, and who does. -/
def ending (c : AuditedStore ω) (t : ActiveTransmission) : AuditedOp →
    Option (TransmissionAuditEventType × TransmissionAuditOperation × TransmissionStopReason
      × Option PlayerId)
  | .end .. => some (.ended, .end, .pushToTalkReleased, some t.authorization.senderPlayerId)
  | .interruptForModeration command .. => some (.forciblyInterrupted, .moderation,
    .moderationInterrupted, c.store.sessions[command.sessionId]?.map AuthenticatedSession.playerId)
  | .expireTimedOut .. => some (.forciblyInterrupted, .timeout, .timedOut, none)
  | .removeSession .. => some (.forciblyInterrupted, .sessionLifecycle, .disconnected, none)
  | .updateMembership _ _ _ _ .permissionsChanged =>
    some (.forciblyInterrupted, .membershipChange, .permissionRevoked, none)
  | .updateMembership _ _ _ _ .membershipChanged | .replaceMembership .. | .removeMembership .. =>
    some (.forciblyInterrupted, .membershipChange, .membershipChanged, none)
  | .start .. | .upsertSession _ => none

end AuditedOp

namespace TransmissionAuditEvent

/-- The event names the transmission with what it was authorized for. -/
structure Names (e : TransmissionAuditEvent) (t : ActiveTransmission) : Prop where
  transmissionId : e.transmissionId = some t.authorization.transmissionId
  clientTransmissionId : e.clientTransmissionId = some t.authorization.clientTransmissionId
  sessionId : e.sessionId = some t.sessionId
  deviceId : e.deviceId = some t.deviceId
  senderPlayerId : e.senderPlayerId = some t.authorization.senderPlayerId
  scope : e.scope = some t.authorization.scope
  membershipVersion : e.membershipVersion = some t.authorization.membershipVersion
  recipientCount : e.recipientCount = some t.authorization.recipients.length
  rejectionReason : e.rejectionReason = none

/-- The event says that the transmission started. -/
structure Starts (e : TransmissionAuditEvent) (t : ActiveTransmission) : Prop extends
    Names e t where
  type : e.type = .started
  operation : e.operation = .start
  occurredAt : e.occurredAt = t.startedAt
  correlationId : e.correlationId = t.authorization.correlationId
  actorPlayerId : e.actorPlayerId = some t.authorization.senderPlayerId
  stopReason : e.stopReason = none

/-- The event says that the transmission ended by the step. -/
structure Ends (c : AuditedStore ω) (op : AuditedOp) (e : TransmissionAuditEvent)
    (t : ActiveTransmission) : Prop extends Names e t where
  occasion : op.occasion = some (e.occurredAt, e.correlationId)
  ending : ∃ stopReason, e.stopReason = some stopReason
    ∧ op.ending c t = some (e.type, e.operation, stopReason, e.actorPlayerId)

theorem starts_recordStarted (t : ActiveTransmission) : (recordStarted t).Starts t where
  toNames := ⟨rfl, rfl, rfl, rfl, rfl, rfl, rfl, rfl, rfl⟩
  type := rfl
  operation := rfl
  occurredAt := rfl
  correlationId := rfl
  actorPlayerId := rfl
  stopReason := rfl

/-- What accounts for a transmission says how it ended. -/
theorem ends_of_terminal {c : AuditedStore ω} {op : AuditedOp} {t : ActiveTransmission}
    {e : TransmissionAuditEvent} (h : op.terminal c t = some e) : e.Ends c op t := by
  have hnames : e.Names t := by
    cases op <;> cases h <;> exact ⟨rfl, rfl, rfl, rfl, rfl, rfl, rfl, rfl, rfl⟩
  cases op with
  | updateMembership playerId context now correlationId change =>
    cases h
    cases change <;> exact ⟨hnames, rfl, _, rfl, rfl⟩
  | start | upsertSession => cases h
  | «end» | interruptForModeration | expireTimedOut | removeSession | replaceMembership
  | removeMembership =>
    cases h
    exact ⟨hnames, rfl, _, rfl, rfl⟩

/-- The event of a start of the transmission. -/
def startedOf (id : TransmissionId) (e : TransmissionAuditEvent) : Bool :=
  e.type = .started && e.transmissionId = some id

/-- The event of an end or a forced interruption of the transmission. -/
def terminalOf (id : TransmissionId) (e : TransmissionAuditEvent) : Bool :=
  (e.type = .ended || e.type = .forciblyInterrupted) && e.transmissionId = some id

theorem startedOf_recordStarted (id : TransmissionId) (t : ActiveTransmission) :
    startedOf id (recordStarted t) = true ↔ t.authorization.transmissionId = id := by
  simp [startedOf, recordStarted, addActiveTransmissionDetails]

theorem terminalOf_recordStarted (id : TransmissionId) (t : ActiveTransmission) :
    terminalOf id (recordStarted t) = false := by
  simp [terminalOf, recordStarted, addActiveTransmissionDetails]

theorem of_rejected (id : TransmissionId) {e : TransmissionAuditEvent} (h : e.type = .rejected) :
    startedOf id e = false ∧ terminalOf id e = false := by
  simp [startedOf, terminalOf, h]

theorem of_terminal (id : TransmissionId) {c : AuditedStore ω} {op : AuditedOp}
    {t : ActiveTransmission} {e : TransmissionAuditEvent} (h : op.terminal c t = some e) :
    e.type ≠ .rejected ∧ startedOf id e = false
      ∧ (terminalOf id e = true ↔ t.authorization.transmissionId = id) := by
  cases op <;> cases h <;>
    simp [startedOf, terminalOf, recordEnded, recordForcedInterruption,
      addActiveTransmissionDetails]

end TransmissionAuditEvent

/-- The event that accounts for the transmission the step takes away under an identifier. -/
def AuditedStore.terminalAt (c : AuditedStore ω) (op : AuditedOp) (id : TransmissionId) :
    Option TransmissionAuditEvent :=
  c.store.activeTransmissions[id]?.bind fun t => op.terminal c t

/-- What a step does to the active transmissions and the log. -/
inductive AuditedStore.Change (ids : ℕ → TransmissionId) (c : AuditedStore ω) (op : AuditedOp)
    (rejected : Bool) (c' : AuditedStore ω) : Prop
  | rejected (e : TransmissionAuditEvent) : rejected = true → e.type = .rejected →
      c'.store.activeTransmissions = c.store.activeTransmissions →
      c'.events = c.events ++ [e] → c.generated ≤ c'.generated → Change ids c op rejected c'
  | started (t : ActiveTransmission) : rejected = false →
      t.authorization.transmissionId = ids c.generated →
      c.store.activeTransmissions[t.authorization.transmissionId]? = none →
      c'.store.activeTransmissions = (c.store.emplace t).activeTransmissions →
      c'.events = c.events ++ [recordStarted t] → c'.generated = c.generated + 1 →
      Change ids c op rejected c'
  | left (gone : List TransmissionId) : rejected = false → gone.Nodup →
      (∀ id ∈ gone, ∃ t e, c.store.activeTransmissions[id]? = some t ∧ op.terminal c t = some e) →
      (∀ id : TransmissionId, c'.store.activeTransmissions[id]?
        = if id ∈ gone then none else c.store.activeTransmissions[id]?) →
      c'.events = c.events ++ gone.filterMap (c.terminalAt op) →
      c'.generated = c.generated → Change ids c op rejected c'

namespace Store

theorem eraseTransmission_left {s : Store} {transmissionId : TransmissionId}
    (id : TransmissionId) : (s.eraseTransmission transmissionId).activeTransmissions[id]?
      = if id ∈ [transmissionId] then none else s.activeTransmissions[id]? := by
  simp only [getElem?_eraseTransmission, List.mem_singleton, eq_comm]

/-- Transmissions left the store and are reported as ended, each once. -/
inductive Left (s s' : Store) (reason : TransmissionStopReason) (endedAt : TimePoint)
    (correlationId : CorrelationId) (ended : List EndedTransmission) : Prop
  | mk (gone : List TransmissionId) : gone.Nodup →
      (∀ id ∈ gone, ∃ t, s.activeTransmissions[id]? = some t) →
      (∀ id : TransmissionId, s'.activeTransmissions[id]?
        = if id ∈ gone then none else s.activeTransmissions[id]?) →
      ended = (gone.filterMap fun id => s.activeTransmissions[id]?.map fun t =>
        ⟨t, reason, endedAt, correlationId⟩) → Left s s' reason endedAt correlationId ended

theorem left_of_eq {s s' : Store} {reason : TransmissionStopReason} {endedAt : TimePoint}
    {correlationId : CorrelationId} (h : s'.activeTransmissions = s.activeTransmissions) :
    Left s s' reason endedAt correlationId [] :=
  ⟨[], .nil, by simp, by simp [h], rfl⟩

theorem left_interruptWhere {s s₀ : Store} (h : s₀.activeTransmissions = s.activeTransmissions)
    (stops : ActiveTransmission → Bool) (reason : TransmissionStopReason) (endedAt : TimePoint)
    (correlationId : CorrelationId) :
    Left s (s₀.interruptWhere stops reason endedAt correlationId).2 reason endedAt correlationId
      (s₀.interruptWhere stops reason endedAt correlationId).1 := by
  obtain ⟨gone, hnodup, hgone, hended⟩ := interruptWhere_reported s₀ stops reason endedAt
    correlationId
  rw [h] at hgone hended
  refine ⟨gone, hnodup, fun id hid => ?_, fun id => ?_, hended⟩
  · obtain ⟨t, ht, -⟩ := (hgone id).1 hid
    exact ⟨t, ht⟩
  · rw [getElem?_interruptWhere, h]
    rcases ht : s.activeTransmissions[id]? with _ | t
    · simp
    · have hmem : id ∈ gone ↔ stops t = true := by simp [hgone, ht]
      by_cases hstop : stops t = true <;> simp [hmem, hstop]

end Store

namespace TransmissionApplicationService

variable (observer : LifecycleObserver ω) (s : Store) (now : TimePoint) (w : ω)

variable {s now} in
theorem authorizeStart_id {command : StartTransmissionCommand} {id : TransmissionId}
    {transmission : AuthorizedTransmission}
    (h : authorizeStart s command now id = .ok transmission) :
    transmission.transmissionId = id := by
  unfold authorizeStart at h
  split at h
  · cases h
  split at h
  · cases h
  split at h
  · cases h
  obtain rfl := Except.ok.inj h
  rfl

/-- A start is rejected and changes no transmission, or starts one with the identifier it was
given. -/
theorem start_cases (command : StartTransmissionCommand) (allowed : Bool) (id : TransmissionId) :
    let r := start observer s command now allowed id w
    (∃ e, r.1 = .error e ∧ r.2.1 = s)
      ∨ ∃ t, r.1 = .ok t ∧ t.authorization.transmissionId = id
        ∧ s.activeTransmissions[id]? = none ∧ r.2.1 = s.emplace t
        ∧ generates s command now allowed id = true := by
  intro r
  simp only [r, start]
  split
  · exact .inl ⟨_, rfl, rfl⟩
  rename_i session hlookUp
  split
  · exact .inl ⟨_, rfl, rfl⟩
  rename_i transmission hauthorized
  have hid := authorizeStart_id hauthorized
  have hgenerates : generates s command now allowed id = true := by
    simp [generates, hlookUp, hauthorized, Except.isOk, Except.toBool]
  rcases hactivate : s.activate observer transmission command.sessionId command.deviceId now w with
    ⟨e | t, s', w'⟩
  · refine .inl ⟨_, rfl, ?_⟩
    have hsame : (s.activate observer transmission command.sessionId command.deviceId now w).2.1
        = s := Store.activate_error (by rw [hactivate]; rfl)
    rwa [hactivate] at hsame
  · unfold Store.activate at hactivate
    split at hactivate
    · cases hactivate
    rename_i entry hentry
    split at hactivate
    · obtain ⟨hauthorization, -, -, -, hactivated⟩ := Store.checkActivation_ok hentry
      have hfresh := hactivated.fresh
      obtain ⟨hok, hstore⟩ := Prod.mk.inj hactivate
      obtain rfl := Except.ok.inj hok
      obtain ⟨rfl, -⟩ := Prod.mk.inj hstore
      rw [hauthorization, hid] at hfresh
      exact .inr ⟨entry, rfl, by rw [hauthorization, hid], hfresh, rfl, hgenerates⟩
    · cases hactivate

/-- An end is rejected and changes nothing, or takes away a transmission of the session. -/
theorem end_cases (command : EndTransmissionCommand) (allowed : Bool) :
    let r := TransmissionApplicationService.end observer s command now allowed w
    (∃ e, r.1 = .error e ∧ r.2.1 = s)
      ∨ ∃ t, s.activeTransmissions[command.transmissionId]? = some t
        ∧ t.sessionId = command.sessionId ∧ t.deviceId = command.deviceId
        ∧ r.1 = .ok ⟨t, .pushToTalkReleased, now, command.correlationId⟩
        ∧ r.2.1 = s.eraseTransmission command.transmissionId := by
  intro r
  simp only [r, TransmissionApplicationService.end]
  split
  · exact .inl ⟨_, rfl, rfl⟩
  simp only [endActive, Store.end]
  split
  · exact .inl ⟨_, rfl, rfl⟩
  rename_i t ht
  split_ifs with howned
  · exact .inl ⟨_, rfl, rfl⟩
  · obtain ⟨hsession, hdevice⟩ := not_or.1 howned
    exact .inr ⟨t, ht, not_not.1 hsession, not_not.1 hdevice, rfl, rfl⟩

/-- A moderation is rejected and changes nothing, or takes away a transmission for a session
whose player may interrupt it. -/
theorem interruptForModeration_cases (command : ModerateTransmissionCommand)
    (canInterrupt : PlayerId → TransmissionId → Bool) :
    let r := interruptForModeration observer s command now canInterrupt w
    (∃ e, r.1 = .error e ∧ r.2.1 = s)
      ∨ ∃ session t, s.sessions[command.sessionId]? = some session
        ∧ session.deviceId = command.deviceId ∧ session.activeAt now = true
        ∧ canInterrupt session.playerId command.transmissionId = true
        ∧ s.activeTransmissions[command.transmissionId]? = some t
        ∧ r.1 = .ok ⟨t, .moderationInterrupted, now, command.correlationId⟩
        ∧ r.2.1 = s.eraseTransmission command.transmissionId := by
  intro r
  simp only [r, interruptForModeration]
  split
  · exact .inl ⟨_, rfl, rfl⟩
  rename_i session hsession
  split_ifs with hallowed
  · exact .inl ⟨_, rfl, rfl⟩
  simp only [Store.interrupt]
  split
  · exact .inl ⟨_, rfl, rfl⟩
  rename_i t ht
  obtain ⟨hstored, hdevice, hactive⟩ := requireSession_ok hsession
  exact .inr ⟨session, t, hstored, hdevice, hactive, by simpa using hallowed, ht, rfl, rfl⟩

end TransmissionApplicationService

namespace AuditedStore

variable {observer : LifecycleObserver ω} {ids : ℕ → TransmissionId}
  {maximumDuration : Milliseconds} {c : AuditedStore ω}

theorem record_change {op : AuditedOp} {storeOp : StoreOp}
    {operation : TransmissionAuditOperation} {reason : TransmissionStopReason} {now : TimePoint}
    {correlationId : CorrelationId}
    (hleft : Store.Left c.store (storeOp.locked observer c.store c.observer).2.1 reason now
      correlationId (storeOp.locked observer c.store c.observer).1)
    (hterminal : ∀ t, op.terminal c t
      = some (recordForcedInterruption ⟨t, reason, now, correlationId⟩ operation)) :
    Change ids c op false (c.record observer storeOp operation) := by
  obtain ⟨gone, hnodup, hgone, hactive, hended⟩ := hleft
  refine .left gone rfl hnodup (fun id hid => ?_) hactive ?_ rfl
  · obtain ⟨t, ht⟩ := hgone id hid
    exact ⟨t, _, ht, hterminal t⟩
  · simp only [record, hended, List.map_filterMap, Option.map_map]
    congr 1
    refine List.filterMap_congr fun id _ => ?_
    simp only [terminalAt, hterminal]
    rcases c.store.activeTransmissions[id]? with _ | t <;> rfl

/-- A membership update interrupts the player's transmissions, or is rejected. -/
theorem updateMembership_left (s : Store) (p : PlayerId) (context : AuthoritativeMembershipContext)
    (now : TimePoint) (correlationId : CorrelationId) (change : AuthoritativeContextChange) :
    let r := s.updateMembershipLocked p context now correlationId change
    Store.Left s r.2 (Store.changeReason change) now correlationId (r.1.toOption.getD []) := by
  intro r
  simp only [r, Store.updateMembershipLocked]
  split
  · exact Store.left_of_eq rfl
  split_ifs
  · exact Store.left_of_eq rfl
  · refine Store.left_interruptWhere ?_ _ _ _ _
    rfl

variable (observer ids maximumDuration c) in
/-- Every step is rejected, starts one transmission, or takes some away. -/
theorem step_change (op : AuditedOp) :
    Change ids c op (op.rejected observer ids c) (c.step observer ids maximumDuration op) := by
  cases op with
  | start command now allowed =>
    simp only [step, AuditedOp.rejected, start]
    rcases TransmissionApplicationService.start_cases observer c.store now c.observer command
      allowed (ids c.generated) with
      ⟨e, he, hs⟩ | ⟨t, ht, hid, hfresh, hs, hgenerates⟩
    · refine .rejected _ (by rw [he]; rfl) ?_ (congrArg Store.activeTransmissions hs) rfl ?_
      · rw [he]
        rfl
      · dsimp only
        split_ifs <;> omega
    · refine .started t (by rw [ht]; rfl) hid (by rw [hid]; exact hfresh)
        (congrArg Store.activeTransmissions hs) ?_ ?_
      · rw [ht]
      · simp only [hgenerates, if_true]
  | «end» command now allowed =>
    simp only [step, AuditedOp.rejected, AuditedStore.end]
    rcases TransmissionApplicationService.end_cases observer c.store now c.observer command
      allowed with ⟨e, he, hs⟩ | ⟨t, ht, -, -, hok, herased⟩
    · refine .rejected _ (by rw [he]; rfl) ?_ (congrArg Store.activeTransmissions hs) rfl
        (Nat.le_refl _)
      rw [he]
      rfl
    · refine .left [command.transmissionId] (by rw [hok]; rfl) (by simp) ?_
        (herased ▸ Store.eraseTransmission_left) ?_ rfl
      · simpa [ht] using ⟨_, rfl⟩
      · simp [hok, ht, terminalAt, AuditedOp.terminal]
  | interruptForModeration command now canInterrupt =>
    simp only [step, AuditedOp.rejected, interruptForModeration]
    rcases TransmissionApplicationService.interruptForModeration_cases observer c.store now
      c.observer command canInterrupt with
      ⟨e, he, hs⟩ | ⟨-, t, -, -, -, -, ht, hok, herased⟩
    · refine .rejected _ (by rw [he]; rfl) ?_ (congrArg Store.activeTransmissions hs) rfl
        (Nat.le_refl _)
      rw [he]
      rfl
    · refine .left [command.transmissionId] (by rw [hok]; rfl) (by simp) ?_
        (herased ▸ Store.eraseTransmission_left) ?_ rfl
      · simpa [ht] using ⟨_, rfl⟩
      · simp [hok, ht, terminalAt, AuditedOp.terminal]
  | expireTimedOut now correlationId =>
    exact record_change (Store.left_interruptWhere rfl _ _ _ _) fun _ => rfl
  | upsertSession session =>
    refine .left [] rfl .nil (by simp) (fun id => ?_) ?_ rfl
    · simp [step, record, StoreOp.locked, Store.upsertSession]
    · simp [step, record, StoreOp.locked]
  | removeSession sessionId now correlationId =>
    have hleft : Store.Left c.store (c.store.removeSessionLocked sessionId now correlationId).2
        .disconnected now correlationId
        (c.store.removeSessionLocked sessionId now correlationId).1 := by
      unfold Store.removeSessionLocked
      split
      · exact Store.left_of_eq rfl
      · refine Store.left_interruptWhere ?_ _ _ _ _
        rfl
    exact record_change hleft fun _ => rfl
  | updateMembership playerId context now correlationId change =>
    exact record_change (updateMembership_left c.store playerId context now correlationId change)
      fun _ => rfl
  | replaceMembership playerId context now correlationId =>
    exact record_change (updateMembership_left c.store playerId context now correlationId
      .membershipChanged) fun _ => rfl
  | removeMembership playerId now correlationId =>
    refine record_change (Store.left_interruptWhere ?_ _ _ _ _) fun _ => rfl
    rfl

/-! ## What a step does to one transmission -/

/-- How a step touches one identifier, with the events it adds to the log: not at all, it starts
the transmission, or it takes it away. -/
inductive Touch (ids : ℕ → TransmissionId) (c : AuditedStore ω) (op : AuditedOp)
    (c' : AuditedStore ω) (added : List TransmissionAuditEvent) (id : TransmissionId) : Prop
  | untouched : c'.store.activeTransmissions[id]? = c.store.activeTransmissions[id]? →
      added.filter (TransmissionAuditEvent.startedOf id) = [] →
      added.filter (TransmissionAuditEvent.terminalOf id) = [] → Touch ids c op c' added id
  | started (t : ActiveTransmission) : id = ids c.generated → c'.generated = c.generated + 1 →
      c'.store.activeTransmissions[id]? = some t →
      added.filter (TransmissionAuditEvent.startedOf id) = [recordStarted t] →
      added.filter (TransmissionAuditEvent.terminalOf id) = [] → Touch ids c op c' added id
  | left (t : ActiveTransmission) (e : TransmissionAuditEvent) :
      c.store.activeTransmissions[id]? = some t → c'.store.activeTransmissions[id]? = none →
      op.terminal c t = some e → added.filter (TransmissionAuditEvent.startedOf id) = [] →
      added.filter (TransmissionAuditEvent.terminalOf id) = [e] → Touch ids c op c' added id

open TransmissionAuditEvent in
/-- Of the events of the transmissions that leave, one is about a transmission that leaves. -/
theorem filter_terminal (op : AuditedOp) {gone : List TransmissionId} (hnodup : gone.Nodup)
    (hkeyed : ∀ (id : TransmissionId) (t : ActiveTransmission),
      c.store.activeTransmissions[id]? = some t → t.authorization.transmissionId = id)
    (id : TransmissionId) :
    (gone.filterMap (c.terminalAt op)).filter (startedOf id) = []
      ∧ (gone.filterMap (c.terminalAt op)).filter (terminalOf id)
        = if id ∈ gone then (c.terminalAt op id).toList else [] := by
  induction gone with
  | nil => exact ⟨rfl, rfl⟩
  | cons id' gone ih =>
    obtain ⟨hfresh, hrest⟩ := List.nodup_cons.1 hnodup
    obtain ⟨ihstarted, ihterminal⟩ := ih hrest
    rcases he : c.terminalAt op id' with _ | e
    · rw [List.filterMap_cons_none he]
      refine ⟨ihstarted, ihterminal.trans ?_⟩
      by_cases hid : id = id'
      · subst hid
        simp [he, hfresh]
      · simp [hid]
    · rw [List.filterMap_cons_some he]
      obtain ⟨t, ht, hterminal⟩ := Option.bind_eq_some_iff.1 he
      obtain ⟨-, hstarted, hleft⟩ := of_terminal id hterminal
      rw [hkeyed id' t ht] at hleft
      refine ⟨by simpa [hstarted] using ihstarted, ?_⟩
      by_cases hid : id' = id
      · subst hid
        rw [List.filter_cons_of_pos (hleft.2 rfl), ihterminal, if_neg hfresh]
        simp [he]
      · rw [List.filter_cons_of_neg (fun h => hid (hleft.1 h)), ihterminal]
        simp [Ne.symm hid]

open TransmissionAuditEvent in
theorem Change.touch {op : AuditedOp} {rejected : Bool} {c' : AuditedStore ω}
    (h : Change ids c op rejected c')
    (hkeyed : ∀ (id : TransmissionId) (t : ActiveTransmission),
      c.store.activeTransmissions[id]? = some t → t.authorization.transmissionId = id) :
    c.generated ≤ c'.generated ∧ ∃ added, c'.events = c.events ++ added
      ∧ ∀ id, Touch ids c op c' added id := by
  cases h with
  | rejected e _ htype hactive hevents hgenerated =>
    refine ⟨hgenerated, [e], hevents, fun id => .untouched (by rw [hactive]) ?_ ?_⟩
    · simp [(of_rejected id htype).1]
    · simp [(of_rejected id htype).2]
  | started t _ hid hfresh hactive hevents hgenerated =>
    refine ⟨by omega, [recordStarted t], hevents, fun id => ?_⟩
    have hget := c.store.getElem?_emplace t id
    rw [← hactive] at hget
    by_cases ht : t.authorization.transmissionId = id
    · rw [if_pos ht] at hget
      refine .started t (ht.symm.trans hid) hgenerated hget ?_ ?_
      · simp [(startedOf_recordStarted id t).2 ht]
      · simp [terminalOf_recordStarted]
    · rw [if_neg ht] at hget
      refine .untouched hget ?_ (by simp [terminalOf_recordStarted])
      simp [mt (startedOf_recordStarted id t).1 ht]
  | left gone _ hnodup hgone hactive hevents hgenerated =>
    refine ⟨Nat.le_of_eq hgenerated.symm, _, hevents, fun id => ?_⟩
    obtain ⟨hstarted, hterminal⟩ := filter_terminal op hnodup hkeyed id
    by_cases hid : id ∈ gone
    · obtain ⟨t, e, ht, he⟩ := hgone id hid
      refine .left t e ht (by rw [hactive, if_pos hid]) he hstarted ?_
      simp [hterminal, hid, terminalAt, ht, he]
    · exact .untouched (by rw [hactive, if_neg hid]) hstarted (by rw [hterminal, if_neg hid])

end AuditedStore

/-! ## What a run accounts for -/

section Run

open AuditedStore TransmissionAuditEvent

variable (observer : LifecycleObserver ω) (ids : ℕ → TransmissionId)
  (maximumDuration : Milliseconds) (w : ω)

/-- The transmission was active under the identifier at some point of the run. -/
def EverActive (ops : List AuditedOp) (id : TransmissionId) (t : ActiveTransmission) : Prop :=
  ∃ before, before <+: ops
    ∧ (run observer ids maximumDuration w before).store.activeTransmissions[id]? = some t

/-- What the log of a run says of the transmissions and of the commands of the run. -/
structure AuditAccounts (ops : List AuditedOp) : Prop where
  /-- Every transmission that was ever active has one started event, which names it. -/
  started : ∀ (id : TransmissionId) (t : ActiveTransmission),
    EverActive observer ids maximumDuration w ops id t →
    ∃ e, e.Starts t ∧ (run observer ids maximumDuration w ops).events.filter (startedOf id) = [e]
  /-- It is still active and has no terminal event, or some step took it away and its one terminal
  event names it and says how the step ended it. -/
  terminal : ∀ (id : TransmissionId) (t : ActiveTransmission),
    EverActive observer ids maximumDuration w ops id t →
    ((run observer ids maximumDuration w ops).store.activeTransmissions[id]? = some t
      ∧ (run observer ids maximumDuration w ops).events.filter (terminalOf id) = [])
    ∨ ((run observer ids maximumDuration w ops).store.activeTransmissions[id]? = none
      ∧ ∃ before op after e, ops = before ++ op :: after
        ∧ (run observer ids maximumDuration w before).store.activeTransmissions[id]? = some t
        ∧ (run observer ids maximumDuration w (before ++ [op])).store.activeTransmissions[id]?
          = none
        ∧ e.Ends (run observer ids maximumDuration w before) op t
        ∧ (run observer ids maximumDuration w ops).events.filter (terminalOf id) = [e])
  /-- A rejected command adds one rejected event and nothing else, the other steps add none. -/
  rejected : ∀ before op after, ops = before ++ op :: after →
    ∃ added, (run observer ids maximumDuration w (before ++ [op])).events
        = (run observer ids maximumDuration w before).events ++ added
      ∧ if op.rejected observer ids (run observer ids maximumDuration w before) = true then
          ∃ e, added = [e] ∧ e.type = .rejected
        else ∀ e ∈ added, e.type ≠ .rejected
  /-- There are no other events. -/
  only : ∀ e ∈ (run observer ids maximumDuration w ops).events, e.type = .rejected
    ∨ ∃ id t, EverActive observer ids maximumDuration w ops id t
      ∧ (startedOf id e = true ∨ terminalOf id e = true)

variable {observer ids maximumDuration w}

theorem run_snoc (ops : List AuditedOp) (op : AuditedOp) :
    run observer ids maximumDuration w (ops ++ [op])
      = (run observer ids maximumDuration w ops).step observer ids maximumDuration op := by
  simp [run, List.foldl_append]

theorem everActive_snoc {ops : List AuditedOp} {op : AuditedOp} {id : TransmissionId}
    {t : ActiveTransmission} :
    EverActive observer ids maximumDuration w (ops ++ [op]) id t
      ↔ EverActive observer ids maximumDuration w ops id t
        ∨ (run observer ids maximumDuration w (ops ++ [op])).store.activeTransmissions[id]?
          = some t := by
  constructor
  · rintro ⟨before, hbefore, ht⟩
    rcases List.prefix_concat_iff.1 hbefore with rfl | hbefore
    · exact .inr ht
    · exact .inl ⟨before, hbefore, ht⟩
  · rintro (⟨before, hbefore, ht⟩ | ht)
    · exact ⟨before, hbefore.trans (List.prefix_append _ _), ht⟩
    · exact ⟨_, List.prefix_rfl, ht⟩

theorem everActive_of_active {ops : List AuditedOp} {id : TransmissionId} {t : ActiveTransmission}
    (h : (run observer ids maximumDuration w ops).store.activeTransmissions[id]? = some t) :
    EverActive observer ids maximumDuration w ops id t :=
  ⟨ops, List.prefix_rfl, h⟩

/-- What the log says of one identifier, and what the generator does: an identifier that has no
events yet was not handed out. -/
structure Account (observer : LifecycleObserver ω) (ids : ℕ → TransmissionId)
    (maximumDuration : Milliseconds) (w : ω) (ops : List AuditedOp) (id : TransmissionId) :
    Prop where
  unborn : (∀ t, ¬EverActive observer ids maximumDuration w ops id t) →
    (run observer ids maximumDuration w ops).events.filter (startedOf id) = []
      ∧ (run observer ids maximumDuration w ops).events.filter (terminalOf id) = []
  generated : ∀ t, EverActive observer ids maximumDuration w ops id t →
    ∃ k < (run observer ids maximumDuration w ops).generated, ids k = id
  started : ∀ t, EverActive observer ids maximumDuration w ops id t →
    (run observer ids maximumDuration w ops).events.filter (startedOf id) = [recordStarted t]
  terminal : ∀ t, EverActive observer ids maximumDuration w ops id t →
    ((run observer ids maximumDuration w ops).store.activeTransmissions[id]? = some t
      ∧ (run observer ids maximumDuration w ops).events.filter (terminalOf id) = [])
    ∨ ((run observer ids maximumDuration w ops).store.activeTransmissions[id]? = none
      ∧ ∃ before op after e, ops = before ++ op :: after
        ∧ (run observer ids maximumDuration w before).store.activeTransmissions[id]? = some t
        ∧ (run observer ids maximumDuration w (before ++ [op])).store.activeTransmissions[id]?
          = none
        ∧ op.terminal (run observer ids maximumDuration w before) t = some e
        ∧ (run observer ids maximumDuration w ops).events.filter (terminalOf id) = [e])

theorem Account.nil (id : TransmissionId) :
    Account observer ids maximumDuration w [] id := by
  have hnone : ∀ t, ¬EverActive observer ids maximumDuration w [] id t := by
    rintro t ⟨before, hbefore, ht⟩
    rw [List.prefix_nil.1 hbefore] at ht
    simp [run] at ht
  exact ⟨fun _ => ⟨rfl, rfl⟩, fun t ht => (hnone t ht).elim, fun t ht => (hnone t ht).elim,
    fun t ht => (hnone t ht).elim⟩

theorem Account.snoc (hids : Function.Injective ids) {ops : List AuditedOp} {op : AuditedOp}
    {id : TransmissionId} (h : Account observer ids maximumDuration w ops id)
    {added : List TransmissionAuditEvent}
    (hgenerated : (run observer ids maximumDuration w ops).generated
      ≤ (run observer ids maximumDuration w (ops ++ [op])).generated)
    (hevents : (run observer ids maximumDuration w (ops ++ [op])).events
      = (run observer ids maximumDuration w ops).events ++ added)
    (htouch : Touch ids (run observer ids maximumDuration w ops) op
      (run observer ids maximumDuration w (ops ++ [op])) added id) :
    Account observer ids maximumDuration w (ops ++ [op]) id := by
  have hold : ∀ t, EverActive observer ids maximumDuration w ops id t →
      EverActive observer ids maximumDuration w (ops ++ [op]) id t :=
    fun t ht => everActive_snoc.2 (.inl ht)
  cases htouch with
  | untouched hactive hstarted hterminal =>
    have hback : ∀ t, EverActive observer ids maximumDuration w (ops ++ [op]) id t →
        EverActive observer ids maximumDuration w ops id t := by
      intro t ht
      rcases everActive_snoc.1 ht with ht | ht
      · exact ht
      · rw [hactive] at ht
        exact everActive_of_active ht
    refine ⟨fun hnone => ?_, fun t ht => ?_, fun t ht => ?_, fun t ht => ?_⟩
    · obtain ⟨hs, he⟩ := h.unborn fun t ht => hnone t (hold t ht)
      simp [hevents, hs, he, hstarted, hterminal]
    · obtain ⟨k, hk, hid⟩ := h.generated t (hback t ht)
      exact ⟨k, by omega, hid⟩
    · simp [hevents, h.started t (hback t ht), hstarted]
    · rcases h.terminal t (hback t ht) with ⟨hin, hlog⟩ |
        ⟨hout, before, op', after, e, hsplit, hin, hgone, he, hlog⟩
      · exact .inl ⟨hactive.trans hin, by simp [hevents, hlog, hterminal]⟩
      · refine .inr ⟨hactive.trans hout, before, op', after ++ [op], e, ?_, hin, hgone, he, ?_⟩
        · simp [hsplit]
        · simp [hevents, hlog, hterminal]
  | started t₀ hid hgen hactive hstarted hterminal =>
    have hunborn : ∀ t, ¬EverActive observer ids maximumDuration w ops id t := by
      intro t ht
      obtain ⟨k, hk, hkid⟩ := h.generated t ht
      have := hids (hkid.trans hid)
      omega
    have hback : ∀ t, EverActive observer ids maximumDuration w (ops ++ [op]) id t → t = t₀ := by
      intro t ht
      rcases everActive_snoc.1 ht with ht | ht
      · exact (hunborn t ht).elim
      · exact Option.some.inj (ht.symm.trans hactive)
    obtain ⟨hs, he⟩ := h.unborn hunborn
    refine ⟨fun hnone => ?_, fun t ht => ?_, fun t ht => ?_, fun t ht => ?_⟩
    · exact (hnone t₀ (everActive_of_active hactive)).elim
    · exact ⟨_, by omega, hid.symm⟩
    · simp [hback t ht, hevents, hs, hstarted]
    · obtain rfl := hback t ht
      exact .inl ⟨hactive, by simp [hevents, he, hterminal]⟩
  | left t₀ e hin hgone he hstarted hterminal =>
    have hback : ∀ t, EverActive observer ids maximumDuration w (ops ++ [op]) id t →
        EverActive observer ids maximumDuration w ops id t := by
      intro t ht
      rcases everActive_snoc.1 ht with ht | ht
      · exact ht
      · rw [hgone] at ht
        cases ht
    refine ⟨fun hnone => ?_, fun t ht => ?_, fun t ht => ?_, fun t ht => ?_⟩
    · exact (hnone t₀ (hold t₀ (everActive_of_active hin))).elim
    · obtain ⟨k, hk, hid⟩ := h.generated t (hback t ht)
      exact ⟨k, by omega, hid⟩
    · simp [hevents, h.started t (hback t ht), hstarted]
    · rcases h.terminal t (hback t ht) with ⟨hin', hlog⟩ | ⟨hout, -⟩
      · obtain rfl : t = t₀ := Option.some.inj (hin'.symm.trans hin)
        exact .inr ⟨hgone, ops, op, [], e, rfl, hin, hgone, he, by simp [hevents, hlog, hterminal]⟩
      · rw [hin] at hout
        cases hout

/-- Transmissions are stored under their own identifiers in every state of a run. -/
theorem run_keyed (ops : List AuditedOp) (id : TransmissionId) (t : ActiveTransmission)
    (h : (run observer ids maximumDuration w ops).store.activeTransmissions[id]? = some t) :
    t.authorization.transmissionId = id := by
  induction ops using List.reverseRecOn generalizing id t with
  | nil => simp [run] at h
  | append_singleton ops op ih =>
    rw [run_snoc] at h
    cases step_change observer ids maximumDuration (run observer ids maximumDuration w ops) op with
    | rejected e _ _ hactive _ _ => exact ih id t (hactive ▸ h)
    | started t₀ _ _ _ hactive _ _ =>
      rw [hactive, Store.getElem?_emplace] at h
      split_ifs at h with hid
      · obtain rfl := Option.some.inj h
        exact hid
      · exact ih id t h
    | left gone _ _ _ hactive _ _ =>
      rw [hactive] at h
      split_ifs at h
      exact ih id t h

theorem account (hids : Function.Injective ids) (ops : List AuditedOp) (id : TransmissionId) :
    Account observer ids maximumDuration w ops id := by
  induction ops using List.reverseRecOn with
  | nil => exact .nil id
  | append_singleton ops op ih =>
    have hchange := step_change observer ids maximumDuration
      (run observer ids maximumDuration w ops) op
    rw [← run_snoc] at hchange
    obtain ⟨hgenerated, added, hevents, htouch⟩ := hchange.touch (run_keyed ops)
    exact ih.snoc hids hgenerated hevents (htouch id)

variable (observer ids maximumDuration w) in
/-- What a step adds to the log, told apart by the events' types. -/
theorem step_events (before : List AuditedOp) (op : AuditedOp) :
    ∃ added, (run observer ids maximumDuration w (before ++ [op])).events
        = (run observer ids maximumDuration w before).events ++ added
      ∧ (if op.rejected observer ids (run observer ids maximumDuration w before) = true then
          ∃ e, added = [e] ∧ e.type = .rejected
        else ∀ e ∈ added, e.type ≠ .rejected)
      ∧ ∀ e ∈ added, e.type = .rejected
        ∨ ∃ id t, EverActive observer ids maximumDuration w (before ++ [op]) id t
          ∧ (startedOf id e = true ∨ terminalOf id e = true) := by
  have hchange := step_change observer ids maximumDuration
    (run observer ids maximumDuration w before) op
  rw [← run_snoc] at hchange
  cases hchange with
  | rejected e hrejected htype _ hevents _ =>
    refine ⟨[e], hevents, ?_, ?_⟩
    · rw [if_pos hrejected]
      exact ⟨e, rfl, htype⟩
    · simp [htype]
  | started t hrejected hid hfresh hactive hevents _ =>
    refine ⟨[recordStarted t], hevents, ?_, ?_⟩
    · simp [hrejected, recordStarted, addActiveTransmissionDetails]
    · have hin : (run observer ids maximumDuration w
          (before ++ [op])).store.activeTransmissions[t.authorization.transmissionId]? = some t := by
        rw [hactive, Store.getElem?_emplace, if_pos rfl]
      refine fun e he => .inr ⟨_, t, everActive_of_active hin, .inl ?_⟩
      rw [List.mem_singleton.1 he]
      exact (startedOf_recordStarted _ t).2 rfl
  | left gone hrejected _ _ _ hevents _ =>
    have hterminal : ∀ e ∈ gone.filterMap
        ((run observer ids maximumDuration w before).terminalAt op),
        ∃ (id : TransmissionId) (t : ActiveTransmission),
        (run observer ids maximumDuration w before).store.activeTransmissions[id]? = some t
          ∧ op.terminal (run observer ids maximumDuration w before) t = some e := by
      intro e he
      obtain ⟨id, -, hid⟩ := List.mem_filterMap.1 he
      obtain ⟨t, ht, hte⟩ := Option.bind_eq_some_iff.1 hid
      exact ⟨id, t, ht, hte⟩
    refine ⟨_, hevents, ?_, fun e he => ?_⟩
    · rw [if_neg (by simp [hrejected])]
      intro e he
      obtain ⟨id, t, -, hte⟩ := hterminal e he
      exact (of_terminal id hte).1
    · obtain ⟨id, t, ht, hte⟩ := hterminal e he
      refine .inr ⟨id, t, everActive_snoc.2 (.inl (everActive_of_active ht)), .inr ?_⟩
      exact (of_terminal id hte).2.2.2 (run_keyed before id t ht)

theorem run_events_only (ops : List AuditedOp) :
    ∀ e ∈ (run observer ids maximumDuration w ops).events, e.type = .rejected
      ∨ ∃ id t, EverActive observer ids maximumDuration w ops id t
        ∧ (startedOf id e = true ∨ terminalOf id e = true) := by
  induction ops using List.reverseRecOn with
  | nil => simp [run]
  | append_singleton ops op ih =>
    obtain ⟨added, hevents, -, honly⟩ := step_events observer ids maximumDuration w ops op
    rw [hevents]
    intro e he
    rcases List.mem_append.1 he with he | he
    · rcases ih e he with htype | ⟨id, t, ht, he⟩
      · exact .inl htype
      · exact .inr ⟨id, t, everActive_snoc.2 (.inl ht), he⟩
    · exact honly e he

/-- The log of every run accounts for its transmissions and its rejected commands, as long as the
generator never hands out an identifier twice. -/
theorem audit_accounts (observer : LifecycleObserver ω) (ids : ℕ → TransmissionId)
    (hids : Function.Injective ids) (maximumDuration : Milliseconds) (w : ω)
    (ops : List AuditedOp) : AuditAccounts observer ids maximumDuration w ops where
  started id t ht := ⟨_, starts_recordStarted t, (account hids ops id).started t ht⟩
  terminal id t ht := by
    refine ((account hids ops id).terminal t ht).imp_right ?_
    rintro ⟨hgone, before, op, after, e, hops, hin, hout, he, hlog⟩
    exact ⟨hgone, before, op, after, e, hops, hin, hout, ends_of_terminal he, hlog⟩
  rejected before op after hops := by
    obtain ⟨added, hevents, hadded, -⟩ := step_events observer ids maximumDuration w before op
    exact ⟨added, hevents, hadded⟩
  only := run_events_only ops

end Run

namespace Sample

/-- Identifiers told apart by their lengths. -/
def numbered (n : ℕ) : TransmissionId := ⟨116 :: List.replicate n 120, List.cons_ne_nil _ _⟩

theorem numbered_injective : Function.Injective numbered := by
  intro m n h
  have hlength := congrArg (fun id : TransmissionId => id.value.length) h
  simpa [numbered] using hlength

/-- `alice` speaks, is refused a second transmission, ends the first and is interrupted in a
third. -/
def audited : List AuditedOp :=
  let command : StartTransmissionCommand :=
    ⟨session, device, clientTransmission, .team, 1, correlation⟩
  [.upsertSession authenticated, .updateMembership alice (context 1 Nat.one_pos) 0 correlation
    .membershipChanged, .start command 0 true, .start command 0 true,
    .end ⟨session, device, numbered 0, correlation⟩ 1 true, .start command 2 true,
    .removeSession session 3 correlation]

end Sample

open Sample in
theorem audit_accounts_alice : AuditAccounts recorder numbered 1000 [] audited
    ∧ ((AuditedStore.run recorder numbered 1000 [] audited).events.map fun e => e.type)
      = [.started, .rejected, .ended, .started, .forciblyInterrupted] :=
  ⟨audit_accounts recorder numbered numbered_injective 1000 [] audited, by decide +kernel⟩

end VoxTree

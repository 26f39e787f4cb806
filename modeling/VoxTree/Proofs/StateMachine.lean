import VoxTree.StateMachine

/-!
# The two machines of a voice session agree

A transmission is only under way while the connection is ready, and under the membership version
of the connection (`Consistent`). Every event keeps this, whatever request or transmission it is
about, and a transmission that was interrupted stays idle until the next request that is accepted.
-/

namespace VoxTree

section Attempt

variable {σ : Type*} {s next : σ} {guard : Bool}

variable (s next guard) in
theorem attempt_cases : attempt s guard next = (false, s)
    ∨ guard = true ∧ attempt s guard next = (true, next) := by
  unfold attempt
  rcases guard with _ | _
  · exact .inl rfl
  · exact .inr ⟨rfl, rfl⟩

theorem attempt_false (h : (attempt s guard next).1 = false) :
    (attempt s guard next).2 = s := by
  rcases attempt_cases s next guard with hfalse | ⟨-, htrue⟩
  · rw [hfalse]
  · rw [htrue] at h
    cases h

end Attempt

/-! ## The connection -/

namespace ConnectionStateMachine

/-- A membership version is known while subscriptions are restored and afterwards. -/
def WellFormed (c : ConnectionStateMachine) : Prop :=
  c.membershipVersion.isSome = true ↔ c.state = .restoringSubscriptions ∨ c.state = .ready

variable {c : ConnectionStateMachine}

/-- An operation that does not leave a connection that is ready, and loses no version. -/
structure Quiet (c c' : ConnectionStateMachine) : Prop where
  wellFormed : c.WellFormed → c'.WellFormed
  ready : c.state = .ready → c' = c
  version : ∀ v, c.WellFormed → c.membershipVersion = some v → c'.membershipVersion = some v

theorem Quiet.refl : Quiet c c := ⟨id, fun _ => rfl, fun _ _ h => h⟩

/-- Where no version is known, none is lost. -/
theorem quiet_next {c' : ConnectionStateMachine} (hwellFormed : c'.WellFormed)
    (hrestoring : c.state ≠ .restoringSubscriptions) (hready : c.state ≠ .ready) : Quiet c c' := by
  refine ⟨fun _ => hwellFormed, fun h => absurd h hready, fun v h hv => ?_⟩
  have hsome : c.membershipVersion.isSome = true := by rw [hv]; rfl
  rcases h.1 hsome with hstate | hstate
  · exact absurd hstate hrestoring
  · exact absurd hstate hready

theorem beginConnect_quiet : Quiet c c.beginConnect.2 := by
  unfold beginConnect
  rcases attempt_cases _ _ _ with h | ⟨hguard, h⟩
  · rw [h]
    exact .refl
  · rw [h]
    have hstate : c.state = .disconnected := of_decide_eq_true hguard
    refine ⟨fun hwell => ?_, fun hready => ?_, fun v _ hv => hv⟩
    · have hnone : ¬c.membershipVersion.isSome = true := fun hsome => by
        simpa [hstate] using hwell.1 hsome
      simpa [WellFormed] using hnone
    · cases hstate.symm.trans hready

theorem transportConnected_quiet : Quiet c c.transportConnected.2 := by
  unfold transportConnected
  rcases attempt_cases _ _ _ with h | ⟨hguard, h⟩
  · rw [h]
    exact .refl
  · rw [h]
    have hstate : c.state = .connectingTransport ∨ c.state = .reconnectingTransport := by
      simpa using hguard
    rcases hstate with hstate | hstate
    · exact quiet_next (by simp [WellFormed]) (by simp [hstate]) (by simp [hstate])
    · exact quiet_next (by simp [WellFormed]) (by simp [hstate]) (by simp [hstate])

theorem membershipRefreshed_quiet (version : ℕ) : Quiet c (c.membershipRefreshed version).2 := by
  unfold membershipRefreshed
  rcases attempt_cases _ _ _ with h | ⟨hguard, h⟩
  · rw [h]
    exact .refl
  · rw [h]
    have hstate : c.state = .refreshingMembership ∧ version ≠ 0 := by simpa using hguard
    exact quiet_next (by simp [WellFormed]) (by simp [hstate.1]) (by simp [hstate.1])

theorem subscriptionsRestored_quiet (version : ℕ) :
    Quiet c (c.subscriptionsRestored version).2 := by
  unfold subscriptionsRestored
  rcases attempt_cases _ _ _ with h | ⟨hguard, h⟩
  · rw [h]
    exact .refl
  · rw [h]
    have hstate : c.state = .restoringSubscriptions ∧ c.membershipVersion = some version := by
      simpa using hguard
    refine ⟨fun _ => by simp [WellFormed, hstate.2], fun hready => ?_, fun v _ hv => hv⟩
    cases hstate.1.symm.trans hready

theorem membershipChanged_cases (version : ℕ) :
    c.membershipChanged version = (false, c)
      ∨ (c.membershipChanged version).1 = true ∧ (c.membershipChanged version).2.WellFormed
        ∧ ∀ v, c.membershipVersion = some v →
          v < version ∧ (c.membershipChanged version).2.membershipVersion = some version := by
  unfold membershipChanged
  rcases attempt_cases _ _ _ with h | ⟨hguard, h⟩
  · exact .inl h
  · rw [h]
    refine .inr ⟨rfl, by simp [WellFormed], fun v hv => ⟨?_, rfl⟩⟩
    have hnewer := (Bool.and_eq_true _ _).mp hguard |>.2
    rw [hv] at hnewer
    simpa using hnewer

theorem connectionLost_cases : c.connectionLost = (false, c)
    ∨ c.connectionLost.1 = true ∧ c.connectionLost.2.WellFormed := by
  unfold connectionLost
  rcases attempt_cases _ _ _ with h | ⟨-, h⟩
  · exact .inl h
  · rw [h]
    exact .inr ⟨rfl, by simp [WellFormed]⟩

theorem disconnect_cases : c.disconnect = (false, c)
    ∨ c.disconnect.1 = true ∧ c.disconnect.2.WellFormed := by
  unfold disconnect
  rcases attempt_cases _ _ _ with h | ⟨-, h⟩
  · exact .inl h
  · rw [h]
    exact .inr ⟨rfl, by simp [WellFormed]⟩

end ConnectionStateMachine

/-! ## The transmission -/

namespace TransmissionStateMachine

/-- A context while a transmission is under way, with an identifier once it was accepted. -/
structure WellFormed (t : TransmissionStateMachine) : Prop where
  context : t.context.isSome = true ↔ t.state ≠ .idle
  transmissionId : t.transmissionId.isSome = true ↔ t.state = .transmitting ∨ t.state = .ending

/-- What is under way in `t'` was under way in `t`, under the same membership version. -/
structure Goes (t t' : TransmissionStateMachine) : Prop where
  wellFormed : t.WellFormed → t'.WellFormed
  underWay : t'.state ≠ .idle → t.state ≠ .idle ∧ t'.membershipVersion = t.membershipVersion

variable {t : TransmissionStateMachine}

theorem Goes.refl : Goes t t := ⟨id, fun h => ⟨h, rfl⟩⟩

theorem wellFormed_finish (reason : TransmissionStopReason) : (finish reason).WellFormed := by
  constructor <;> simp [finish, transmissionId]

theorem goes_finish (reason : TransmissionStopReason) : Goes t (finish reason) :=
  ⟨fun _ => wellFormed_finish reason, fun h => absurd rfl h⟩

theorem accepted_goes (clientRequestId : ClientTransmissionId) (transmissionId : TransmissionId) :
    Goes t (t.accepted clientRequestId transmissionId).2 := by
  unfold accepted
  rcases attempt_cases _ _ _ with h | ⟨hguard, h⟩
  · rw [h]
    exact .refl
  · rw [h]
    unfold pending at hguard
    rw [Bool.and_eq_true, decide_eq_true_eq] at hguard
    obtain ⟨hstate, hpending⟩ := hguard
    rcases hcontext : t.context with _ | context
    · simp [hcontext] at hpending
    · refine ⟨fun _ => ?_, fun _ => ⟨by simp [hstate], ?_⟩⟩
      · constructor <;> simp [TransmissionStateMachine.transmissionId]
      · simp [membershipVersion, hcontext]

theorem rejected_goes (clientRequestId : ClientTransmissionId) :
    Goes t (t.rejected clientRequestId).2 := by
  unfold rejected
  rcases attempt_cases _ _ _ with h | ⟨-, h⟩
  · rw [h]
    exact .refl
  · rw [h]
    exact goes_finish _

theorem requestEnd_goes : Goes t t.requestEnd.2 := by
  unfold requestEnd
  split_ifs with hrequesting
  · exact goes_finish _
  rcases attempt_cases _ _ _ with h | ⟨hguard, h⟩
  · rw [h]
    exact .refl
  · rw [h]
    have hstate : t.state = .transmitting := of_decide_eq_true hguard
    refine ⟨fun hwell => ⟨?_, ?_⟩, fun _ => ⟨by simp [hstate], rfl⟩⟩
    · simpa [hstate] using hwell.context
    · simpa [transmissionId, hstate] using hwell.transmissionId

theorem ended_goes (transmissionId : TransmissionId) : Goes t (t.ended transmissionId).2 := by
  unfold ended
  rcases attempt_cases _ _ _ with h | ⟨-, h⟩
  · rw [h]
    exact .refl
  · rw [h]
    exact goes_finish _

/-- An interruption leaves the transmission idle. -/
theorem interrupt_cases (reason : TransmissionStopReason) (hreason : reason ≠ .none) :
    t.interrupt reason = (false, t) ∧ t.state = .idle
      ∨ t.interrupt reason = (true, finish reason) := by
  unfold interrupt
  rcases hguard : (decide (t.state ≠ .idle) && decide (reason ≠ .none)) with _ | _
  · refine .inl ⟨rfl, ?_⟩
    simpa [hreason] using hguard
  · exact .inr rfl

theorem interrupt_idle {reason : TransmissionStopReason} (hreason : reason ≠ .none) :
    (t.interrupt reason).2.state = .idle := by
  rcases t.interrupt_cases reason hreason with ⟨h, hidle⟩ | h
  · rw [h]
    exact hidle
  · rw [h]
    rfl

theorem interrupt_goes {reason : TransmissionStopReason} (hreason : reason ≠ .none) :
    Goes t (t.interrupt reason).2 := by
  rcases t.interrupt_cases reason hreason with ⟨h, -⟩ | h
  · rw [h]
    exact .refl
  · rw [h]
    exact goes_finish _

theorem requestStart_cases (clientRequestId : ClientTransmissionId) (scope : VoiceScope)
    (version : ℕ) :
    t.requestStart clientRequestId scope version = (false, t)
      ∨ (t.requestStart clientRequestId scope version).1 = true
        ∧ (t.requestStart clientRequestId scope version).2.WellFormed
        ∧ (t.requestStart clientRequestId scope version).2.membershipVersion = some version := by
  unfold requestStart
  rcases attempt_cases _ _ _ with h | ⟨-, h⟩
  · exact .inl h
  · rw [h]
    refine .inr ⟨rfl, ?_, rfl⟩
    constructor <;> simp [transmissionId]

end TransmissionStateMachine

/-! ## The session -/

namespace VoiceSessionStateMachine

open ConnectionStateMachine TransmissionStateMachine

/-- How the two machines of a session stand to each other. -/
structure Consistent (s : VoiceSessionStateMachine) : Prop where
  connection : s.connection.WellFormed
  transmission : s.transmission.WellFormed
  ready : s.transmission.state ≠ .idle → s.connection.state = .ready
    ∧ s.transmission.membershipVersion = s.connection.membershipVersion

variable {s : VoiceSessionStateMachine}

theorem consistent_initial : Consistent {} := by
  refine ⟨?_, ⟨?_, ?_⟩, fun h => absurd rfl h⟩
  · simp [ConnectionStateMachine.WellFormed]
  · simp
  · simp [transmissionId]

theorem Consistent.onConnection (h : Consistent s) {r : Bool × ConnectionStateMachine}
    (hr : Quiet s.connection r.2) : Consistent (s.onConnection r).2 := by
  refine ⟨hr.wellFormed h.connection, h.transmission, fun hbusy => ?_⟩
  obtain ⟨hready, hversion⟩ := h.ready hbusy
  show r.2.state = .ready ∧ s.transmission.membershipVersion = r.2.membershipVersion
  rw [hr.ready hready]
  exact ⟨hready, hversion⟩

theorem Consistent.onTransmission (h : Consistent s) {r : Bool × TransmissionStateMachine}
    (hr : Goes s.transmission r.2) : Consistent (s.onTransmission r).2 := by
  refine ⟨h.connection, hr.wellFormed h.transmission, fun hbusy => ?_⟩
  obtain ⟨hwas, hsame⟩ := hr.underWay hbusy
  obtain ⟨hready, hversion⟩ := h.ready hwas
  exact ⟨hready, hsame.trans hversion⟩

/-- An interruption that is refused changes nothing, one that is accepted leaves the transmission
idle. -/
theorem interrupting_cases {r : Bool × ConnectionStateMachine} {reason : TransmissionStopReason}
    (hreason : reason ≠ .none) (hr : r = (false, s.connection) ∨ r.1 = true) :
    s.interrupting r reason = (false, s)
      ∨ (s.interrupting r reason).1 = true ∧ (s.interrupting r reason).2.connection = r.2
        ∧ Goes s.transmission (s.interrupting r reason).2.transmission
        ∧ (s.interrupting r reason).2.transmission.state = .idle := by
  unfold interrupting
  rcases hr with rfl | haccepted
  · exact .inl rfl
  · rw [haccepted]
    exact .inr ⟨rfl, rfl, interrupt_goes hreason, interrupt_idle hreason⟩

theorem Consistent.interrupting (h : Consistent s) {r : Bool × ConnectionStateMachine}
    {reason : TransmissionStopReason} (hreason : reason ≠ .none)
    (hr : r = (false, s.connection) ∨ r.1 = true ∧ r.2.WellFormed) :
    Consistent (s.interrupting r reason).2 := by
  rcases interrupting_cases (s := s) hreason (hr.imp id And.left) with
    hsame | ⟨haccepted, hconnection, hgoes, hidle⟩
  · rw [hsame]
    exact h
  · refine ⟨?_, hgoes.wellFormed h.transmission, fun hbusy => absurd hidle hbusy⟩
    rw [hconnection]
    rcases hr with rfl | ⟨-, hwell⟩
    · exact h.connection
    · exact hwell

theorem requestTransmission_cases (s : VoiceSessionStateMachine)
    (clientRequestId : ClientTransmissionId) :
    s.requestTransmission clientRequestId = (false, s)
      ∨ (s.requestTransmission clientRequestId).1 = true
        ∧ (s.requestTransmission clientRequestId).2.connection = s.connection
        ∧ s.connection.state = .ready
        ∧ (s.requestTransmission clientRequestId).2.transmission.WellFormed
        ∧ (s.requestTransmission clientRequestId).2.transmission.membershipVersion
          = s.connection.membershipVersion := by
  unfold requestTransmission
  rcases hready : s.connection.ready with _ | _
  · exact .inl rfl
  rcases hversion : s.connection.membershipVersion with _ | version
  · exact .inl rfl
  dsimp only
  rcases s.transmission.requestStart_cases clientRequestId s.selectedScope version with
    h | ⟨haccepted, hwell, hsame⟩
  · left
    rw [h]
    rfl
  · exact .inr ⟨haccepted, rfl, of_decide_eq_true hready, hwell, hsame⟩

theorem Consistent.apply (h : Consistent s) (event : Event) : Consistent (s.apply event).2 := by
  cases event with
  | selectScope scope => exact ⟨h.connection, h.transmission, h.ready⟩
  | beginConnect => exact h.onConnection beginConnect_quiet
  | transportConnected => exact h.onConnection transportConnected_quiet
  | membershipRefreshed version => exact h.onConnection (membershipRefreshed_quiet version)
  | subscriptionsRestored version => exact h.onConnection (subscriptionsRestored_quiet version)
  | membershipChanged version =>
    refine h.interrupting (by simp) ?_
    rcases s.connection.membershipChanged_cases version with hsame | ⟨haccepted, hwell, -⟩
    · exact .inl hsame
    · exact .inr ⟨haccepted, hwell⟩
  | connectionLost => exact h.interrupting (by simp) connectionLost_cases
  | disconnect => exact h.interrupting (by simp) disconnect_cases
  | requestTransmission clientRequestId =>
    rcases s.requestTransmission_cases clientRequestId with
      hsame | ⟨-, hconnection, hready, hwell, hversion⟩
    · rw [VoiceSessionStateMachine.apply, hsame]
      exact h
    · refine ⟨?_, hwell, fun _ => ?_⟩
      · rw [VoiceSessionStateMachine.apply, hconnection]
        exact h.connection
      · rw [VoiceSessionStateMachine.apply, hconnection]
        exact ⟨hready, hversion⟩
  | transmissionAccepted clientRequestId transmissionId =>
    exact h.onTransmission (accepted_goes clientRequestId transmissionId)
  | transmissionRejected clientRequestId => exact h.onTransmission (rejected_goes clientRequestId)
  | endTransmission => exact h.onTransmission requestEnd_goes
  | transmissionEnded transmissionId => exact h.onTransmission (ended_goes transmissionId)
  | permissionRevoked => exact h.onTransmission (interrupt_goes (by simp))
  | transmissionTimedOut => exact h.onTransmission (interrupt_goes (by simp))
  | transmissionTransportFailed => exact h.onTransmission (interrupt_goes (by simp))

theorem Consistent.run (h : Consistent s) (events : List Event) : Consistent (s.run events) := by
  induction events generalizing s with
  | nil => exact h
  | cons event events ih => exact ih (h.apply event)

/-! ## Events that are refused -/

theorem onConnection_false {r : Bool × ConnectionStateMachine}
    (hr : r.1 = false → r.2 = s.connection) (h : (s.onConnection r).1 = false) :
    (s.onConnection r).2 = s := by
  unfold onConnection
  rw [hr h]

theorem onTransmission_false {r : Bool × TransmissionStateMachine}
    (hr : r.1 = false → r.2 = s.transmission) (h : (s.onTransmission r).1 = false) :
    (s.onTransmission r).2 = s := by
  unfold onTransmission
  rw [hr h]

theorem interrupting_false {r : Bool × ConnectionStateMachine} {reason : TransmissionStopReason}
    (hr : r.1 = false → r.2 = s.connection) (h : (s.interrupting r reason).1 = false) :
    (s.interrupting r reason).2 = s := by
  unfold interrupting at h ⊢
  rcases haccepted : r.1 with _ | _
  · simp [hr haccepted]
  · simp [haccepted] at h

theorem requestEnd_false {t : TransmissionStateMachine} (h : t.requestEnd.1 = false) :
    t.requestEnd.2 = t := by
  unfold requestEnd at h ⊢
  split_ifs at h ⊢
  exact attempt_false h

theorem apply_false {event : Event} (h : (s.apply event).1 = false) : (s.apply event).2 = s := by
  cases event with
  | selectScope scope => cases h
  | beginConnect => exact onConnection_false attempt_false h
  | transportConnected => exact onConnection_false attempt_false h
  | membershipRefreshed version => exact onConnection_false attempt_false h
  | subscriptionsRestored version => exact onConnection_false attempt_false h
  | membershipChanged version => exact interrupting_false attempt_false h
  | connectionLost => exact interrupting_false attempt_false h
  | disconnect => exact interrupting_false attempt_false h
  | requestTransmission clientRequestId =>
    rcases s.requestTransmission_cases clientRequestId with hsame | ⟨haccepted, -⟩
    · rw [apply, hsame]
    · cases haccepted.symm.trans h
  | transmissionAccepted clientRequestId transmissionId =>
    exact onTransmission_false attempt_false h
  | transmissionRejected clientRequestId => exact onTransmission_false attempt_false h
  | endTransmission => exact onTransmission_false requestEnd_false h
  | transmissionEnded transmissionId => exact onTransmission_false attempt_false h
  | permissionRevoked => exact onTransmission_false attempt_false h
  | transmissionTimedOut => exact onTransmission_false attempt_false h
  | transmissionTransportFailed => exact onTransmission_false attempt_false h

/-! ## Versions -/

theorem Consistent.version_apply (h : Consistent s) {v : ℕ}
    (hv : s.connection.membershipVersion = some v) {event : Event} (hevent : event.ends = false) :
    ∃ v', (s.apply event).2.connection.membershipVersion = some v' ∧ v ≤ v' := by
  cases event with
  | beginConnect => exact ⟨v, beginConnect_quiet.version v h.connection hv, Nat.le_refl v⟩
  | transportConnected =>
    exact ⟨v, transportConnected_quiet.version v h.connection hv, Nat.le_refl v⟩
  | membershipRefreshed version =>
    exact ⟨v, (membershipRefreshed_quiet version).version v h.connection hv, Nat.le_refl v⟩
  | subscriptionsRestored version =>
    exact ⟨v, (subscriptionsRestored_quiet version).version v h.connection hv, Nat.le_refl v⟩
  | membershipChanged version =>
    rcases s.connection.membershipChanged_cases version with hsame | ⟨haccepted, -, hnewer⟩
    · refine ⟨v, ?_, Nat.le_refl v⟩
      simp [VoiceSessionStateMachine.apply, VoiceSessionStateMachine.membershipChanged,
        VoiceSessionStateMachine.interrupting, hsame, hv]
    · obtain ⟨hlt, hversion⟩ := hnewer v hv
      refine ⟨version, ?_, Nat.le_of_lt hlt⟩
      simp [VoiceSessionStateMachine.apply, VoiceSessionStateMachine.membershipChanged,
        VoiceSessionStateMachine.interrupting, haccepted, hversion]
  | connectionLost => cases hevent
  | disconnect => cases hevent
  | requestTransmission clientRequestId =>
    refine ⟨v, ?_, Nat.le_refl v⟩
    rcases s.requestTransmission_cases clientRequestId with hsame | ⟨-, hconnection, -⟩
    · rw [VoiceSessionStateMachine.apply, hsame, hv]
    · rw [VoiceSessionStateMachine.apply, hconnection, hv]
  | _ => exact ⟨v, hv, Nat.le_refl v⟩

theorem Consistent.version_run (h : Consistent s) {v : ℕ}
    (hv : s.connection.membershipVersion = some v) {events : List Event}
    (hevents : ∀ event ∈ events, event.ends = false) :
    ∃ v', (s.run events).connection.membershipVersion = some v' ∧ v ≤ v' := by
  induction events generalizing s v with
  | nil => exact ⟨v, hv, Nat.le_refl v⟩
  | cons event events ih =>
    obtain ⟨v₁, hv₁, hle₁⟩ := h.version_apply hv (hevents event List.mem_cons_self)
    obtain ⟨v₂, hv₂, hle₂⟩ := ih (h.apply event) hv₁ fun event' hevent' =>
      hevents event' (List.mem_cons_of_mem _ hevent')
    exact ⟨v₂, hv₂, Nat.le_trans hle₁ hle₂⟩

/-! ## Interruptions -/

theorem apply_idle {event : Event} (hinterrupts : event.interrupts = true)
    (haccepted : (s.apply event).1 = true) : (s.apply event).2.transmission.state = .idle := by
  have hinterrupting : ∀ (r : Bool × ConnectionStateMachine) (reason : TransmissionStopReason),
      reason ≠ .none → (s.interrupting r reason).1 = true →
      (s.interrupting r reason).2.transmission.state = .idle := by
    intro r reason hreason h
    unfold interrupting at h ⊢
    split_ifs at h ⊢
    exact interrupt_idle hreason
  cases event with
  | membershipChanged version => exact hinterrupting _ _ (by simp) haccepted
  | connectionLost => exact hinterrupting _ _ (by simp) haccepted
  | disconnect => exact hinterrupting _ _ (by simp) haccepted
  | permissionRevoked => exact interrupt_idle (by simp)
  | transmissionTimedOut => exact interrupt_idle (by simp)
  | transmissionTransportFailed => exact interrupt_idle (by simp)
  | _ => cases hinterrupts

theorem apply_leaves_idle (hidle : s.transmission.state = .idle) {event : Event}
    (h : (s.apply event).2.transmission.state ≠ .idle) :
    ∃ clientRequestId, event = .requestTransmission clientRequestId
      ∧ (s.apply event).1 = true := by
  have hgoes : ∀ r : Bool × TransmissionStateMachine, Goes s.transmission r.2 →
      (s.onTransmission r).2.transmission.state = .idle := by
    intro r hr
    by_contra hbusy
    exact (hr.underWay hbusy).1 hidle
  have hinterrupting : ∀ (r : Bool × ConnectionStateMachine) (reason : TransmissionStopReason),
      reason ≠ .none → (s.interrupting r reason).2.transmission.state = .idle := by
    intro r reason hreason
    unfold interrupting
    split_ifs
    · exact hidle
    · exact interrupt_idle hreason
  cases event with
  | requestTransmission clientRequestId =>
    refine ⟨clientRequestId, rfl, ?_⟩
    rcases s.requestTransmission_cases clientRequestId with hsame | ⟨haccepted, -⟩
    · rw [apply, hsame] at h
      exact absurd hidle h
    · exact haccepted
  | selectScope | beginConnect | transportConnected | membershipRefreshed
  | subscriptionsRestored => exact absurd hidle h
  | membershipChanged version => exact absurd (hinterrupting _ _ (by simp)) h
  | connectionLost => exact absurd (hinterrupting _ _ (by simp)) h
  | disconnect => exact absurd (hinterrupting _ _ (by simp)) h
  | transmissionAccepted clientRequestId transmissionId =>
    exact absurd (hgoes _ (accepted_goes clientRequestId transmissionId)) h
  | transmissionRejected clientRequestId =>
    exact absurd (hgoes _ (rejected_goes clientRequestId)) h
  | endTransmission => exact absurd (hgoes _ requestEnd_goes) h
  | transmissionEnded transmissionId => exact absurd (hgoes _ (ended_goes transmissionId)) h
  | permissionRevoked => exact absurd (hgoes _ (interrupt_goes (by simp))) h
  | transmissionTimedOut => exact absurd (hgoes _ (interrupt_goes (by simp))) h
  | transmissionTransportFailed => exact absurd (hgoes _ (interrupt_goes (by simp))) h

/-- An idle transmission that is under way later was requested in between. -/
theorem run_leaves_idle (hidle : s.transmission.state = .idle) {events : List Event}
    (h : (s.run events).transmission.state ≠ .idle) :
    ∃ before clientRequestId after, events = before ++ .requestTransmission clientRequestId :: after
      ∧ (s.run before).transmission.state = .idle
      ∧ ((s.run before).apply (.requestTransmission clientRequestId)).1 = true := by
  induction events generalizing s with
  | nil => exact absurd hidle h
  | cons event events ih =>
    by_cases hnext : (s.apply event).2.transmission.state = .idle
    · obtain ⟨before, clientRequestId, after, rfl, hbefore, haccepted⟩ := ih hnext h
      exact ⟨event :: before, clientRequestId, after, rfl, hbefore, haccepted⟩
    · obtain ⟨clientRequestId, rfl, haccepted⟩ := apply_leaves_idle hidle hnext
      exact ⟨[], clientRequestId, events, rfl, hidle, haccepted⟩

/-! ## Every state of a session -/

/-- In every state that is reached: a transmission is under way only while the connection is ready
and under its membership version; a context is there while it is under way and has an identifier
while it is transmitted or ended; the connection has a version while subscriptions are restored and
afterwards, and the version does not fall until the connection ends; a refused event changes
nothing; and an interrupted transmission is idle until a request is accepted. -/
theorem session_consistent (events : List Event) :
    let s := run {} events
    (s.transmission.state ≠ .idle → s.connection.state = .ready
        ∧ s.transmission.membershipVersion = s.connection.membershipVersion)
      ∧ (s.transmission.context.isSome = true ↔ s.transmission.state ≠ .idle)
      ∧ (s.transmission.transmissionId.isSome = true
        ↔ s.transmission.state = .transmitting ∨ s.transmission.state = .ending)
      ∧ (s.connection.membershipVersion.isSome = true
        ↔ s.connection.state = .restoringSubscriptions ∨ s.connection.state = .ready)
      ∧ (∀ v, s.connection.membershipVersion = some v → ∀ later : List Event,
        (∀ event ∈ later, event.ends = false) →
          ∃ v', (s.run later).connection.membershipVersion = some v' ∧ v ≤ v')
      ∧ (∀ event, (s.apply event).1 = false → (s.apply event).2 = s)
      ∧ ∀ event, event.interrupts = true → (s.apply event).1 = true →
        (s.apply event).2.transmission.state = .idle
          ∧ ∀ later, ((s.apply event).2.run later).transmission.state ≠ .idle →
            ∃ before clientRequestId after,
              later = before ++ .requestTransmission clientRequestId :: after
                ∧ (((s.apply event).2.run before).apply
                  (.requestTransmission clientRequestId)).1 = true := by
  intro s
  have h : Consistent s := consistent_initial.run events
  refine ⟨h.ready, h.transmission.context, h.transmission.transmissionId, h.connection,
    fun v hv later hlater => h.version_run hv hlater, fun event => apply_false,
    fun event hinterrupts haccepted => ?_⟩
  have hidle := apply_idle hinterrupts haccepted
  refine ⟨hidle, fun later hlater => ?_⟩
  obtain ⟨before, clientRequestId, after, hsplit, -, hrequested⟩ := run_leaves_idle hidle hlater
  exact ⟨before, clientRequestId, after, hsplit, hrequested⟩

end VoiceSessionStateMachine

end VoxTree

import Mathlib.Data.List.Chain
import VoxTree.ClientCore

/-!
# What the host of the client core is told

Grants and memberships come through the C interface unchanged (`grants_transparent`,
`abi_transparent`). Whatever the threads do, every event has a number of its own and every decision
is told once (`events_orderly`), and a host that changes the membership from one thread at a time
is told the membership that the core has (`host_follows_membership`).
-/

namespace VoxTree

namespace ClientCore

open Machine Numbering

/-! ## Texts and memberships -/

theorem copyString_stringView (value : Bytes) : copyString (stringView value) = value := by
  cases value <;> simp [copyString, stringView]

theorem copyRequired_stringView (value : Bytes) :
    copyRequired (stringView value) = if value = [] then none else some value := by
  cases value <;> simp [copyRequired, validString, stringView, copyString]

theorem mapM_copyRequired (values : List Bytes) :
    (values.map stringView).mapM copyRequired
      = if ∀ value ∈ values, value ≠ [] then some values else none := by
  induction values with
  | nil => rfl
  | cons value values ih =>
    rw [List.map_cons, List.mapM_cons, ih, copyRequired_stringView]
    simp only [List.forall_mem_cons]
    split_ifs with hvalue hvalues <;> simp_all

/-- The host must give every identifier, and a version. -/
structure Complete (value : MembershipStorage) : Prop where
  version : value.version ≠ 0
  hierarchyId : value.hierarchyId ≠ []
  playerId : value.playerId ≠ []
  groupId : value.groupId ≠ []
  specializationId : value.specializationId ≠ []
  teamId : value.teamId ≠ []
  roleIds : ∀ role ∈ value.roleIds, role ≠ []

theorem readMembership_eventMembership (value : MembershipStorage) :
    Wrapper.readMembership (eventMembership value) = value := by
  obtain ⟨version, hierarchyId, playerId, groupId, specializationId, teamId, roleIds, connected,
    canReceiveVoice, transmitMuted⟩ := value
  have hroles : ((roleIds.map stringView).take roleIds.length).map copyString = roleIds := by
    rw [← List.length_map stringView, List.take_length, List.map_map]
    simp [Function.comp_def, copyString_stringView]
  simp only [Wrapper.readMembership, eventMembership, copyString_stringView, Option.getD_some,
    hroles]
  cases connected <;> cases canReceiveVoice <;> cases transmitMuted <;> rfl

theorem ne_zero_toUInt8 (flag : Bool) : decide (flag.toUInt8 ≠ 0) = flag := by
  cases flag <;> rfl

/-- The core takes a membership as the wrapper was given it, if it is complete. -/
theorem copyMembership_wrapper (value copy : MembershipStorage) :
    copyMembership (Wrapper.updateMembership value) = some copy
      ↔ Complete value ∧ copy = value := by
  obtain ⟨version, hierarchyId, playerId, groupId, specializationId, teamId, roleIds, connected,
    canReceiveVoice, transmitMuted⟩ := value
  have hroles : ((roleIds.map stringView).take roleIds.length).mapM copyRequired
      = if ∀ role ∈ roleIds, role ≠ [] then some roleIds else none := by
    rw [← List.length_map stringView, List.take_length, mapM_copyRequired]
  unfold copyMembership Wrapper.updateMembership eventMembership
  simp only [copyRequired_stringView, Option.getD_some, hroles, ne_zero_toUInt8]
  constructor
  · intro h
    simp only [Option.ite_none_left_eq_some, Option.bind_eq_bind, Option.bind_eq_some_iff,
      Option.ite_none_right_eq_some, Option.some.injEq, Option.pure_def] at h
    obtain ⟨hguard, _, ⟨hhierarchy, rfl⟩, _, ⟨hplayer, rfl⟩, _, ⟨hgroup, rfl⟩, _,
      ⟨hspecialization, rfl⟩, _, ⟨hteam, rfl⟩, _, ⟨hroles, rfl⟩, rfl⟩ := h
    exact ⟨⟨fun hzero => hguard (.inr (.inl hzero)), hhierarchy, hplayer, hgroup, hspecialization,
      hteam, hroles⟩, rfl⟩
  · rintro ⟨⟨hversion, hhierarchy, hplayer, hgroup, hspecialization, hteam, hroles⟩, rfl⟩
    simp_all

/-! ## Grants -/

theorem domainScope_coreScope (scope : VoiceScope) : domainScope (coreScope scope) = scope := by
  cases scope <;> rfl

theorem validScope_coreScope (scope : VoiceScope) : validScope (coreScope scope) = true := by
  cases scope <;> rfl

theorem connectThunk_grantArray (grants : List VoiceRoomGrant) :
    Wrapper.connectThunk (Wrapper.grantArray grants) = grants := by
  simp [Wrapper.connectThunk, Wrapper.grantArray, Function.comp_def, domainScope_coreScope,
    copyString_stringView]

theorem copyGrants_grantArray (grants : List VoiceRoomGrant) :
    copyGrants (Wrapper.grantArray grants)
      = if ∀ grant ∈ grants, grant.url ≠ [] ∧ grant.token ≠ [] then some grants else none := by
  induction grants with
  | nil => rfl
  | cons grant grants ih =>
    obtain ⟨scope, url, token⟩ := grant
    have ih' : copyGrants (grants.map fun grant => ⟨roomGrantSize, coreScope grant.scope,
      stringView grant.url, stringView grant.token⟩) = _ := ih
    simp only [Wrapper.grantArray, List.map_cons, copyGrants, ih', domainScope_coreScope,
      validScope_coreScope, copyString_stringView, List.forall_mem_cons]
    cases url <;> cases token <;> simp [stringView, validString]

/-- The host's transport is to connect with the grants that the host handed to the wrapper, or the
core refuses them. -/
theorem grants_transparent (grants given : List VoiceRoomGrant) :
    copyGrants (Wrapper.grantArray grants) = some given ↔
      (∀ grant ∈ grants, grant.url ≠ [] ∧ grant.token ≠ [])
        ∧ Wrapper.connectThunk (Wrapper.grantArray given) = grants := by
  rw [copyGrants_grantArray, connectThunk_grantArray]
  split_ifs with h
  · rw [Option.some.injEq, eq_comm]
    exact (and_iff_right h).symm
  · simp [h]

/-! ## Through the interface and back -/

theorem eventThunk_membership (sequence : UInt64) (value : MembershipStorage) :
    (Wrapper.eventThunk (Body.event sequence (.membershipUpdated value))).membership
      = some value := by
  simp [Wrapper.eventThunk, Body.event, initializeEvent, readMembership_eventMembership]

theorem change?_eventThunk (sequence : UInt64) (body : Body) :
    (Wrapper.eventThunk (body.event sequence)).change? = body.change? := by
  cases body with
  | membershipUpdated value =>
    have h := eventThunk_membership sequence value
    unfold Wrapper.Event.change?
    rw [h]
    rfl
  | _ => rfl

/-- A membership that the core may take in place of the one it has. -/
def Acceptable (membership : Option MembershipStorage) (value : MembershipStorage) : Prop :=
  Complete value ∧ ∀ current ∈ membership, current.version < value.version

theorem enter_updateMembership {membership : Option MembershipStorage} {value : MembershipStorage}
    (h : Acceptable membership value) :
    enter membership (.updateMembership (some (Wrapper.updateMembership value)))
      = { membership := some value, body := some (.membershipUpdated value) } := by
  have hnewer : (membership.any fun current => decide (value.version ≤ current.version))
      = false := by
    cases membership with
    | none => rfl
    | some current => simpa using h.2 current rfl
  simp [enter, (copyMembership_wrapper value value).2 ⟨h.1, rfl⟩, hnewer]

/-- What the core refuses, it reports, and keeps what it has. -/
theorem enter_updateMembership_refused {membership : Option MembershipStorage}
    {value : MembershipStorage} (h : ¬Acceptable membership value) :
    ∃ message, enter membership (.updateMembership (some (Wrapper.updateMembership value)))
      = reportArgumentError membership message := by
  rcases hcopy : copyMembership (Wrapper.updateMembership value) with _ | copy
  · refine ⟨"membership contains an invalid field", ?_⟩
    simp [enter, hcopy]
  · obtain ⟨hcomplete, rfl⟩ := (copyMembership_wrapper value copy).1 hcopy
    have holder : (membership.any fun current => decide (copy.version ≤ current.version))
        = true := by
      by_contra hnewer
      refine h ⟨hcomplete, fun current hcurrent => ?_⟩
      simpa [Option.mem_def.1 hcurrent] using hnewer
    refine ⟨"membership version must increase strictly", ?_⟩
    simp [enter, hcopy, holder]

/-- A membership that a host hands to the wrapper becomes the core's and comes back in the event,
field by field, if it is complete and newer than what the core has. Otherwise the core keeps what
it has, and the host gets an error. -/
theorem abi_transparent (membership : Option MembershipStorage) (value : MembershipStorage) :
    let entered := enter membership (.updateMembership (some (Wrapper.updateMembership value)))
    (entered.membership = some value ∧ entered.result = .ok ∧ ∃ body, entered.body = some body
        ∧ ∀ sequence, (Wrapper.eventThunk (body.event sequence)).change? = some (some value))
      ∧ Acceptable membership value
    ∨ (entered.membership = membership ∧ entered.result = .invalidArgument
        ∧ ∃ message, entered.body = some (.error (bytes "client_invalid_argument") message))
      ∧ ¬Acceptable membership value := by
  by_cases h : Acceptable membership value
  · refine .inl ⟨?_, h⟩
    rw [enter_updateMembership h]
    exact ⟨rfl, rfl, _, rfl, fun sequence => change?_eventThunk sequence _⟩
  · refine .inr ⟨?_, h⟩
    obtain ⟨message, hrefused⟩ := enter_updateMembership_refused h
    rw [hrefused]
    exact ⟨rfl, rfl, _, rfl⟩

/-! ## Runs -/

section Runs

variable {κ : Type*} [DecidableEq κ] {s s' : State κ} {thread : κ}

/-- A membership newer than the one before it, unless one of the two is a clearing. -/
def Newer (before after : Option MembershipStorage) : Prop :=
  ∀ old ∈ before, ∀ new ∈ after, old.version < new.version

/-- A call has made of the membership what it is going to tell of it. -/
def Tells (membership : Option MembershipStorage) (entered : Entered) : Prop :=
  entered.membership = (entered.body.bind Body.change?).getD membership
    ∧ ∀ change ∈ entered.body.bind Body.change?, Newer membership change

/-- A call has left the membership alone, and is not going to tell anything of it. -/
def Quiet (membership : Option MembershipStorage) (entered : Entered) : Prop :=
  entered.membership = membership ∧ entered.body.bind Body.change? = none

theorem Quiet.tells {membership : Option MembershipStorage} {entered : Entered}
    (h : Quiet membership entered) : Tells membership entered := by
  simp [Tells, h.1, h.2]

theorem quiet_operationResult (membership : Option MembershipStorage)
    (result : VoiceTransportResult) : Quiet membership (operationResult membership result) := by
  unfold operationResult
  split_ifs <;> simp [Quiet, Body.change?]

theorem quiet_reportArgumentError (membership : Option MembershipStorage) (message : String) :
    Quiet membership (reportArgumentError membership message) := by
  simp [Quiet, reportArgumentError, Body.change?]

def Call.changesMembership : Call → Bool
  | updateMembership _ => true
  | clearMembership => true
  | _ => false

theorem quiet_enter (membership : Option MembershipStorage) {call : Call}
    (h : call.changesMembership = false) : Quiet membership (enter membership call) := by
  cases call with
  | connect grants grantCount result =>
    simp only [enter]
    split_ifs
    · exact quiet_reportArgumentError membership _
    · split
      · exact quiet_reportArgumentError membership _
      · exact quiet_operationResult membership result
  | disconnect result => exact quiet_operationResult membership result
  | pressPushToTalk scope result =>
    simp only [enter]
    split_ifs
    · exact quiet_reportArgumentError membership _
    · exact quiet_operationResult membership result
  | releasePushToTalk result => exact quiet_operationResult membership result
  | updateMembership update? => cases h
  | clearMembership => cases h
  | voiceStateChanged state => simp [Quiet, enter, Body.change?]
  | voiceRemoteEvent event =>
    simp only [enter]
    split <;> simp [Quiet, Body.change?]
  | voiceError error message => simp [Quiet, enter, Body.change?]

theorem tells_enter (membership : Option MembershipStorage) (call : Call) :
    Tells membership (enter membership call) := by
  rcases hcall : call.changesMembership
  · exact (quiet_enter membership hcall).tells
  cases call with
  | updateMembership update? =>
    cases update? with
    | none => exact (quiet_reportArgumentError membership _).tells
    | some update =>
      simp only [enter]
      split
      · exact (quiet_reportArgumentError membership _).tells
      · split_ifs with holder
        · exact (quiet_reportArgumentError membership _).tells
        · refine ⟨rfl, ?_⟩
          simp only [Option.bind_some, Body.change?, Option.mem_some_iff, forall_eq']
          intro old hold new hnew
          obtain rfl := Option.some.inj hnew
          simpa [Option.mem_def.1 hold] using holder
  | clearMembership => simp [Tells, enter, Body.change?, Newer]
  | _ => cases hcall

/-- What the threads do to the core. -/
structure Inv (s : State κ) : Prop where
  tellers : Numbering.Inv 1 s.tellers
  last : s.membership = (s.changes.map Prod.snd).getLast?.join
  newer : (s.changes.map Prod.snd).IsChain Newer
  /-- The changes of a thread are those among its decisions. -/
  made : ∀ t, (s.tellers.chosen t).filterMap Body.change?
    = (s.changes.filter fun change => change.1 = t).map Prod.snd

theorem inv_initial : Inv ({} : State κ) where
  tellers := Numbering.inv_initial
  last := rfl
  newer := .nil
  made _ := rfl

theorem step_enter {call : Call} (h : step s (.enter thread call) = some s') :
    s.tellers.phase thread = .idle ∧
      ((enter s.membership call).body = none
          ∧ s' = { s with membership := (enter s.membership call).membership }
        ∨ ∃ body, (enter s.membership call).body = some body ∧ s' =
          { membership := (enter s.membership call).membership
            tellers := s.tellers.choose thread body
            changes := s.changes ++ body.change?.toList.map fun change => (thread, change) }) := by
  unfold step at h
  rcases hphase : s.tellers.phase thread with _ | item | ⟨number, item⟩
  · refine ⟨rfl, ?_⟩
    rcases hbody : (enter s.membership call).body with _ | body
    · simp_all [Phase.isIdle]
    · simp_all [Phase.isIdle]
  · simp [hphase, Phase.isIdle] at h
  · simp [hphase, Phase.isIdle] at h

theorem Inv.enter (h : Inv s) {call : Call} (hstep : step s (.enter thread call) = some s') :
    Inv s' := by
  obtain ⟨hidle, ⟨hbody, rfl⟩ | ⟨body, hbody, rfl⟩⟩ := step_enter hstep
  all_goals obtain ⟨hmembership, hnewer⟩ := tells_enter s.membership call
  · rw [hbody] at hmembership
    exact ⟨h.tellers, hmembership.trans h.last, h.newer, h.made⟩
  · rw [hbody, Option.bind_some] at hmembership hnewer
    refine ⟨h.tellers.choose hidle body, ?_, ?_, fun t => ?_⟩
    · refine hmembership.trans ?_
      cases body.change? with
      | none => simpa using h.last
      | some change => simp
    · rw [List.map_append]
      cases hchange : body.change? with
      | none => simpa using h.newer
      | some change =>
        refine h.newer.append (.singleton _) fun last hlast first hfirst => ?_
        have hmembership : s.membership = last := by rw [h.last, Option.mem_def.1 hlast]; rfl
        obtain rfl : change = first := by simpa using hfirst
        exact hmembership ▸ hnewer change hchange
    · have hmade := h.made t
      by_cases ht : t = thread
      · subst ht
        simp only [State.choose, Function.update_self, List.filterMap_append, hmade]
        cases hchange : body.change? <;> simp [hchange]
      · simp only [State.choose, Function.update_of_ne ht, hmade]
        cases body.change? <;> simp [Ne.symm ht]

theorem Inv.step (h : Inv s) {action : Action κ} (hstep : step s action = some s') : Inv s' := by
  cases action with
  | enter thread call => exact h.enter hstep
  | number thread =>
    obtain ⟨tellers, hdraw, rfl⟩ := Option.map_eq_some_iff.1 hstep
    have hchosen : tellers.chosen = s.tellers.chosen := by
      obtain ⟨item, -, rfl⟩ := draw_eq_some.1 hdraw
      rfl
    exact ⟨h.tellers.draw hdraw, h.last, h.newer, fun t => hchosen ▸ h.made t⟩
  | callback thread =>
    obtain ⟨tellers, hdeliver, rfl⟩ := Option.map_eq_some_iff.1 hstep
    have hchosen : tellers.chosen = s.tellers.chosen := by
      obtain ⟨number, item, -, rfl⟩ := deliver_eq_some.1 hdeliver
      rfl
    exact ⟨h.tellers.deliver hdeliver, h.last, h.newer, fun t => hchosen ▸ h.made t⟩

theorem inv_run {actions : List (Action κ)} (h : Runs step Free {} actions s) : Inv s :=
  h.invariant (fun _ _ _ hs _ hstep => hs.step hstep) inv_initial

/-- What the host has been told. -/
structure Orderly (s : State κ) : Prop where
  /-- Every event has a sequence of its own. -/
  unique : (s.events.map fun told => told.2.sequence).Nodup
  /-- The sequences from one thread increase. -/
  increasing : ∀ t, ((s.events.filter fun told => told.1 = t).map
    fun told => told.2.sequence).Pairwise (· < ·)
  /-- No sequence is left out, once every thread is done. -/
  gapless : (∀ t, s.tellers.phase t = .idle) →
    (s.events.map fun told => told.2.sequence.toNat).Perm (List.range' 1 s.events.length)
  /-- A thread has told what it decided on, except for what it has in hand. -/
  told : ∀ t, (s.tellers.deliveredBy t).map Delivery.item ++ (s.tellers.phase t).item?.toList
    = s.tellers.chosen t
  /-- The changes of the membership among it are those that the core has taken, -/
  made : ∀ t, (s.tellers.chosen t).filterMap Body.change?
    = (s.changes.filter fun change => change.1 = t).map Prod.snd
  /-- of which the core has the last, -/
  last : s.membership = (s.changes.map Prod.snd).getLast?.join
  /-- and whose versions increase until it is cleared. -/
  newer : (s.changes.map Prod.snd).IsChain Newer

theorem toNat_sequence (h : Inv s) (hfits : s.tellers.next ≤ UInt64.size)
    {d : Delivery κ Body} (hd : d ∈ s.tellers.delivered) :
    (UInt64.ofNat d.number).toNat = d.number := by
  have hdrawn := (h.tellers.drawn d.number).2 (.inl (List.mem_map_of_mem hd))
  exact UInt64.toNat_ofNat_of_lt' (by omega)

theorem sequence_event (sequence : UInt64) (body : Body) :
    (body.event sequence).sequence = sequence := by
  cases body <;> rfl

/-- Whatever the threads do, the events are numbered without a gap, in order on each thread, every
decision is told once, and the memberships of the core have increasing versions. -/
theorem events_orderly {actions : List (Action κ)} (h : Runs step Free {} actions s)
    (hfits : s.tellers.next ≤ UInt64.size) : Orderly s := by
  have hinv := inv_run h
  have hnumbers : (s.events.map fun told => told.2.sequence.toNat)
      = s.tellers.delivered.map Delivery.number := by
    rw [State.events, List.map_map]
    refine List.map_congr_left fun d hd => ?_
    simp [sequence_event, toNat_sequence hinv hfits hd]
  refine ⟨?_, fun t => ?_, fun hidle => ?_, hinv.tellers.told, hinv.made, hinv.last, hinv.newer⟩
  · refine .of_map UInt64.toNat ?_
    rw [List.map_map]
    exact hnumbers ▸ hinv.tellers.unique
  · have hincreasing := (List.pairwise_append.1 (hinv.tellers.increasing t)).1
    rw [List.pairwise_map] at hincreasing
    rw [State.events, List.filter_map, List.map_map, List.pairwise_map]
    refine hincreasing.imp_of_mem fun ha hb hlt => ?_
    simp only [Function.comp_apply, sequence_event, UInt64.lt_iff_toNat_lt]
    rwa [toNat_sequence hinv hfits (List.mem_of_mem_filter ha),
      toNat_sequence hinv hfits (List.mem_of_mem_filter hb)]
  · have hperm := (hinv.tellers.all_delivered hidle).1
    have hlength := hperm.length_eq
    rw [List.length_map, List.length_range'] at hlength
    rw [hnumbers, State.events, List.length_map, hlength]
    exact hperm

/-! ### One membership call at a time -/

/-- The change of the membership that a thread has in hand. -/
def State.inHand (s : State κ) (t : κ) : Option (Option MembershipStorage) :=
  (s.tellers.phase t).item?.bind Body.change?

/-- A host calls for a change of the membership only when it has been told of the one before. -/
def Serialised (s : State κ) : Action κ → Prop
  | .enter _ call => call.changesMembership = true → ∀ t, s.inHand t = none
  | _ => True

/-- The host has been told everything, or everything but the change that one thread has in hand. -/
def Follows (s : State κ) : Prop :=
  (∀ t, s.inHand t = none) ∧ s.told = s.changes.map Prod.snd
    ∨ ∃ t change, s.inHand t = some change ∧ (∀ t', s.inHand t' ≠ none → t' = t)
      ∧ s.told ++ [change] = s.changes.map Prod.snd

omit [DecidableEq κ] in
theorem told_eq (s : State κ) :
    s.told = s.tellers.delivered.filterMap fun d => d.item.change? := by
  simp [State.told, State.events, List.filterMap_map, change?_eventThunk]

omit [DecidableEq κ] in
theorem Follows.congr (h : Follows s) (hinHand : ∀ t, s'.inHand t = s.inHand t)
    (htold : s'.told = s.told) (hchanges : s'.changes = s.changes) : Follows s' := by
  simp only [Follows, hinHand, htold, hchanges]
  exact h

omit [DecidableEq κ] in
/-- Where a thread has a change in hand, the host has been told the others. -/
theorem Follows.told_append (h : Follows s) {change : Option MembershipStorage}
    (hchange : s.inHand thread = some change) :
    (∀ t, s.inHand t ≠ none → t = thread) ∧ s.told ++ [change] = s.changes.map Prod.snd := by
  obtain ⟨hnone, -⟩ | ⟨t, told, hinHand, halone, htold⟩ := h
  · simp [hnone] at hchange
  · obtain rfl := halone thread (by simp [hchange])
    obtain rfl := Option.some.inj (hinHand.symm.trans hchange)
    exact ⟨halone, htold⟩

theorem Follows.enter (h : Follows s) {call : Call}
    (hserialised : Serialised s (.enter thread call))
    (hstep : step s (.enter thread call) = some s') : Follows s' := by
  obtain ⟨hidle, ⟨hbody, rfl⟩ | ⟨body, hbody, rfl⟩⟩ := step_enter hstep
  · exact h
  have hfree : s.inHand thread = none := by simp [State.inHand, hidle, Phase.item?]
  have hinHand : ∀ t, State.inHand
      { membership := (ClientCore.enter s.membership call).membership
        tellers := s.tellers.choose thread body
        changes := s.changes ++ body.change?.toList.map fun change => (thread, change) } t
      = if t = thread then body.change? else s.inHand t := by
    intro t
    simp only [State.inHand, State.choose, Function.update_apply]
    split_ifs <;> rfl
  rcases hchange : body.change? with _ | change
  · refine h.congr (fun t => ?_) (by simp only [told_eq, State.choose]) (by simp)
    rw [← hchange, hinHand, hchange]
    split_ifs with ht
    · exact ht ▸ hfree.symm
    · rfl
  · have hcall : call.changesMembership = true := by
      by_contra hquiet
      rw [Bool.not_eq_true] at hquiet
      have hnothing := (quiet_enter s.membership hquiet).2
      simp [hbody, hchange] at hnothing
    have hnone := hserialised hcall
    obtain ⟨-, htold⟩ | ⟨t, other, hother, -⟩ := h
    · refine .inr ⟨thread, change, ?_, fun t => ?_, ?_⟩
      · rw [← hchange, hinHand, if_pos rfl]
      · rw [← hchange, hinHand]
        split_ifs with ht
        · exact fun _ => ht
        · exact fun hne => absurd (hnone t) hne
      · rw [told_eq] at htold
        simp [told_eq, State.choose, htold]
    · simp [hnone] at hother

theorem Follows.number (h : Follows s) (hstep : step s (.number thread) = some s') :
    Follows s' := by
  obtain ⟨tellers, hdraw, rfl⟩ := Option.map_eq_some_iff.1 hstep
  obtain ⟨item, hphase, rfl⟩ := draw_eq_some.1 hdraw
  refine h.congr (fun t => ?_) (by simp only [told_eq]) rfl
  by_cases ht : t = thread
  · simp [State.inHand, ht, hphase, Phase.item?]
  · simp [State.inHand, Function.update_of_ne ht]

theorem Follows.callback (h : Follows s) (hstep : step s (.callback thread) = some s') :
    Follows s' := by
  obtain ⟨tellers, hdeliver, rfl⟩ := Option.map_eq_some_iff.1 hstep
  obtain ⟨number, item, hphase, rfl⟩ := deliver_eq_some.1 hdeliver
  have hheld : s.inHand thread = item.change? := by simp [State.inHand, hphase, Phase.item?]
  have hinHand : ∀ t, State.inHand
      { s with tellers := { s.tellers with
          phase := Function.update s.tellers.phase thread .idle
          delivered := s.tellers.delivered ++ [⟨thread, number, item⟩] } } t
      = if t = thread then none else s.inHand t := by
    intro t
    simp only [State.inHand, Function.update_apply]
    split_ifs <;> rfl
  rcases hchange : item.change? with _ | change
  · refine h.congr (fun t => ?_) (by simp [told_eq, hchange]) rfl
    rw [hinHand]
    split_ifs with ht
    · rw [ht, hheld, hchange]
    · rfl
  · obtain ⟨halone, htold⟩ := h.told_append (hheld.trans hchange)
    refine .inl ⟨fun t => ?_, ?_⟩
    · rw [hinHand]
      split_ifs with ht
      · rfl
      · by_contra hne
        exact ht (halone t hne)
    · rw [told_eq] at htold
      simp [told_eq, hchange, ← htold]

theorem Follows.step (h : Follows s) {action : Action κ} (hserialised : Serialised s action)
    (hstep : step s action = some s') : Follows s' := by
  cases action with
  | enter thread call => exact h.enter hserialised hstep
  | number thread => exact h.number hstep
  | callback thread => exact h.callback hstep

/-- A host that calls for one change of the membership at a time is told the changes that the core
has made, in their order, and none late by more than one: when no thread has one in hand, the last
that it was told is the membership of the core. -/
theorem host_follows_membership {actions : List (Action κ)}
    (h : Runs step Serialised {} actions s) :
    s.told <+: s.changes.map Prod.snd ∧ s.changes.length ≤ s.told.length + 1
      ∧ ((∀ t, s.inHand t = none) → s.told = s.changes.map Prod.snd
        ∧ s.told.getLast?.join = s.membership) := by
  have hinv : Inv s := inv_run (h.weaken fun _ _ _ => trivial)
  have hfollows : Follows s := h.invariant (fun _ _ _ hs hserialised hstep =>
    hs.step hserialised hstep) (.inl ⟨fun _ => rfl, rfl⟩)
  obtain ⟨-, htold⟩ | ⟨t, change, hchange, -, htold⟩ := hfollows
  · refine ⟨htold ▸ List.prefix_refl _, ?_, fun _ => ⟨htold, ?_⟩⟩
    · simp [htold]
    · rw [htold, hinv.last]
  · refine ⟨⟨[change], htold⟩, ?_, fun hnone => ?_⟩
    · simpa using (congrArg List.length htold).ge
    · simp [hnone] at hchange

end Runs

section Samples

def alice : MembershipStorage where
  version := 1
  hierarchyId := bytes "standard"
  playerId := bytes "alice"
  groupId := bytes "group"
  specializationId := bytes "spec"
  teamId := bytes "team"
  roleIds := [bytes "leader"]
  connected := true
  canReceiveVoice := true
  transmitMuted := false

/-- The host updates the membership while the transport reports a speaker; the host's thread is the
first to have a number, and the last to tell. -/
def overtaken : List (Action Bool) :=
  [.enter true (.updateMembership (some (Wrapper.updateMembership alice))), .number true,
    .enter false (.voiceRemoteEvent
      ⟨.speakerStarted, .team, bytes "bob", 1, 1⟩),
    .number false, .callback false, .callback true]

theorem events_orderly_overtaken : ∃ s, Runs step Free {} overtaken s
    ∧ s.events.map (fun told => told.2.sequence) = [2, 1] ∧ Orderly s := by
  have hexec : (exec step {} overtaken).any (fun s =>
      s.events.map (fun told => told.2.sequence) == [2, 1] && s.tellers.next == 3) = true := by
    decide +kernel
  obtain ⟨s, hrun, hend⟩ := exists_run step overtaken hexec
  simp only [Bool.and_eq_true, beq_iff_eq] at hend
  exact ⟨s, hrun, hend.1, events_orderly hrun (by rw [hend.2]; decide)⟩

/-- The guard of a host with two threads. -/
def serialised (s : State Bool) : Action Bool → Bool
  | .enter _ call =>
    !call.changesMembership || ((s.inHand true).isNone && (s.inHand false).isNone)
  | _ => true

theorem serialised_of_serialised {s : State Bool} {action : Action Bool}
    (h : serialised s action = true) : Serialised s action := by
  cases action with
  | enter thread call =>
    intro hcall t
    simp only [serialised, hcall, Bool.not_true, Bool.false_or, Bool.and_eq_true,
      Option.isNone_iff_eq_none] at h
    cases t
    · exact h.2
    · exact h.1
  | number thread => trivial
  | callback thread => trivial

theorem host_follows_membership_overtaken : ∃ s, Runs step Serialised {} overtaken s
    ∧ s.membership = some alice ∧ s.told.getLast?.join = s.membership := by
  have hexec : (exec (restrict serialised step) {} overtaken).any (fun s =>
      s.membership == some alice && serialised s (.enter true .clearMembership)) = true := by
    decide +kernel
  obtain ⟨s, hrun, hend⟩ := exists_run_restrict serialised step overtaken hexec
  simp only [Bool.and_eq_true, beq_iff_eq] at hend
  have hserialised := hrun.weaken fun _ _ => serialised_of_serialised
  exact ⟨s, hserialised, hend.1,
    ((host_follows_membership hserialised).2.2 (serialised_of_serialised hend.2 rfl)).2⟩

end Samples

end ClientCore

end VoxTree

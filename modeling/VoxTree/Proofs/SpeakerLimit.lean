import VoxTree.Lifecycle
import VoxTree.Proofs.Store
import VoxTree.Lib.TreeMap
import Mathlib.Data.List.Induction
import Mathlib.Data.List.Infix

/-!
# The speaker limit

`activate` does not count the nodes recorded with the entries but derives each speaker's node from
the context the speaker has now. The two counts agree because every entry agrees with its sender's
context (`speakers_eq_matchingSpeakers`), so a limit that all stored contexts state for a scope
bounds the speakers of each of its nodes in every reachable state.
-/

namespace VoxTree

variable {ω : Type*}

/-- The context allows `limit` concurrent speakers on a node of `scope`. -/
def AuthoritativeMembershipContext.Limits (context : AuthoritativeMembershipContext)
    (scope : VoiceScope) (limit : ℕ) : Prop :=
  ∃ definition, context.snapshot.hierarchy.findScope scope = some definition
    ∧ definition.maxConcurrentSpeakers = some limit

namespace Store

/-- The active transmissions of a scope that are recorded with one of its nodes. -/
def speakers (s : Store) (scope : VoiceScope) (node : Bytes) : ℕ :=
  s.activeTransmissions.toList.countP fun entry =>
    entry.2.authorization.scope = scope && entry.2.scopeNodeId = node

/-- Every stored context states the limit for the scope. -/
def AllLimit (s : Store) (scope : VoiceScope) (limit : ℕ) : Prop :=
  ∀ (p : PlayerId) (context : AuthoritativeMembershipContext),
    s.memberships[p]? = some context → context.Limits scope limit

theorem sameScopeNode_iff (left right : VoiceMembership) (scope : VoiceScope) :
    sameScopeNode left right scope = true ↔ scopeNodeId right scope = scopeNodeId left scope := by
  cases scope <;> simp [sameScopeNode, VoxTree.scopeNodeId, StrongId.ext_iff, eq_comm]

/-- Where the entries agree with the contexts, the count of `activate` is that of the recorded
nodes. -/
theorem speakers_eq_matchingSpeakers {s : Store} (hs : s.ActiveInv)
    (membership : VoiceMembership) (scope : VoiceScope) :
    s.speakers scope (scopeNodeId membership scope) = s.matchingSpeakers membership scope := by
  refine List.countP_congr fun entry hentry => ?_
  obtain ⟨id, t⟩ := entry
  rw [Std.ExtTreeMap.mem_toList_iff_getElem?_eq_some] at hentry
  obtain ⟨context, m, hcontext, -, hfind, -, hnode, -⟩ := hs.context id t hentry
  simp only [hcontext, hfind, Bool.and_eq_true, decide_eq_true_eq, sameScopeNode_iff]
  refine and_congr_right fun hscope => ?_
  rw [← hnode, hscope]

/-- A passed activation check leaves room for one more speaker on the node of the new entry. -/
theorem checkActivation_speakers {s : Store} (hs : s.ActiveInv)
    {transmission : AuthorizedTransmission} {sessionId : SessionId} {deviceId : DeviceId}
    {startedAt : TimePoint} {entry : ActiveTransmission} {limit : ℕ}
    (hlimit : s.AllLimit transmission.scope limit)
    (h : s.checkActivation transmission sessionId deviceId startedAt = .ok entry) :
    s.speakers transmission.scope entry.scopeNodeId < limit := by
  unfold checkActivation at h
  split at h
  · cases h
  split at h
  · cases h
  split at h
  · cases h
  rename_i context hcontext
  split at h
  · cases h
  split at h
  · rename_i membership definition hfind hscope
    split_ifs at h with hroom
    obtain rfl := Except.ok.inj h
    obtain ⟨definition', hdefinition, hmax⟩ := hlimit _ context hcontext
    obtain rfl : definition = definition' := Option.some.inj (hscope.symm.trans hdefinition)
    rw [speakers_eq_matchingSpeakers hs]
    simpa [hmax] using hroom
  · cases h

theorem activation_speakers {s : Store} (hs : s.ActiveInv) {op : StoreOp}
    {entry : ActiveTransmission} {limit : ℕ} (hlimit : s.AllLimit entry.authorization.scope limit)
    (h : op.activation s = some entry) :
    s.speakers entry.authorization.scope entry.scopeNodeId < limit := by
  cases op with
  | activate transmission sessionId deviceId startedAt =>
    simp only [StoreOp.activation, Except.toOption] at h
    split at h
    · rename_i entry' hentry
      obtain rfl := Option.some.inj h
      obtain ⟨rfl, -⟩ := checkActivation_ok hentry
      exact checkActivation_speakers hs hlimit hentry
    · cases h
  | _ => cases h

theorem speakers_le_of_subset {s s' : Store}
    (h : ∀ (id : TransmissionId) (t : ActiveTransmission),
      s'.activeTransmissions[id]? = some t → s.activeTransmissions[id]? = some t)
    (scope : VoiceScope) (node : Bytes) : s'.speakers scope node ≤ s.speakers scope node :=
  TreeMap.countP_toList_le h

theorem speakers_emplace_le (s : Store) (entry : ActiveTransmission) (scope : VoiceScope)
    (node : Bytes) :
    (s.emplace entry).speakers scope node ≤ s.speakers scope node
      + if entry.authorization.scope = scope ∧ entry.scopeNodeId = node then 1 else 0 := by
  have hle := TreeMap.countP_toList_insert_le (m := s.activeTransmissions)
    (k := entry.authorization.transmissionId) (v := entry)
    (p := fun e => e.2.authorization.scope = scope && e.2.scopeNodeId = node)
  simpa [speakers, emplace] using hle

end Store

open Store

theorem Effect.speakers_le {observer : LifecycleObserver ω} {op : StoreOp} {s : Store} {w : ω}
    {ended : List EndedTransmission} {s' : Store} {w' : ω} (h : Effect observer op s w ended s' w')
    (hs : s.ActiveInv) {scope : VoiceScope} {limit : ℕ} (hlimit : s.AllLimit scope limit)
    (hle : ∀ node, s.speakers scope node ≤ limit) (node : Bytes) :
    s'.speakers scope node ≤ limit := by
  cases h with
  | quiet hm ha =>
    unfold speakers
    rw [ha]
    exact hle node
  | interrupted s₀ stops reason endedAt correlationId ha hm =>
    refine Nat.le_trans (speakers_le_of_subset (fun id t ht => ?_) scope node) (hle node)
    rw [← ha]
    exact (getElem?_interruptWhere_eq_some.1 ht).1
  | ended id entry stopReason endedAt correlationId hentry =>
    refine Nat.le_trans (speakers_le_of_subset (fun id' t ht => ?_) scope node) (hle node)
    rw [getElem?_eraseTransmission] at ht
    split_ifs at ht
    exact ht
  | accepted entry he _ =>
    have hadd := s.speakers_emplace_le entry scope node
    split_ifs at hadd with hnode
    · obtain ⟨rfl, rfl⟩ := hnode
      have hroom := activation_speakers hs hlimit he
      omega
    · exact Nat.le_trans hadd (hle node)
  | refused entry he _ =>
    refine Nat.le_trans (speakers_le_of_subset (fun id t ht => ?_) scope node) (hle node)
    rw [getElem?_eraseTransmission, getElem?_emplace] at ht
    split_ifs at ht
    exact ht

/-- In a run in which every context ever stored allows `limit` speakers on a node of a scope, no
node of the scope ever has more. -/
theorem speakers_le_limit (observer : LifecycleObserver ω) (w : ω) (scope : VoiceScope)
    (limit : ℕ) (ops : List StoreOp)
    (hlimit : ∀ before, before <+: ops →
      (StoreOp.calls observer before ({}, w)).1.AllLimit scope limit) (node : Bytes) :
    (StoreOp.calls observer ops ({}, w)).1.speakers scope node ≤ limit := by
  induction ops using List.reverseRecOn generalizing node with
  | nil =>
    have hempty : (∅ : Std.ExtTreeMap TransmissionId ActiveTransmission).toList = [] :=
      Std.ExtTreeMap.toList_eq_nil_iff.2 rfl
    simp [StoreOp.calls, speakers, hempty]
  | append_singleton before op ih =>
    have hbefore := ih fun prior hprior => hlimit prior (hprior.trans (List.prefix_append _ _))
    have hactive := activeInv_calls observer w before
    have hall := hlimit before (List.prefix_append _ _)
    unfold StoreOp.calls
    rw [List.foldl_append]
    exact (locked_effect observer op _ _).speakers_le hactive hall hbefore node

/-- A limit that a check of the stored contexts finds before and after every operation. -/
theorem allLimit_of_inits (observer : LifecycleObserver ω) (w : ω) (scope : VoiceScope)
    (limit : ℕ) (ops : List StoreOp)
    (h : (ops.inits.all fun before =>
      (StoreOp.calls observer before ({}, w)).1.memberships.toList.all fun entry =>
        (entry.2.snapshot.hierarchy.findScope scope).any fun definition =>
          definition.maxConcurrentSpeakers = some limit) = true) :
    ∀ before, before <+: ops →
      (StoreOp.calls observer before ({}, w)).1.AllLimit scope limit := by
  intro before hbefore p context hcontext
  have hchecked := List.all_eq_true.1 (List.all_eq_true.1 h before ((List.mem_inits _ _).2 hbefore))
    (p, context) (Std.ExtTreeMap.mem_toList_iff_getElem?_eq_some.2 hcontext)
  obtain ⟨definition, hdefinition, hmax⟩ := (Option.any_eq_true _ _).1 hchecked
  exact ⟨definition, hdefinition, by simpa using hmax⟩

namespace Sample

/-- The hierarchy with a team that may have one speaker at a time. -/
def narrowHierarchy : Hierarchy :=
  { hierarchy with scopes := [⟨.team, bytes "Team", 1, some 1⟩], scopes_valid := by decide }

def narrowContext : AuthoritativeMembershipContext where
  snapshot :=
    { snapshot 1 Nat.one_pos with hierarchy := narrowHierarchy, paths_valid := by decide }
  rolePolicy := rolePolicy

/-- `alice` speaks to her team, where there is room for one speaker. -/
def narrowRun : List StoreOp :=
  [.upsertSession authenticated, .updateMembership alice narrowContext 0 correlation
    .membershipChanged, startOf first, startOf second]

end Sample

open Sample in
theorem speakers_le_limit_narrow :
    (StoreOp.calls recorder narrowRun ({}, [])).1.speakers .team team.value ≤ 1 :=
  speakers_le_limit recorder [] .team 1 narrowRun
    (allLimit_of_inits recorder [] .team 1 narrowRun (by decide +kernel)) team.value

end VoxTree

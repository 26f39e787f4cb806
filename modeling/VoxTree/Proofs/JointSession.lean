import VoxTree.JointSession
import VoxTree.Proofs.VoiceSession

/-!
# What the client holds, the server still has

As long as the server ends no transmission on its own that the client was granted, everything the
client holds or has still to end is active at the server, and no request to end it was answered
that there is no such transmission (`Covered`, over `Live`). The client's part of a step is a move
of one thread, so what is live has to survive only the identifiers the move ends.
-/

namespace VoxTree

open Machine

namespace VoiceSession

/-! ## The client's part -/

/-- Every identifier the client knows was granted. -/
structure Known (s : State) : Prop where
  held : ∀ id ∈ s.client.heldIds, id ∈ s.started
  owed : ∀ t o, s.owner t = some o → ∀ id ∈ o.owed, id ∈ s.started
  left : ∀ t o started, s.owner t = some o → o.held = some started →
    started.transmissionId ∈ s.started

theorem known_initial : Known {} where
  held := by simp [Client.heldIds]
  owed t o h := by simp [State.owner, Pc.owner] at h
  left t o started h := by simp [State.owner, Pc.owner] at h

theorem mem_heldIds {c : Client} {id : TransmissionId} :
    id ∈ c.heldIds ↔ ∃ started, c.activeTransmission = some started
      ∧ started.transmissionId = id := by
  simp [Client.heldIds, Option.mem_toList]

/-- An owner after a step is the thread that moved, or was one before. -/
theorem owner_after {s s' : State} {t t' : ℕ} {pc' : Pc} {o : Ownership}
    (hthreads : s'.threads = Function.update s.threads t pc') (ho : s'.owner t' = some o) :
    (t' = t ∧ pc'.owner = some o) ∨ s.owner t' = some o := by
  rw [owner_of_update hthreads] at ho
  split_ifs at ho with ht
  · exact .inl ⟨ht, ho⟩
  · exact .inr ho

theorem Known.step {s s' : State} {a : Action} (hk : Known s) (h : step s a = some s') :
    Known s' := by
  obtain ⟨answer, pc', e, hmove, hthreads, hstarted, -, -⟩ := step_move h
  have hgrown : ∀ id ∈ s.started, id ∈ s'.started := by
    intro id hid
    rw [hstarted]
    exact List.mem_append_left _ hid
  -- what the moving thread owns and the client holds afterwards was granted
  have hmoved : (∀ id ∈ s'.client.heldIds, id ∈ s'.started)
      ∧ ∀ o, pc'.owner = some o → (∀ id ∈ o.owed, id ∈ s'.started)
        ∧ ∀ started, o.held = some started → started.transmissionId ∈ s'.started := by
    have hkept : s'.client.activeTransmission = s.client.activeTransmission →
        ∀ id ∈ s'.client.heldIds, id ∈ s'.started := by
      intro heq id hid
      rw [heldIds_of_same heq] at hid
      exact hgrown id (hk.held id hid)
    have hnone : s'.client.activeTransmission = none →
        ∀ id ∈ s'.client.heldIds, id ∈ s'.started := by
      intro heq
      simp [Client.heldIds, heq]
    cases hmove with
    | quiet _ ho' hc => exact ⟨hkept hc.held, by simp [ho']⟩
    | begins remaining _ _ _ _ hnone' ho' => exact ⟨hnone hnone', by simp [ho']⟩
    | works o o' ho ho' _ _ _ _ hheld hleft howed =>
      have howed' : ∀ id ∈ o'.owed, id ∈ s'.started := by
        intro id hid
        have : id ∈ o.owed ++ e.startedIds :=
          howed.mem_iff.mpr (List.mem_append_right _ hid)
        rcases List.mem_append.mp this with hid | hid
        · exact hgrown id (hk.owed _ o ho id hid)
        · rw [hstarted]
          exact List.mem_append_right _ hid
      have hleft' : ∀ started, o'.held = some started → started.transmissionId ∈ s'.started := by
        intro started hst
        rcases hleft started hst with hst | hst
        · exact hgrown _ (hk.left _ o started ho hst)
        · exact hgrown _ (hk.owed _ o ho _ (by simp [hst]))
      refine ⟨?_, fun o₁ ho₁ => ?_⟩
      · rcases hheld with ⟨hheld, -⟩ | ⟨hheld, -⟩ | ⟨hheld, -⟩
        · exact hkept hheld
        · intro id hid
          obtain ⟨started, hst, rfl⟩ := mem_heldIds.mp hid
          exact hleft' started (hheld ▸ hst)
        · exact hkept hheld
      · rw [ho'] at ho₁
        obtain rfl := Option.some.inj ho₁
        exact ⟨howed', hleft'⟩
    | givesUp o _ ho' _ hgive hstale =>
      refine ⟨?_, by simp [ho']⟩
      by_cases hgen : o.generation = s.client.publicationGeneration
      · rcases (hgive hgen).2.1 with hheld | hheld
        · exact hnone hheld
        · exact hkept hheld
      · exact hkept (by rw [hstale hgen])
    | activates _ _ _ ho' _ _ _ _ _ hheld => exact ⟨hkept hheld, by simp [ho']⟩
    | takes started remaining _ _ hsome _ _ hheld ho' =>
      have hst : started.transmissionId ∈ s'.started :=
        hgrown _ (hk.held _ (mem_heldIds.mpr ⟨started, hsome, rfl⟩))
      refine ⟨hkept hheld, fun o ho => ?_⟩
      rw [ho'] at ho
      obtain rfl := Option.some.inj ho
      exact ⟨by simpa using hst, by simpa using hst⟩
    | cancels _ ho' _ _ _ hheld => exact ⟨hkept hheld, by simp [ho']⟩
    | endsInterrupted _ _ _ _ _ ho' _ _ _ hheld => exact ⟨hnone hheld, by simp [ho']⟩
  refine ⟨hmoved.1, fun t o ho id hid => ?_, fun t o started ho hst => ?_⟩
  · rcases owner_after hthreads ho with ⟨-, ho⟩ | ho
    · exact (hmoved.2 o ho).1 id hid
    · exact hgrown id (hk.owed t o ho id hid)
  · rcases owner_after hthreads ho with ⟨-, ho⟩ | ho
    · exact (hmoved.2 o ho).2 started hst
    · exact hgrown _ (hk.left t o started ho hst)

/-- What the client holds or a thread has still to end is in `L`, unless somebody else has ended
it: then the client holds nothing. -/
structure Covered (L : TransmissionId → Prop) (s : State) : Prop where
  held : ∀ t o, s.owner t = some o →
    s.client.activeTransmission = o.held ∨ s.client.activeTransmission = none
  owned : ∀ t o, s.owner t = some o → s.client.activeTransmission = o.held → ∀ id ∈ o.owed, L id
  free : (∀ t, s.owner t = none) → ∀ id ∈ s.client.heldIds, L id

theorem covered_initial (L : TransmissionId → Prop) : Covered L {} where
  held t o h := by simp [State.owner, Pc.owner] at h
  owned t o h := by simp [State.owner, Pc.owner] at h
  free _ := by simp [Client.heldIds]

theorem owner_owed {pc : Pc} {o : Ownership} (ho : pc.owner = some o) : o.owed.length ≤ 1 := by
  have hafter : ∀ (started : StartedTransmission) ended,
      (owedAfter started ended).length ≤ 1 := by
    intro started ended
    unfold owedAfter
    split <;> simp
  cases pc <;> simp only [Pc.owner, reduceCtorEq, Option.some.injEq] at ho <;> subst ho <;>
    simp [hafter]

/-- The owner after a step that has one: nobody else owns anything. -/
theorem Covered.of_owner {L : TransmissionId → Prop} {s : State} (hs : OwnerInv s) {t : ℕ}
    {o : Ownership} (ho : s.owner t = some o)
    (hheld : s.client.activeTransmission = o.held ∨ s.client.activeTransmission = none)
    (howned : s.client.activeTransmission = o.held → ∀ id ∈ o.owed, L id) : Covered L s := by
  have hsole : ∀ t' o', s.owner t' = some o' → o' = o := by
    intro t' o' ho'
    obtain rfl := hs.unique t t' o o' ho ho'
    exact Option.some.inj (ho'.symm.trans ho)
  refine ⟨fun t' o' ho' => ?_, fun t' o' ho' => ?_, fun hno => ?_⟩
  · rw [hsole t' o' ho']
    exact hheld
  · rw [hsole t' o' ho']
    exact howned
  · rw [hno t] at ho
    cases ho

theorem Covered.of_free {L : TransmissionId → Prop} {s : State} (ho : ∀ t, s.owner t = none)
    (hfree : ∀ id ∈ s.client.heldIds, L id) : Covered L s where
  held t o h := by simp [ho t] at h
  owned t o h := by simp [ho t] at h
  free _ := hfree

/-- What is covered stays covered when the live identifiers lose those that were ended and gain
those that were started. -/
theorem Covered.step {L L' : TransmissionId → Prop} {s s' : State} {a : Action} (hs : OwnerInv s)
    (hc : Covered L s) (h : step s a = some s')
    (hended : ∀ ids, s'.ended = s.ended ++ ids → ∀ id, L id → id ∉ ids → L' id)
    (hstarted : ∀ ids, s'.started = s.started ++ ids → ∀ id ∈ ids, L' id) : Covered L' s' := by
  have hs' := hs.step h
  obtain ⟨answer, pc', e, hmove, hthreads, hstarted₁, hended₁, -⟩ := step_move h
  obtain ⟨hsame, hothers, hfree, hself⟩ := owners_after hs hthreads
  have hlive := hended _ hended₁
  have hnew := hstarted _ hstarted₁
  have halone : ∀ o, s.owner a.thread = some o → pc'.owner = none → ∀ t, s'.owner t = none := by
    intro o ho ho' t
    by_cases ht : t = a.thread
    · rw [ht, hself, ho']
    · exact hothers o ho t ht
  -- a step that leaves the owners alone and clears or keeps what is held
  have hquiet : (∀ t, s'.owner t = s.owner t) →
      s'.client.activeTransmission = s.client.activeTransmission → e.endedIds = [] →
      Covered L' s' := by
    intro howner hheld hnone
    have hkept : ∀ id, L id → L' id := fun id hid => hlive id hid (by simp [hnone])
    refine ⟨fun t o ho => ?_, fun t o ho heq id hid => ?_, fun hno id hid => ?_⟩
    · rw [hheld]
      exact hc.held t o ((howner t).symm.trans ho)
    · rw [hheld] at heq
      exact hkept id (hc.owned t o ((howner t).symm.trans ho) heq id hid)
    · rw [heldIds_of_same hheld] at hid
      exact hkept id (hc.free (fun t => (howner t).symm.trans (hno t)) id hid)
  cases hmove with
  | quiet ho ho' hsp => exact hquiet (hsame ho ho') hsp.held rfl
  | begins remaining _ _ _ _ hnone ho' =>
    exact .of_owner hs' (hself.trans ho') (.inr hnone) (by simp)
  | works o o' ho ho' _ _ _ _ hheld _ howed =>
    have hbefore := hc.held _ o ho
    refine .of_owner hs' (hself.trans ho') ?_ fun heq id hid => ?_
    · rcases hheld with ⟨hkept, heq⟩ | ⟨hset, -⟩ | ⟨-, hgen⟩
      · rw [hkept, heq]
        exact hbefore
      · exact .inl hset
      · exact absurd (hs.current _ o ho) hgen
    · have hheld₀ : s.client.activeTransmission = o.held := by
        rcases hheld with ⟨hkept, hsame⟩ | ⟨-, hnone⟩ | ⟨-, hgen⟩
        · rw [← hkept, heq, hsame]
        · rcases hbefore with hbefore | hbefore
          · exact hbefore
          · rw [hbefore, hnone]
        · exact absurd (hs.current _ o ho) hgen
      have hmem : id ∈ o.owed ++ e.startedIds := howed.mem_iff.mpr (List.mem_append_right _ hid)
      -- an owner owes one identifier at most, so what it ends is no longer owed
      have hnot : id ∉ e.endedIds := by
        have hlength := howed.length_eq
        have hone := owner_owed ho
        have hpos := List.length_pos_of_mem hid
        cases e <;> simp [Event.startedIds, Event.endedIds] at hlength ⊢
        omega
      rcases List.mem_append.mp hmem with hid | hid
      · exact hlive id (hc.owned _ o ho hheld₀ id hid) hnot
      · exact hnew id hid
  | givesUp o ho ho' _ hgive _ =>
    obtain ⟨-, hheld, howed⟩ := hgive (hs.current _ o ho)
    refine .of_free (halone o ho ho') fun id hid => ?_
    rcases hc.held _ o ho with hbefore | hbefore
    · rw [howed hbefore] at hid
      exact hlive id (hc.owned _ o ho hbefore id hid) (by simp [Event.endedIds])
    · rw [hbefore, or_self] at hheld
      simp [Client.heldIds, hheld] at hid
  | activates o started ho ho' hheld howed _ _ _ hkept =>
    refine .of_free (halone o ho ho') fun id hid => ?_
    rw [heldIds_of_same hkept] at hid
    obtain ⟨held, hsome, rfl⟩ := mem_heldIds.mp hid
    rcases hc.held _ o ho with hbefore | hbefore
    · refine hlive _ (hc.owned _ o ho hbefore _ ?_) (by simp [Event.endedIds])
      rw [hsome, hheld] at hbefore
      simp [howed, Option.some.inj hbefore]
    · rw [hsome] at hbefore
      cases hbefore
  | takes started remaining _ hactive hsome _ _ hkept ho' =>
    refine .of_owner hs' (hself.trans ho') (.inl (hkept.trans hsome)) fun _ id hid => ?_
    obtain rfl := List.mem_singleton.mp hid
    exact hlive _ (hc.free (hs.free (.inr hactive)) _ (mem_heldIds.mpr ⟨started, hsome, rfl⟩))
      (by simp [Event.endedIds])
  | cancels ho ho' _ _ _ hkept => exact hquiet (hsame ho ho') hkept rfl
  | endsInterrupted caller started view hpc _ ho' hsome _ _ hnone =>
    have howner := hsame (by rw [State.owner, hpc]; rfl) ho'
    refine ⟨fun t o _ => .inr hnone, fun t o ho heq => ?_, fun _ => by simp [Client.heldIds, hnone]⟩
    have hheld := hc.held t o ((howner t).symm.trans ho)
    rw [← heq, hnone, hsome] at hheld
    simp at hheld

end VoiceSession

namespace JointSession

open VoiceSession (Pc Client Op Answer Event OwnerInv Known Covered)
open StartMachine (Phase)

/-- What an answer has the server do to a transmission. -/
def answerEvent (c : Client) (pc : Pc) : Answer → Event
  | .started (.ok started) => .started started.transmissionId
  | .ended (.ok _) => match endRequest c pc with
    | some id => .ended id
    | none => .none
  | _ => .none

theorem endedEvent_eq {c : Client} {pc : Pc} {id : TransmissionId}
    {result : ControlPlaneResult EndedTransmissionView} (h : endRequest c pc = some id) :
    VoiceSession.endedEvent id result = answerEvent c pc (.ended result) := by
  cases result <;> simp [VoiceSession.endedEvent, answerEvent, h]

theorem pressStep_event {c : Client} {pc : Pc} {answer : Answer} {r : Client × Pc × Event}
    (h : VoiceSession.pressStep c pc answer = some r) : r.2.2 = answerEvent c pc answer := by
  unfold VoiceSession.pressStep at h
  split at h
  case h_9 =>
    -- `pressEnd`
    obtain rfl := Option.some.inj h
    exact endedEvent_eq rfl
  case h_11 => cases h
  all_goals
    first
    | (obtain rfl := Option.some.inj h; rfl)
    | (split at h <;> first
        | (obtain rfl := Option.some.inj h; rfl)
        | (split_ifs at h <;> (obtain rfl := Option.some.inj h; rfl)))

theorem releaseStep_event {c : Client} {pc : Pc} {answer : Answer} {r : Client × Pc × Event}
    (h : VoiceSession.releaseStep c pc answer = some r) : r.2.2 = answerEvent c pc answer := by
  unfold VoiceSession.releaseStep at h
  split at h
  case h_5 =>
    -- `releaseEnd`
    obtain rfl := Option.some.inj h
    exact endedEvent_eq rfl
  case h_7 => cases h
  all_goals
    first
    | (obtain rfl := Option.some.inj h; rfl)
    | (split at h <;> first
        | (obtain rfl := Option.some.inj h; rfl)
        | cases h)

theorem sessionStep_event {c : Client} {pc : Pc} {answer : Answer} {r : Client × Pc × Event}
    (h : VoiceSession.sessionStep c pc answer = some r) : r.2.2 = answerEvent c pc answer := by
  unfold VoiceSession.sessionStep at h
  split at h
  case h_2 =>
    -- `endInterrupted`
    split at h
    · obtain rfl := Option.some.inj h
      rfl
    · rename_i transmission result hheld
      obtain rfl := Option.some.inj h
      exact endedEvent_eq (by simp [endRequest, hheld])
    · cases h
  case h_15 => cases h
  all_goals (obtain rfl := Option.some.inj h; rfl)

theorem resume_event {c c' : Client} {pc pc' : Pc} {answer : Answer} {e : Event}
    (h : VoiceSession.resume c pc answer = some (c', pc', e)) : e = answerEvent c pc answer := by
  unfold VoiceSession.resume at h
  rcases hpress : VoiceSession.pressStep c pc answer with _ | r
  · rw [hpress, Option.none_or] at h
    rcases hrelease : VoiceSession.releaseStep c pc answer with _ | r
    · rw [hrelease, Option.none_or] at h
      exact sessionStep_event h
    · rw [hrelease, Option.some_or] at h
      exact releaseStep_event (hrelease.trans h)
  · rw [hpress, Option.some_or] at h
    exact pressStep_event (hpress.trans h)

/-- Only an answer to `startTransmission` resumes a press that waits for one. -/
theorem started_of_pressStart {c : Client} {scope : VoiceScope} {generation : UInt64}
    {version : ℕ} {answer : Answer} {r : Client × Pc × Event}
    (h : VoiceSession.resume c (.pressStart scope generation version) answer = some r) :
    ∃ result, answer = .started result := by
  cases answer <;> first | exact ⟨_, rfl⟩ | exact absurd h (by simp [VoiceSession.resume,
    VoiceSession.pressStep, VoiceSession.releaseStep, VoiceSession.sessionStep])

/-! ## The server's part -/

section Server

variable {ω : Type*} {observer : LifecycleObserver ω} {s : Store} {w : ω}

theorem activate_kept {transmission : AuthorizedTransmission} {sessionId : SessionId}
    {deviceId : DeviceId} {now : TimePoint} {id : TransmissionId}
    (h : (s.activeTransmissions[id]?).isSome = true) :
    ((s.activate observer transmission sessionId deviceId now
      w).2.1.activeTransmissions[id]?).isSome = true := by
  unfold Store.activate
  split
  · exact h
  · rename_i entry hentry
    have hfresh := (Store.checkActivation_ok hentry).2.2.2.2.fresh
    have hne : entry.authorization.transmissionId ≠ id := by
      rintro rfl
      simp [hfresh] at h
    split <;> simp only [Store.getElem?_eraseTransmission, Store.getElem?_emplace, if_neg hne, h]

theorem activate_ok {transmission : AuthorizedTransmission} {sessionId : SessionId}
    {deviceId : DeviceId} {now : TimePoint} {entry : ActiveTransmission}
    (h : (s.activate observer transmission sessionId deviceId now w).1 = .ok entry) :
    entry.authorization = transmission
      ∧ ((s.activate observer transmission sessionId deviceId now
        w).2.1.activeTransmissions[transmission.transmissionId]?).isSome = true := by
  unfold Store.activate at h ⊢
  split at h
  · cases h
  · rename_i entry' hentry
    have hauth := (Store.checkActivation_ok hentry).1
    split at h
    · rename_i w' hw
      obtain rfl := Except.ok.inj h
      refine ⟨hauth, ?_⟩
      simp only [Store.getElem?_emplace, hauth, if_true, Option.isSome_some]
    · cases h

open TransmissionApplicationService in
theorem endActive_kept {command : EndTransmissionCommand} {now : TimePoint} {id : TransmissionId}
    (hid : id ≠ command.transmissionId) :
    (endActive observer s command now w).2.1.activeTransmissions[id]?
      = s.activeTransmissions[id]? := by
  unfold endActive Store.end
  dsimp only
  split
  · rfl
  · split
    · rfl
    · simp only [Store.endEntry, Store.getElem?_eraseTransmission, if_neg hid.symm]

open TransmissionApplicationService in
/-- A refused end leaves the store alone; it is refused as not found only if it is not there. -/
theorem endActive_error {command : EndTransmissionCommand} {now : TimePoint}
    {e : EndTransmissionError} (h : (endActive observer s command now w).1 = .error e) :
    (endActive observer s command now w).2.1 = s
      ∧ (e = .transmissionNotFound → s.activeTransmissions[command.transmissionId]? = none) := by
  unfold endActive Store.end at h ⊢
  dsimp only at h ⊢
  rcases hentry : s.activeTransmissions[command.transmissionId]? with _ | entry
  · exact ⟨rfl, fun _ => rfl⟩
  · rw [hentry] at h
    dsimp only at h ⊢
    split at h
    · rename_i hbound
      rw [if_pos hbound]
      refine ⟨rfl, ?_⟩
      rintro rfl
      simp [Except.mapError] at h
    · simp [Store.endEntry, Except.mapError] at h

end Server

/-! ## Both together -/

section Joint

variable {ω : Type*} {observer : LifecycleObserver ω}

/-- The identifier was granted to the client, is active at the server, and no request to end it
was answered otherwise. -/
structure Live (c : State ω) (id : TransmissionId) : Prop where
  granted : id ∈ c.voice.started
  active : Active c id
  found : id ∉ c.notFound

/-- A start at the server belongs to a press that waits for it; identifiers are granted once. -/
structure Ledger (c : State ω) : Prop where
  owner : OwnerInv c.voice
  known : Known c.voice
  waiting : ∀ t, c.starts t ≠ .outside →
    ∃ scope generation version, c.voice.threads t = .pressStart scope generation version
  fresh : ∀ t command now transmission, c.starts t = .authorized command now transmission →
    transmission.transmissionId ∈ c.handedOut ∧ transmission.transmissionId ∉ c.voice.started
  granted : ∀ id ∈ c.voice.started, id ∈ c.handedOut
  logged : ∀ id ∈ c.notFound, id ∈ c.voice.started

theorem ledger_initial (w : ω) : Ledger (initial w) where
  owner := VoiceSession.ownerInv_initial
  known := VoiceSession.known_initial
  waiting t h := absurd rfl h
  fresh t command now transmission h := by simp [initial] at h
  granted := by simp [initial]
  logged := by simp [initial]

theorem voiceStep_some {c c' : State ω} {a : VoiceSession.Action}
    (h : c.voiceStep a = some c') :
    ∃ voice, VoiceSession.step c.voice a = some voice ∧ c' = { c with voice } := by
  obtain ⟨voice, hvoice, rfl⟩ := Option.map_eq_some_iff.mp h
  exact ⟨voice, hvoice, rfl⟩

/-- The client's step with the answer of another party. -/
theorem voice_resume {s s' : VoiceSession.State} {t : ℕ} {answer : Answer}
    (h : VoiceSession.step s (.resume t answer) = some s') :
    s'.started = s.started ++ (answerEvent s.client (s.threads t) answer).startedIds
      ∧ s'.ended = s.ended ++ (answerEvent s.client (s.threads t) answer).endedIds
      ∧ ∃ r, VoiceSession.resume s.client (s.threads t) answer = some r := by
  simp only [VoiceSession.step] at h
  split at h
  · rename_i client pc e hresume
    have he := resume_event hresume
    obtain rfl := Option.some.inj h
    rw [← he]
    refine ⟨?_, ?_, _, hresume⟩ <;>
      cases e <;> simp [VoiceSession.State.record, Event.startedIds, Event.endedIds]
  · cases h

theorem voice_call {s s' : VoiceSession.State} {t : ℕ} {op : Op}
    (h : VoiceSession.step s (.call t op) = some s') :
    s'.started = s.started ∧ s'.ended = s.ended ∧ ∃ result, s.threads t = .outside result := by
  simp only [VoiceSession.step] at h
  split at h
  · rename_i result hpc
    obtain rfl := Option.some.inj h
    exact ⟨rfl, rfl, result, hpc⟩
  · cases h

/-- What a step of the client keeps of the ledger, whatever the server did with it: the starts
that go on belong to other threads, and what was granted was handed out and nobody else's. -/
theorem Ledger.voice {c c' : State ω} {a : VoiceSession.Action} {ids : List TransmissionId}
    (hc : Ledger c) (h : VoiceSession.step c.voice a = some c'.voice)
    (hstarted : c'.voice.started = c.voice.started ++ ids)
    (hstarts : ∀ t, c'.starts t ≠ .outside → t ≠ a.thread ∧ c'.starts t = c.starts t)
    (hhanded : c'.handedOut = c.handedOut)
    (hids : ∀ id ∈ ids, id ∈ c.handedOut ∧ ∀ t, c'.starts t = .outside)
    (hlogged : ∀ id ∈ c'.notFound, id ∈ c.voice.started) : Ledger c' := by
  obtain ⟨-, pc', -, -, hthreads, -, -, -⟩ := VoiceSession.step_move h
  refine ⟨hc.owner.step h, hc.known.step h, fun t ht => ?_, fun t command now transmission ht => ?_,
    fun id hid => ?_, fun id hid => ?_⟩
  · obtain ⟨hne, heq⟩ := hstarts t ht
    rw [hthreads, Function.update_of_ne hne]
    exact hc.waiting t (heq ▸ ht)
  · obtain ⟨-, heq⟩ := hstarts t (by simp [ht])
    obtain ⟨hmem, hnot⟩ := hc.fresh t command now transmission (heq ▸ ht)
    rw [hhanded, hstarted]
    refine ⟨hmem, fun hid => ?_⟩
    rcases List.mem_append.mp hid with hid | hid
    · exact hnot hid
    · simp [(hids _ hid).2 t] at ht
  · rw [hstarted] at hid
    rw [hhanded]
    rcases List.mem_append.mp hid with hid | hid
    · exact hc.granted id hid
    · exact (hids id hid).1
  · rw [hstarted]
    exact List.mem_append_left _ (hlogged id hid)

/-- A step of the client in which the server changes nothing but drops the thread's own start. -/
theorem Ledger.answered {c c' : State ω} {a : VoiceSession.Action} (hc : Ledger c)
    (h : VoiceSession.step c.voice a = some c'.voice)
    (hstarted : c'.voice.started = c.voice.started)
    (hstarts : c'.starts = Function.update c.starts a.thread .outside)
    (hhanded : c'.handedOut = c.handedOut) (hlogged : c'.notFound = c.notFound) : Ledger c' := by
  have hstarted' : c'.voice.started = c.voice.started ++ [] := by simpa using hstarted
  refine hc.voice h hstarted' (fun t ht => ?_) hhanded (by simp) (by rw [hlogged]; exact hc.logged)
  rw [hstarts] at ht ⊢
  by_cases hta : t = a.thread
  · simp [hta] at ht
  · exact ⟨hta, Function.update_of_ne hta _ _⟩

/-- What every run keeps: the ledger, and that what the client holds or owes is live. -/
structure Inv (c : State ω) : Prop where
  ledger : Ledger c
  covered : Covered (Live c) c.voice

theorem inv_initial (w : ω) : Inv (initial w) :=
  ⟨ledger_initial w, VoiceSession.covered_initial _⟩

/-- A step of the client keeps the invariant if the server keeps what the step does not end and
has what it starts. -/
theorem Inv.voice {c c' : State ω} {a : VoiceSession.Action} {started ended : List TransmissionId}
    (hc : Inv c) (h : VoiceSession.step c.voice a = some c'.voice) (hledger : Ledger c')
    (hstarted : c'.voice.started = c.voice.started ++ started)
    (hended : c'.voice.ended = c.voice.ended ++ ended)
    (hkept : ∀ id, Live c id → id ∉ ended → Active c' id ∧ id ∉ c'.notFound)
    (hnew : ∀ id ∈ started, Active c' id ∧ id ∉ c'.notFound) : Inv c' := by
  refine ⟨hledger, hc.covered.step hc.ledger.owner h (fun ids hids id hid hnot => ?_)
    fun ids hids id hid => ?_⟩
  · obtain rfl := List.append_cancel_left (hended.symm.trans hids)
    refine ⟨?_, (hkept id hid hnot).1, (hkept id hid hnot).2⟩
    rw [hstarted]
    exact List.mem_append_left _ hid.granted
  · obtain rfl := List.append_cancel_left (hstarted.symm.trans hids)
    refine ⟨?_, (hnew id hid).1, (hnew id hid).2⟩
    rw [hstarted]
    exact List.mem_append_right _ hid

/-- A step of the client under an answer with which the server neither started nor ended anything. -/
theorem Inv.answered {c c' : State ω} {a : VoiceSession.Action} (hc : Inv c)
    (h : VoiceSession.step c.voice a = some c'.voice)
    (hstarted : c'.voice.started = c.voice.started) (hended : c'.voice.ended = c.voice.ended)
    (hstore : c'.store = c.store) (hstarts : c'.starts = Function.update c.starts a.thread .outside)
    (hhanded : c'.handedOut = c.handedOut) (hlogged : c'.notFound = c.notFound) : Inv c' := by
  have hstarted' : c'.voice.started = c.voice.started ++ [] := by simpa using hstarted
  have hended' : c'.voice.ended = c.voice.ended ++ [] := by simpa using hended
  refine hc.voice h (hc.ledger.answered h hstarted hstarts hhanded hlogged) hstarted' hended'
    (fun id hid _ => ?_) (by simp)
  rw [Active, hstore, hlogged]
  exact ⟨hid.active, hid.found⟩

/-- A step of the server alone. -/
theorem Inv.server {c c' : State ω} (hc : Inv c) (hvoice : c'.voice = c.voice)
    (hlogged : c'.notFound = c.notFound)
    (hkept : ∀ id ∈ c.voice.started, Active c id → Active c' id)
    (hhanded : ∀ id ∈ c.handedOut, id ∈ c'.handedOut)
    (hwaiting : ∀ t, c'.starts t ≠ .outside → c'.starts t = c.starts t
      ∨ ∃ scope generation version, c.voice.threads t = .pressStart scope generation version)
    (hfresh : ∀ t command now transmission, c'.starts t = .authorized command now transmission →
      c'.starts t = c.starts t ∨ transmission.transmissionId ∈ c'.handedOut
        ∧ transmission.transmissionId ∉ c.voice.started) : Inv c' := by
  have hlive : ∀ id, Live c id → Live c' id := fun id hid =>
    ⟨hvoice ▸ hid.granted, hkept id hid.granted hid.active, hlogged ▸ hid.found⟩
  refine ⟨⟨?_, ?_, fun t ht => ?_, fun t command now transmission ht => ?_, fun id hid => ?_,
    fun id hid => ?_⟩, ?_⟩
  · rw [hvoice]
    exact hc.ledger.owner
  · rw [hvoice]
    exact hc.ledger.known
  · rw [hvoice]
    rcases hwaiting t ht with heq | hpress
    · exact hc.ledger.waiting t (heq ▸ ht)
    · exact hpress
  · rw [hvoice]
    rcases hfresh t command now transmission ht with heq | hnew
    · obtain ⟨hmem, hnot⟩ := hc.ledger.fresh t command now transmission (heq ▸ ht)
      exact ⟨hhanded _ hmem, hnot⟩
    · exact hnew
  · exact hhanded id (hc.ledger.granted id (hvoice ▸ hid))
  · rw [hvoice]
    exact hc.ledger.logged id (hlogged ▸ hid)
  · rw [hvoice]
    exact ⟨hc.covered.held, fun t o ho heq id hid => hlive id (hc.covered.owned t o ho heq id hid),
      fun hno id hid => hlive id (hc.covered.free hno id hid)⟩

theorem Ledger.not_waiting {c : State ω} (hc : Ledger c) {t : ℕ}
    (h : ∀ scope generation version, c.voice.threads t ≠ .pressStart scope generation version) :
    Function.update c.starts t .outside = c.starts := by
  refine Function.update_eq_self_iff.mpr ?_
  by_contra hne
  obtain ⟨scope, generation, version, hpc⟩ := hc.waiting t (Ne.symm hne)
  exact h scope generation version hpc

theorem inv_call {c c' : State ω} {t : ℕ} {op : Op} (hc : Inv c)
    (h : step observer c (.call t op) = some c') : Inv c' := by
  obtain ⟨voice, hvoice, rfl⟩ := voiceStep_some h
  obtain ⟨hstarted, hended, result, hpc⟩ := voice_call hvoice
  refine hc.answered hvoice hstarted hended rfl ?_ rfl rfl
  exact (hc.ledger.not_waiting (by simp [VoiceSession.Action.thread, hpc])).symm

theorem inv_resume {c c' : State ω} {t : ℕ} {answer : Answer} (hc : Inv c)
    (h : step observer c (.resume t answer) = some c') : Inv c' := by
  simp only [step] at h
  split at h
  · cases h
  rename_i hservice
  obtain ⟨voice, hvoice, rfl⟩ := voiceStep_some h
  obtain ⟨hstarted, hended, r, hresume⟩ := voice_resume hvoice
  have hnone : answerEvent c.voice.client (c.voice.threads t) answer = .none := by
    cases answer <;> first | rfl | simp [fromService] at hservice
  rw [hnone] at hstarted hended
  refine hc.answered hvoice (by simpa [Event.startedIds] using hstarted)
    (by simpa [Event.endedIds] using hended) rfl ?_ rfl rfl
  refine (hc.ledger.not_waiting fun scope generation version hpc => ?_).symm
  rw [VoiceSession.Action.thread] at hpc
  rw [hpc] at hresume
  obtain ⟨result, rfl⟩ := started_of_pressStart hresume
  simp [fromService] at hservice

/-- The server refuses a start. -/
theorem inv_refused {c c' : State ω} {t : ℕ} {e : StartTransmissionError} (hc : Inv c)
    (h : { c with starts := Function.update c.starts t .outside }.voiceStep
      (.resume t (.started (startAnswer (.error e)))) = some c') : Inv c' := by
  obtain ⟨voice, hvoice, rfl⟩ := voiceStep_some h
  obtain ⟨hstarted, hended, -⟩ := voice_resume hvoice
  exact hc.answered hvoice
    (by simpa [startAnswer, answerEvent, Event.startedIds] using hstarted)
    (by simpa [startAnswer, answerEvent, Event.endedIds] using hended) rfl rfl rfl rfl

theorem inv_lookUp {c c' : State ω} {t : ℕ} {sessionId : SessionId} {deviceId : DeviceId}
    {clientTransmissionId : ClientTransmissionId} {correlationId : CorrelationId}
    {now : TimePoint} {allowed : Bool} (hc : Inv c)
    (h : step observer c (.lookUp t sessionId deviceId clientTransmissionId correlationId now
      allowed) = some c') : Inv c' := by
  simp only [step] at h
  split at h
  · rename_i scope generation version hpc houtside
    split at h
    · rename_i e _
      refine inv_refused (t := t) (e := e) hc ?_
      rwa [Function.update_eq_self_iff.mpr houtside.symm]
    · obtain rfl := Option.some.inj h
      refine hc.server rfl rfl (fun _ _ hid => hid) (fun _ hid => hid) (fun t' ht' => ?_)
        fun t' command now transmission ht' => ?_
      · by_cases htt : t' = t
        · exact .inr ⟨scope, generation, version, htt ▸ hpc⟩
        · exact .inl (Function.update_of_ne htt _ _)
      · by_cases htt : t' = t
        · simp [htt] at ht'
        · exact .inl (Function.update_of_ne htt _ _)
  · cases h

theorem authorizeStart_id {s : Store} {command : StartTransmissionCommand} {now : TimePoint}
    {id : TransmissionId} {transmission : AuthorizedTransmission}
    (h : authorizeStart s command now id = .ok transmission) : transmission.transmissionId = id := by
  unfold authorizeStart at h
  split at h
  · cases h
  · split at h
    · cases h
    · split at h
      · cases h
      · obtain rfl := Except.ok.inj h
        rfl

theorem inv_authorize {c c' : State ω} {t : ℕ} {id : TransmissionId} (hc : Inv c)
    (h : step observer c (.authorize t id) = some c') : Inv c' := by
  simp only [step] at h
  split at h
  · rename_i command now hphase
    split at h
    · cases h
    rename_i hunused
    split at h
    · exact inv_refused hc h
    · rename_i transmission hauthorized
      obtain rfl := Option.some.inj h
      refine hc.server rfl rfl (fun _ _ hid => hid) (fun _ hid => List.mem_cons_of_mem _ hid)
        (fun t' ht' => ?_) fun t' command' now' transmission' ht' => ?_
      · by_cases htt : t' = t
        · subst htt
          exact .inr (hc.ledger.waiting t' (by simp [hphase]))
        · exact .inl (Function.update_of_ne htt _ _)
      · by_cases htt : t' = t
        · subst htt
          simp only [Function.update_self, Phase.authorized.injEq] at ht'
          obtain ⟨-, -, rfl⟩ := ht'
          rw [authorizeStart_id hauthorized]
          exact .inr ⟨List.mem_cons_self, fun hid => hunused (hc.ledger.granted id hid)⟩
        · exact .inl (Function.update_of_ne htt _ _)
  · cases h

theorem inv_activate {c c' : State ω} {t : ℕ} (hc : Inv c)
    (h : step observer c (.activate t) = some c') : Inv c' := by
  simp only [step] at h
  split at h
  · rename_i command now transmission hphase
    obtain ⟨voice, hvoice, rfl⟩ := voiceStep_some h
    obtain ⟨hstarted, hended, -⟩ := voice_resume hvoice
    obtain ⟨hmem, hnot⟩ := hc.ledger.fresh t command now transmission hphase
    obtain ⟨scope, generation, version, hpc⟩ := hc.ledger.waiting t (by simp [hphase])
    dsimp only at hvoice hstarted hended
    -- the thread that starts owns the publication, so no other start goes on at the server
    have hothers : ∀ t', t' ≠ t → c.starts t' = .outside := by
      intro t' ht'
      by_contra hne
      obtain ⟨scope', generation', version', hpc'⟩ := hc.ledger.waiting t' hne
      exact ht' (hc.ledger.owner.unique t' t _ _ (by rw [VoiceSession.State.owner, hpc']; rfl)
        (by rw [VoiceSession.State.owner, hpc]; rfl))
    have houtside : ∀ t', Function.update c.starts t .outside t' = .outside := by
      intro t'
      by_cases htt : t' = t
      · rw [htt, Function.update_self]
      · rw [Function.update_of_ne htt, hothers t' htt]
    have hnone : ∀ answer : Answer,
        (answerEvent c.voice.client (c.voice.threads t) answer).endedIds = [] := by
      intro answer
      rw [hpc]
      rcases answer with _ | _ | _ | result | result | _ | _ | _ <;> try rfl
      all_goals rcases result with _ | _ <;> rfl
    rw [hnone] at hended
    have hids : ∀ id ∈ (answerEvent c.voice.client (c.voice.threads t) (.started (startAnswer
        ((c.store.activate observer transmission command.sessionId command.deviceId now
          c.observer).1.mapError mapActivationError)))).startedIds, id = transmission.transmissionId
        ∧ ((c.store.activate observer transmission command.sessionId command.deviceId now
          c.observer).2.1.activeTransmissions[id]?).isSome = true := by
      intro id hid
      rcases hr : (c.store.activate observer transmission command.sessionId command.deviceId now
        c.observer).1 with e | entry
      · simp [hr, Except.mapError, startAnswer, answerEvent, Event.startedIds] at hid
      · obtain ⟨hauth, hactive⟩ := activate_ok hr
        simp only [hr, Except.mapError, startAnswer, answerEvent, Event.startedIds,
          List.mem_singleton] at hid
        rw [hid, hauth]
        exact ⟨rfl, hactive⟩
    refine hc.voice hvoice (hc.ledger.voice hvoice hstarted (fun t' ht' => ?_) rfl
      (fun id hid => ?_) hc.ledger.logged) hstarted hended (fun id hid _ => ?_) fun id hid => ?_
    · exact absurd (houtside t') ht'
    · rw [(hids id hid).1]
      exact ⟨hmem, houtside⟩
    · exact ⟨activate_kept hid.active, hid.found⟩
    · refine ⟨(hids id hid).2, fun hlogged => hnot ?_⟩
      rw [← (hids id hid).1]
      exact hc.ledger.logged id hlogged
  · cases h

theorem endRequest_not_pressStart {c : Client} {pc : Pc} {id : TransmissionId}
    (h : endRequest c pc = some id) (scope : VoiceScope) (generation : UInt64) (version : ℕ) :
    pc ≠ .pressStart scope generation version := by
  rintro rfl
  cases h

/-- What the client asks to end was granted. -/
theorem endRequest_granted {c : State ω} (hc : Ledger c) {t : ℕ} {id : TransmissionId}
    (h : endRequest c.voice.client (c.voice.threads t) = some id) : id ∈ c.voice.started := by
  unfold endRequest at h
  split at h
  · rename_i hpc
    obtain rfl := Option.some.inj h
    exact hc.known.owed t _ (by rw [VoiceSession.State.owner, hpc]; rfl) _ List.mem_cons_self
  · rename_i hpc
    obtain rfl := Option.some.inj h
    exact hc.known.owed t _ (by rw [VoiceSession.State.owner, hpc]; rfl) _ List.mem_cons_self
  · obtain ⟨started, hsome, rfl⟩ := Option.map_eq_some_iff.mp h
    exact hc.known.held _ (VoiceSession.mem_heldIds.mpr ⟨started, hsome, rfl⟩)
  · cases h

theorem inv_lookUpEnd {c c' : State ω} {t : ℕ} {sessionId : SessionId} {deviceId : DeviceId}
    {correlationId : CorrelationId} {now : TimePoint} {allowed : Bool} (hc : Inv c)
    (h : step observer c (.lookUpEnd t sessionId deviceId correlationId now allowed) = some c') :
    Inv c' := by
  simp only [step] at h
  split at h
  · rename_i id hid _
    split at h
    · obtain ⟨voice, hvoice, rfl⟩ := voiceStep_some h
      obtain ⟨hstarted, hended, -⟩ := voice_resume hvoice
      exact hc.answered hvoice
        (by simpa [endAnswer, answerEvent, Event.startedIds] using hstarted)
        (by simpa [endAnswer, answerEvent, Event.endedIds] using hended) rfl
        (hc.ledger.not_waiting (endRequest_not_pressStart hid)).symm rfl rfl
    · obtain rfl := Option.some.inj h
      exact hc.server rfl rfl (fun _ _ hid => hid) (fun _ hid => hid) (fun _ _ => .inl rfl)
        fun _ _ _ _ _ => .inl rfl
  · cases h

theorem mem_notFoundBy {id id' : TransmissionId} {pc : Pc}
    {r : Except EndTransmissionError EndedTransmission} (h : id' ∈ notFoundBy id pc r) :
    id' = id ∧ r = .error .transmissionNotFound := by
  unfold notFoundBy at h
  split at h
  · cases h
  · exact ⟨List.mem_singleton.mp h, rfl⟩
  · cases h

open TransmissionApplicationService in
theorem inv_end {c c' : State ω} {t : ℕ} (hc : Inv c)
    (h : step observer c (.end t) = some c') : Inv c' := by
  simp only [step] at h
  split at h
  · rename_i command now _
    split at h
    · rename_i hrequest
      obtain ⟨voice, hvoice, rfl⟩ := voiceStep_some h
      obtain ⟨hstarted, hended, -⟩ := voice_resume hvoice
      dsimp only at hvoice hstarted hended
      have hgranted := endRequest_granted hc.ledger hrequest
      have hnone : (answerEvent c.voice.client (c.voice.threads t) (.ended (endAnswer
          command.transmissionId (endActive observer c.store command now
            c.observer).1))).startedIds = [] := by
        rcases (endActive observer c.store command now c.observer).1 with e | ended
        · rfl
        · simp [endAnswer, answerEvent, hrequest, Event.startedIds]
      rw [hnone] at hstarted
      refine hc.voice hvoice (hc.ledger.voice hvoice hstarted (fun t' ht' => ⟨?_, rfl⟩) rfl
        (by simp) fun id hid => ?_) hstarted hended (fun id hid hnot => ?_) (by simp)
      · rintro rfl
        obtain ⟨scope, generation, version, hpc⟩ := hc.ledger.waiting t' ht'
        rw [hpc] at hrequest
        cases hrequest
      · rcases List.mem_append.mp hid with hid | hid
        · rw [(mem_notFoundBy hid).1]
          exact hgranted
        · exact hc.ledger.logged id hid
      · rcases hr : (endActive observer c.store command now c.observer).1 with e | ended
        · obtain ⟨hstore, hmissing⟩ := endActive_error hr
          refine ⟨?_, fun hlogged => ?_⟩
          · rw [Active, hstore]
            exact hid.active
          · rcases List.mem_append.mp hlogged with hlogged | hlogged
            · obtain ⟨rfl, hr'⟩ := mem_notFoundBy hlogged
              have hactive := hid.active
              rw [Active, hmissing (Except.error.inj hr')] at hactive
              cases hactive
            · exact hid.found hlogged
        · have hne : id ≠ command.transmissionId := by
            simpa [hr, endAnswer, answerEvent, hrequest, Event.endedIds] using hnot
          refine ⟨?_, fun hlogged => ?_⟩
          · rw [Active, endActive_kept hne]
            exact hid.active
          · rcases List.mem_append.mp hlogged with hlogged | hlogged
            · exact hne (mem_notFoundBy hlogged).1
            · exact hid.found hlogged
    · cases h
  · cases h

theorem inv_store {c c' : State ω} {op : StoreOp} (hc : Inv c)
    (hg : keepsGranted observer c (.store op) = true)
    (h : step observer c (.store op) = some c') : Inv c' := by
  obtain rfl := Option.some.inj h
  refine hc.server rfl rfl (fun id hid hactive => ?_) (fun _ hid => hid) (fun _ _ => .inl rfl)
    fun _ _ _ _ _ => .inl rfl
  have hkeeps := List.all_eq_true.mp hg id hid
  unfold Active at hactive ⊢
  simpa [hactive] using hkeeps

theorem Inv.step {c c' : State ω} {a : Action} (hc : Inv c)
    (hg : keepsGranted observer c a = true) (h : step observer c a = some c') : Inv c' := by
  cases a with
  | call t op => exact inv_call hc h
  | resume t answer => exact inv_resume hc h
  | lookUp t sessionId deviceId clientTransmissionId correlationId now allowed =>
    exact inv_lookUp hc h
  | authorize t id => exact inv_authorize hc h
  | activate t => exact inv_activate hc h
  | lookUpEnd t sessionId deviceId correlationId now allowed => exact inv_lookUpEnd hc h
  | «end» t => exact inv_end hc h
  | store op => exact inv_store hc hg h

/-- No thread is in a call. -/
def Quiescent (s : VoiceSession.State) : Prop := ∀ t, ∃ result, s.threads t = .outside result

/-- The client rests on a transmission whose end was answered that the server has none such. -/
structure Wedged (c : State ω) : Prop where
  idle : c.voice.client.publicationState = .idle
  quiescent : Quiescent c.voice
  held : ∃ started, c.voice.client.activeTransmission = some started
    ∧ started.transmissionId ∈ c.notFound

def alreadyActive : VoiceSessionResult :=
  clientStateFailure (bytes "transmission_already_active")
    (bytes "only one authorized transmission may be active")

/-- Client and server do not wedge: while nothing is published, only a transmission the server has
makes a press be refused, and none that the server lacks stands in the way of a disconnect or a
refresh. -/
structure InStep (observer : LifecycleObserver ω) (c : State ω) : Prop where
  not_wedged : ¬ Wedged c
  refused : c.voice.client.publicationState = .idle → ∀ scope state r,
    VoiceSession.resume c.voice.client (.pressBegin scope) (.voiceState state) = some r →
    r.2.1 = VoiceSession.finished alreadyActive →
    ∃ started, c.voice.client.activeTransmission = some started ∧ Active c started.transmissionId
  unblocked : c.voice.client.publicationState = .idle → ∀ caller command now w,
    endRequest c.voice.client (.endInterrupted caller) = some command.transmissionId →
    (TransmissionApplicationService.endActive observer c.store command now w).1
      ≠ .error .transmissionNotFound

theorem press_refused {c : Client} {scope : VoiceScope} {state : VoiceTransportState}
    {r : Client × Pc × Event} (hidle : c.publicationState = .idle)
    (h : VoiceSession.resume c (.pressBegin scope) (.voiceState state) = some r)
    (hr : r.2.1 = VoiceSession.finished alreadyActive) : c.activeTransmission ≠ none := by
  intro hnone
  have hcode : bytes "not_connected" ≠ bytes "transmission_already_active" := by decide
  have hconnected : VoiceSession.finished (clientStateFailure (bytes "not_connected")
      (bytes "membership and voice transport must be ready before push-to-talk"))
      ≠ VoiceSession.finished alreadyActive := by
    intro heq
    simp only [VoiceSession.finished, alreadyActive, clientStateFailure,
      VoiceSessionResult.failure, Pc.outside.injEq, Option.some.injEq, VoiceSessionResult.mk.injEq,
      VoiceSessionError.mk.injEq] at heq
    exact hcode heq.2.2.2.1
  simp only [VoiceSession.resume, VoiceSession.pressStep, VoiceSession.releaseStep,
    VoiceSession.sessionStep, Option.or_none] at h
  split at h
  · split at h
    · obtain rfl := Option.some.inj h
      exact hconnected hr
    · simp only [hidle, hnone] at h
      obtain rfl := Option.some.inj h
      cases hr
  · obtain rfl := Option.some.inj h
    exact hconnected hr

theorem Inv.held_live {c : State ω} (hc : Inv c)
    (hidle : c.voice.client.publicationState = .idle) {started : StartedTransmission}
    (h : c.voice.client.activeTransmission = some started) : Live c started.transmissionId :=
  hc.covered.free (hc.ledger.owner.free (.inl hidle)) _
    (VoiceSession.mem_heldIds.mpr ⟨started, h, rfl⟩)

theorem Inv.inStep {c : State ω} (hc : Inv c) : InStep observer c where
  not_wedged h := by
    obtain ⟨started, hheld, hlogged⟩ := h.held
    exact (hc.held_live h.idle hheld).found hlogged
  refused hidle scope state r h hr := by
    obtain ⟨started, hheld⟩ := Option.ne_none_iff_exists'.mp (press_refused hidle h hr)
    exact ⟨started, hheld, (hc.held_live hidle hheld).active⟩
  unblocked hidle caller command now w h hr := by
    obtain ⟨started, hheld, hid⟩ := Option.map_eq_some_iff.mp h
    have hactive := (hc.held_live hidle hheld).active
    rw [Active, hid, (endActive_error hr).2 rfl] at hactive
    cases hactive

theorem client_server_in_step {w : ω} {as : List Action} {c : State ω}
    (h : Runs (step observer) (fun c a => keepsGranted observer c a = true) (initial w) as c) :
    InStep observer c := by
  have hinv : Inv c := h.invariant (I := Inv) (fun _ _ _ hc hg hstep => hc.step hg hstep)
    (inv_initial w)
  exact hinv.inStep

end Joint

section Runs

open Sample
open VoiceSession (membershipView grantSet)

/-- `alice` logs in and is given a membership, and her client connects. -/
def logsIn : List Action :=
  [.store (.upsertSession authenticated), .store join, .call 0 .connect,
    .resume 0 (.connect .disconnected (.ok ()) (.ok (membershipView 1)) (.ok (grantSet 1)) .success)]

/-- A press that the server and the microphone grant. -/
def pressesGranted : List Action :=
  [.call 0 (.pressPushToTalk .team), .resume 0 (.voiceState .connected),
    .lookUp 0 session device clientTransmission correlation 0 true, .authorize 0 first,
    .activate 0, .resume 0 .silent, .resume 0 (.voice .success), .resume 0 .silent,
    .resume 0 .silent]

def releasesHeld : List Action :=
  [.call 0 .releasePushToTalk, .resume 0 .silent, .resume 0 (.voice .success),
    .lookUpEnd 0 session device correlation 1 true, .end 0, .resume 0 .silent]

/-- A server whose voice control accepts every start. -/
def accepting : LifecycleObserver Unit where
  onStarted _ w := (true, w)
  onEnded _ w := w

/-- A press and its release with nothing in between. -/
theorem client_server_in_step_release : ∃ c,
    Runs (step accepting) (fun c a => keepsGranted accepting c a = true) (initial ())
      (logsIn ++ pressesGranted ++ releasesHeld) c
      ∧ c.voice.ended = [first] ∧ InStep accepting c := by
  obtain ⟨c, hrun, hc⟩ := exists_run_restrict (keepsGranted accepting) (step accepting)
    (logsIn ++ pressesGranted ++ releasesHeld) (s := initial ())
    (p := fun c => decide (c.voice.ended = [first])) (by decide +kernel)
  exact ⟨c, hrun, of_decide_eq_true hc, client_server_in_step hrun⟩

/-- The thread whose call a step belongs to. -/
def Action.thread : Action → Option ℕ
  | .call t _ => some t
  | .resume t _ => some t
  | .lookUp t _ _ _ _ _ _ => some t
  | .authorize t _ => some t
  | .activate t => some t
  | .lookUpEnd t _ _ _ _ _ => some t
  | .end t => some t
  | .store _ => none

/-- What a step does to the client is nothing, or a step of the client on the same thread. -/
theorem step_voice {ω : Type*} {observer : LifecycleObserver ω} {c c' : State ω} {a : Action}
    (h : step observer c a = some c') : c'.voice = c.voice
      ∨ ∃ a', VoiceSession.step c.voice a' = some c'.voice ∧ a.thread = some a'.thread := by
  have hvoice : ∀ {c₁ : State ω} {a' : VoiceSession.Action}, c₁.voiceStep a' = some c' →
      c₁.voice = c.voice → a.thread = some a'.thread →
      ∃ a', VoiceSession.step c.voice a' = some c'.voice ∧ a.thread = some a'.thread := by
    intro c₁ a' h hc₁ hthread
    obtain ⟨voice, hvoice, rfl⟩ := voiceStep_some h
    exact ⟨a', hc₁ ▸ hvoice, hthread⟩
  have hstay : ∀ {c₁ : State ω}, some c₁ = some c' → c₁.voice = c.voice → c'.voice = c.voice := by
    intro c₁ h hc₁
    rw [← Option.some.inj h, hc₁]
  cases a with
  | call t op => exact .inr (hvoice h rfl rfl)
  | resume t answer =>
    simp only [step] at h
    split at h
    · cases h
    · exact .inr (hvoice h rfl rfl)
  | lookUp t sessionId deviceId clientTransmissionId correlationId now allowed =>
    simp only [step] at h
    split at h
    · split at h
      · exact .inr (hvoice h rfl rfl)
      · exact .inl (hstay h rfl)
    · cases h
  | authorize t id =>
    simp only [step] at h
    split at h
    · split at h
      · cases h
      · split at h
        · exact .inr (hvoice h rfl rfl)
        · exact .inl (hstay h rfl)
    · cases h
  | activate t =>
    simp only [step] at h
    split at h
    · exact .inr (hvoice h rfl rfl)
    · cases h
  | lookUpEnd t sessionId deviceId correlationId now allowed =>
    simp only [step] at h
    split at h
    · split at h
      · exact .inr (hvoice h rfl rfl)
      · exact .inl (hstay h rfl)
    · cases h
  | «end» t =>
    simp only [step] at h
    split at h
    · split at h
      · exact .inr (hvoice h rfl rfl)
      · cases h
    · cases h
  | store op => exact .inl (hstay h rfl)

/-- Whether the step belongs to thread 0 or to no thread. -/
def onFirst (a : Action) : Bool := a.thread.all fun t => t = 0

theorem step_onFirst {ω : Type*} {observer : LifecycleObserver ω} {c c' : State ω} {a : Action}
    (ha : onFirst a = true) (h : step observer c a = some c') (t : ℕ) (ht : 0 < t) :
    c'.voice.threads t = c.voice.threads t := by
  rcases step_voice h with hsame | ⟨a', hstep, hthread⟩
  · rw [hsame]
  · obtain ⟨-, pc', -, -, hthreads, -, -, -⟩ := VoiceSession.step_move hstep
    have hzero : a'.thread = 0 := by simpa [onFirst, hthread] using ha
    rw [hthreads, hzero, Function.update_of_ne (by omega)]

/-- What the call of a thread that is in none returned. -/
def lastResult : Pc → Option VoiceSessionResult
  | .outside result => result
  | _ => none

theorem outside_of_lastResult {pc : Pc} {result : VoiceSessionResult}
    (h : lastResult pc = some result) : pc = .outside (some result) := by
  unfold lastResult at h
  split at h
  · rw [h]
  · cases h

/-- The server expires the transmission, the release is told that there is none such, and a press
after it is refused: the client rests on what the server no longer has. -/
theorem release_wedges : ∃ c,
    Runs (step accepting) Free (initial ())
      (logsIn ++ pressesGranted ++ [.store (.expireTimedOut 0 1 correlation)] ++ releasesHeld
        ++ [.call 0 (.pressPushToTalk .team), .resume 0 (.voiceState .connected)]) c
      ∧ Wedged c ∧ c.voice.threads 0 = .outside (some alreadyActive) ∧ ¬ Active c first := by
  obtain ⟨c, hrun, hc⟩ := exists_run_restrict (fun _ a => onFirst a) (step accepting)
    (logsIn ++ pressesGranted ++ [.store (.expireTimedOut 0 1 correlation)] ++ releasesHeld
      ++ [.call 0 (.pressPushToTalk .team), .resume 0 (.voiceState .connected)]) (s := initial ())
    (p := fun c => decide (c.voice.client.publicationState = .idle
      ∧ c.voice.client.activeTransmission = some ⟨first, clientTransmission, .team, 1, 2⟩
      ∧ c.notFound = [first] ∧ ¬ Active c first
      ∧ lastResult (c.voice.threads 0) = some alreadyActive)) (by decide +kernel)
  obtain ⟨hidle, hheld, hlogged, hinactive, hresult⟩ := of_decide_eq_true hc
  have hfirst := outside_of_lastResult hresult
  have hothers : ∀ t, 0 < t → c.voice.threads t = .outside none :=
    hrun.invariant (I := fun c => ∀ t, 0 < t → c.voice.threads t = .outside none)
      (fun _ _ _ hc ha hs t ht => (step_onFirst ha hs t ht).trans (hc t ht)) fun _ _ => rfl
  refine ⟨c, hrun.weaken fun _ _ _ => trivial, ⟨hidle, fun t => ?_, _, hheld, ?_⟩, hfirst,
    hinactive⟩
  · rcases Nat.eq_zero_or_pos t with rfl | ht
    · exact ⟨_, hfirst⟩
    · exact ⟨_, hothers t ht⟩
  · rw [hlogged]
    exact List.mem_cons_self

end Runs

end JointSession

end VoxTree

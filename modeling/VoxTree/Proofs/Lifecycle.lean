import VoxTree.Lifecycle
import VoxTree.Proofs.Store

/-!
# Publication follows the lifecycle in runs whose starts are settled

A locked section either removes transmissions, each with its own notification, or adds one
(`call_cases`). So the last notification issued for a publication is a start exactly while a
transmission of that publication is active. As long as no start is accepted over a waiting
notification, an active publication has nothing waiting and a stopped one at most one message, so
the notifications of each publication reach the observer in order and the law carries over to what
was delivered (`publication_follows_lifecycle`).
-/

namespace VoxTree

open Deferred Machine Store

/-- The transmissions of `s` missing in `s'` are those `events` reports as ended, each of its own
publication. -/
structure Removes (s s' : Store) (events : List LifecycleEvent) : Prop where
  activeInv : ActiveInv s'
  subset : ∀ (id : TransmissionId) (t : ActiveTransmission),
    s'.activeTransmissions[id]? = some t → s.activeTransmissions[id]? = some t
  reported : ∀ m ∈ events, ∃ e : EndedTransmission, m = .ended e ∧ ∃ id : TransmissionId,
    s.activeTransmissions[id]? = some e.transmission ∧ s'.activeTransmissions[id]? = none
  kept : ∀ (id : TransmissionId) (t : ActiveTransmission), s.activeTransmissions[id]? = some t →
    s'.activeTransmissions[id]? = some t ∨ ∃ m ∈ events, m.publication = t.publication
  distinct : events.Pairwise fun m m' => m.publication ≠ m'.publication

theorem removes_quiet {s s' : Store} (hs' : ActiveInv s')
    (ha : s'.activeTransmissions = s.activeTransmissions) : Removes s s' [] where
  activeInv := hs'
  subset id t ht := ha ▸ ht
  reported m hm := by simp at hm
  kept id t ht := .inl (ha ▸ ht)
  distinct := .nil

theorem removes_interrupted {s s₀ : Store} (hs : ActiveInv s)
    {stops : ActiveTransmission → Bool} {reason : TransmissionStopReason} {endedAt : TimePoint}
    {correlationId : CorrelationId}
    (ha : s₀.activeTransmissions = s.activeTransmissions)
    (hs' : ActiveInv (s₀.interruptWhere stops reason endedAt correlationId).2) :
    Removes s (s₀.interruptWhere stops reason endedAt correlationId).2
      ((s₀.interruptWhere stops reason endedAt correlationId).1.map .ended) where
  activeInv := hs'
  subset id t ht := by
    rw [getElem?_interruptWhere_eq_some, ha] at ht
    exact ht.1
  reported m hm := by
    obtain ⟨e, he, rfl⟩ := List.mem_map.1 hm
    obtain ⟨id, hid, hstop, -⟩ := mem_interruptWhere.1 he
    refine ⟨e, rfl, id, ha ▸ hid, ?_⟩
    rw [getElem?_interruptWhere, hid]
    simp [hstop]
  kept id t ht := by
    rcases hstop : stops t
    · exact .inl (getElem?_interruptWhere_eq_some.2 ⟨ha ▸ ht, hstop⟩)
    · refine .inr ⟨.ended ⟨t, reason, endedAt, correlationId⟩, List.mem_map_of_mem ?_, rfl⟩
      exact mem_interruptWhere.2 ⟨id, ha ▸ ht, hstop, rfl⟩
  distinct := by
    -- Distinct keys of the map are distinct senders.
    simp only [interruptWhere, List.map_map, ha]
    rw [List.pairwise_map]
    refine (Std.ExtTreeMap.distinct_keys_toList.filter _).imp_of_mem fun {a b} hma hmb hne => ?_
    intro hpub
    have hget := fun p (hp : p ∈ s.activeTransmissions.toList.filter fun entry => stops entry.2) =>
      Std.ExtTreeMap.mem_toList_iff_getElem?_eq_some.1 (List.mem_filter.1 hp).1
    have hsender := congrArg Publication.senderPlayerId hpub
    exact hne (Std.LawfulEqCmp.compare_eq_iff_eq.2
      (hs.sender_unique _ _ _ _ (hget a hma) (hget b hmb) hsender))

theorem removes_ended {s : Store} {id : TransmissionId} {e : EndedTransmission}
    (he : s.activeTransmissions[id]? = some e.transmission)
    (hs' : ActiveInv (s.eraseTransmission id)) :
    Removes s (s.eraseTransmission id) [.ended e] where
  activeInv := hs'
  subset id' t ht := by
    rw [getElem?_eraseTransmission] at ht
    split_ifs at ht
    exact ht
  reported m hm := by
    obtain rfl := List.mem_singleton.1 hm
    exact ⟨e, rfl, id, he, by rw [getElem?_eraseTransmission, if_pos rfl]⟩
  kept id' t ht := by
    by_cases hid : id = id'
    · subst hid
      rw [he] at ht
      exact .inr ⟨_, List.mem_singleton_self _, by rw [← Option.some.inj ht]; rfl⟩
    · exact .inl (by rw [getElem?_eraseTransmission, if_neg hid, ht])
  distinct := List.pairwise_singleton _ _

/-- A locked section removes transmissions and reports them, or reports the one it adds. -/
theorem call_cases (s : Store) (hs : ActiveInv s) (op : StoreOp) :
    (Removes s (lifecycle.call s op).1 ((lifecycle.call s op).2.1 ++ (lifecycle.call s op).2.2))
      ∨ ∃ entry, op.activation s = some entry ∧ (lifecycle.call s op).1 = s.emplace entry
        ∧ (lifecycle.call s op).2.1 = [.started entry] ∧ (lifecycle.call s op).2.2 = [] := by
  have heff := locked_effect recorder op s []
  have hinv := heff.activeInv hs
  simp only [lifecycle]
  generalize op.locked recorder s [] = r at heff hinv ⊢
  obtain ⟨ended, s', events⟩ := r
  simp only at heff hinv ⊢
  cases heff with
  | quiet _ ha => exact .inl (removes_quiet hinv ha)
  | interrupted s₀ stops reason endedAt correlationId ha _ =>
    exact .inl (removes_interrupted hs ha hinv)
  | ended id entry stopReason endedAt correlationId hentry =>
    exact .inl (removes_ended (e := ⟨entry, stopReason, endedAt, correlationId⟩) hentry hinv)
  | accepted entry hact _ => exact .inr ⟨entry, hact, rfl, rfl, rfl⟩
  | refused entry _ hrefused => simp [recorder] at hrefused

/-! ## What was issued -/

/-- The last notification issued for a publication is a start exactly while its transmission is
active. -/
structure IssuedInv (s : Store) (issued : List LifecycleEvent) : Prop where
  activeInv : ActiveInv s
  live : ∀ (id : TransmissionId) (t : ActiveTransmission), s.activeTransmissions[id]? = some t →
    lastOf LifecycleEvent.publication t.publication issued = some (.started t)
  idle : ∀ t : ActiveTransmission,
    lastOf LifecycleEvent.publication t.publication issued = some (.started t) →
    ∃ id : TransmissionId, s.activeTransmissions[id]? = some t

theorem IssuedInv.removes {s s' : Store} {issued events : List LifecycleEvent}
    (h : IssuedInv s issued) (hr : Removes s s' events) : IssuedInv s' (issued ++ events) where
  activeInv := hr.activeInv
  live id t ht := by
    have hnone : lastOf LifecycleEvent.publication t.publication events = none := by
      rw [lastOf_eq_none]
      intro m hm hpub
      obtain ⟨e, rfl, id', he, hgone⟩ := hr.reported m hm
      have hid := h.activeInv.sender_unique _ _ _ _ he (hr.subset id t ht)
        (congrArg Publication.senderPlayerId hpub)
      rw [hid, ht] at hgone
      cases hgone
    rw [lastOf_append, hnone, Option.none_or]
    exact h.live id t (hr.subset id t ht)
  idle t ht := by
    rw [lastOf_append] at ht
    rcases hlast : lastOf LifecycleEvent.publication t.publication events with _ | m
    · rw [hlast, Option.none_or] at ht
      obtain ⟨id, hid⟩ := h.idle t ht
      rcases hr.kept id t hid with hkept | ⟨m, hm, hpub⟩
      · exact ⟨id, hkept⟩
      · exact absurd hpub (lastOf_eq_none.1 hlast m hm)
    · obtain ⟨e, rfl, -⟩ := hr.reported m (key_of_lastOf hlast).1
      simp [hlast] at ht

theorem IssuedInv.emplace {s : Store} {issued : List LifecycleEvent} (h : IssuedInv s issued)
    {entry : ActiveTransmission} (he : s.Activated entry) :
    IssuedInv (s.emplace entry) (issued ++ [.started entry]) where
  activeInv := h.activeInv.emplace he
  live id t ht := by
    rw [getElem?_emplace] at ht
    rw [lastOf_append, lastOf_singleton]
    split_ifs at ht with hid
    · obtain rfl := Option.some.inj ht
      simp [LifecycleEvent.publication]
    · rw [if_neg, Option.none_or]
      · exact h.live id t ht
      · intro hpub
        exact he.sender_idle id t ht (congrArg Publication.senderPlayerId hpub).symm
  idle t ht := by
    rw [lastOf_append, lastOf_singleton] at ht
    split_ifs at ht with hpub
    · simp only [Option.some_or, Option.some.injEq, LifecycleEvent.started.injEq] at ht
      subst ht
      exact ⟨_, by rw [getElem?_emplace, if_pos rfl]⟩
    · rw [Option.none_or] at ht
      obtain ⟨id, hid⟩ := h.idle t ht
      refine ⟨id, ?_⟩
      rw [getElem?_emplace, if_neg, hid]
      rintro rfl
      rw [he.fresh] at hid
      cases hid

/-! ## What is waiting -/

/-- An active publication has nothing waiting, any other at most one notification. -/
structure LifecycleInv (c : LifecycleConfig) : Prop where
  issued : IssuedInv c.state c.issued
  quiet : ∀ (id : TransmissionId) (t : ActiveTransmission),
    c.state.activeTransmissions[id]? = some t →
    Settled LifecycleEvent.publication c t.publication
  apart : ∀ t₁ t₂, ∀ p ∈ c.pending t₁, ∀ q ∈ c.pending t₂,
    p.1.publication = q.1.publication → p = q

theorem lifecycleInv_start : LifecycleInv (start {} ()) where
  issued := ⟨activeInv_empty, by simp [start], by simp [start]⟩
  quiet := by simp [start]
  apart := by simp [start]

section Step

variable {c c' : LifecycleConfig}

/-- A notification about a transmission that is active before a section is settled. -/
theorem Removes.settled {s' : Store} {events : List LifecycleEvent} (hc : LifecycleInv c)
    (hr : Removes c.state s' events) {m : LifecycleEvent} (hm : m ∈ events) :
    Settled LifecycleEvent.publication c m.publication := by
  obtain ⟨e, rfl, id, he, -⟩ := hr.reported m hm
  exact hc.quiet id e.transmission he

theorem LifecycleInv.inOrder {a : LifecycleAction} (hc : LifecycleInv c) (hG : StartsSettled c a) :
    InOrder lifecycle LifecycleEvent.publication c a := by
  cases a with
  | call t o answer =>
    intro m hm
    rcases call_cases c.state hc.issued.activeInv o with hr | ⟨entry, hact, -, hnow, -⟩
    · exact hr.settled hc (List.mem_append_left _ hm)
    · rw [hnow, List.mem_singleton] at hm
      subst hm
      exact hG entry hact
  | deliver t answer =>
    intro p hp t' q hq hpub
    exact Nat.le_of_eq (congrArg Prod.snd (hc.apart t t' p (List.mem_of_head? hp) q hq hpub.symm))

theorem LifecycleInv.removes {t n : ℕ} {later events : List LifecycleEvent} (hc : LifecycleInv c)
    (hidle : c.pending t = []) (hr : Removes c.state c'.state events)
    (hlater : ∀ m ∈ later, m ∈ events)
    (hdistinct : later.Pairwise fun m m' => m.publication ≠ m'.publication)
    (hiss : c'.issued = c.issued ++ events)
    (hpend : c'.pending = Function.update c.pending t (later.zipIdx n)) : LifecycleInv c' := by
  have hmem : ∀ t', ∀ p ∈ c'.pending t', p ∈ c.pending t' ∨ p ∈ later.zipIdx n := by
    intro t' p hp
    by_cases ht : t' = t
    · subst ht
      rw [hpend, Function.update_self] at hp
      exact .inr hp
    · rw [hpend, Function.update_of_ne ht] at hp
      exact .inl hp
  have hnew : ∀ p ∈ later.zipIdx n, p.1 ∈ events := fun p hp =>
    hlater p.1 (List.mem_of_getElem? (mem_zipIdx_later hp).2)
  refine ⟨by rw [hiss]; exact hc.issued.removes hr, fun id x hx t' p hp => ?_,
    fun t₁ t₂ p hp q hq hpub => ?_⟩
  · rcases hmem t' p hp with hp | hp
    · exact hc.quiet id x (hr.subset id x hx) t' p hp
    · intro hpub
      obtain ⟨e, he, id', hid', hgone⟩ := hr.reported p.1 (hnew p hp)
      rw [he] at hpub
      have hid := hc.issued.activeInv.sender_unique _ _ _ _ hid' (hr.subset id x hx)
        (congrArg Publication.senderPlayerId hpub)
      rw [hid, hx] at hgone
      cases hgone
  · rcases hmem t₁ p hp with hp | hp <;> rcases hmem t₂ q hq with hq | hq
    · exact hc.apart t₁ t₂ p hp q hq hpub
    · exact absurd hpub (hr.settled hc (hnew q hq) t₁ p hp)
    · exact absurd hpub.symm (hr.settled hc (hnew p hp) t₂ q hq)
    · obtain ⟨hpn, hpi⟩ := mem_zipIdx_later hp
      obtain ⟨hqn, hqi⟩ := mem_zipIdx_later hq
      have hplace : p.2 - n = q.2 - n := by
        obtain ⟨hpl, hpe⟩ := List.getElem?_eq_some_iff.1 hpi
        obtain ⟨hql, hqe⟩ := List.getElem?_eq_some_iff.1 hqi
        rcases Nat.lt_trichotomy (p.2 - n) (q.2 - n) with hlt | heq | hlt
        · have := List.pairwise_iff_getElem.1 hdistinct _ _ hpl hql hlt
          rw [hpe, hqe] at this
          exact absurd hpub this
        · exact heq
        · have := List.pairwise_iff_getElem.1 hdistinct _ _ hql hpl hlt
          rw [hpe, hqe] at this
          exact absurd hpub.symm this
      refine Prod.ext ?_ (by omega)
      rw [hplace, hqi] at hpi
      exact (Option.some.inj hpi).symm

theorem LifecycleInv.step {a : LifecycleAction} (hc : LifecycleInv c) (hG : StartsSettled c a)
    (h : Deferred.step lifecycle c a = some c') : LifecycleInv c' := by
  cases a with
  | call t o answer =>
    have horder := hc.inOrder hG
    obtain ⟨hidle, hst, -, hiss, -, hpend⟩ := step_call h
    rcases call_cases c.state hc.issued.activeInv o with hr | ⟨entry, hact, hst', hnow, hlater⟩
    · rw [← hst] at hr
      exact hc.removes hidle hr (fun m hm => List.mem_append_right _ hm)
        (List.pairwise_append.1 hr.distinct).2.1 (by rw [hiss, List.append_assoc]) hpend
    · have hpend' : c'.pending = c.pending := by
        rw [hpend, hlater, List.zipIdx_nil, ← hidle, Function.update_eq_self]
      refine ⟨?_, fun id x hx => ?_, ?_⟩
      · rw [hst, hst', hiss, hnow, hlater, List.append_nil]
        exact hc.issued.emplace (activated_of_activation hact)
      · have hset : Settled LifecycleEvent.publication c x.publication := by
          rw [hst, hst', getElem?_emplace] at hx
          split_ifs at hx
          · obtain rfl := Option.some.inj hx
            exact horder (.started entry) (by rw [hnow]; exact List.mem_singleton_self _)
          · exact hc.quiet id x hx
        intro t' p hp
        exact hset t' p (hpend' ▸ hp)
      · rw [hpend']
        exact hc.apart
  | deliver t answer =>
    obtain ⟨p, rest, hp, hst, -, hiss, -, hpend⟩ := step_deliver h
    have hsub : ∀ t', ∀ q ∈ c'.pending t', q ∈ c.pending t' := fun t' q hq => by
      rw [hpend] at hq
      by_cases ht : t' = t
      · subst ht
        rw [Function.update_self] at hq
        exact hp ▸ List.mem_cons_of_mem _ hq
      · rwa [Function.update_of_ne ht] at hq
    refine ⟨by rw [hst, hiss]; exact hc.issued, fun id x hx t' q hq => ?_,
      fun t₁ t₂ q hq q' hq' => ?_⟩
    · rw [hst] at hx
      exact hc.quiet id x hx t' q (hsub t' q hq)
    · exact hc.apart t₁ t₂ q (hsub t₁ q hq) q' (hsub t₂ q' hq')

end Step

/-! ## What was delivered -/

/-- In every run that accepts a start only when no notification for its publication is waiting,
the observer has last heard a start of every active transmission, and once nothing is waiting it
has last heard a start of a publication exactly if that publication is active. -/
theorem publication_follows_lifecycle {as : List LifecycleAction} {c : LifecycleConfig}
    (h : Runs (step lifecycle) StartsSettled (start {} ()) as c) :
    (∀ (id : TransmissionId) (t : ActiveTransmission),
      c.state.activeTransmissions[id]? = some t →
      lastOf LifecycleEvent.publication t.publication c.delivered = some (.started t))
    ∧ ((∀ t, c.pending t = []) → ∀ k : Publication,
      (∃ t, lastOf LifecycleEvent.publication k c.delivered = some (.started t))
        ↔ ∃ (id : TransmissionId) (t : ActiveTransmission),
          c.state.activeTransmissions[id]? = some t ∧ t.publication = k) := by
  have hinv : LifecycleInv c :=
    h.invariant (fun _ _ _ hc hG hs => hc.step hG hs) lifecycleInv_start
  have hrun : Runs (step lifecycle) (InOrder lifecycle LifecycleEvent.publication) (start {} ())
      as c :=
    h.strengthen (I := LifecycleInv) (fun _ _ _ hc hG hs => hc.step hG hs)
      (fun _ _ _ hc hG _ => hc.inOrder hG) lifecycleInv_start
  refine ⟨fun id t ht => ?_, fun hidle k => ?_⟩
  · rw [last_delivered hrun (hinv.quiet id t ht)]
    exact hinv.issued.live id t ht
  · have hset : Settled LifecycleEvent.publication c k := fun t p hp => by simp [hidle] at hp
    rw [last_delivered hrun hset]
    constructor
    · rintro ⟨t, ht⟩
      have hk : t.publication = k := (key_of_lastOf ht).2
      obtain ⟨id, hid⟩ := hinv.issued.idle t (hk ▸ ht)
      exact ⟨id, t, hid, hk⟩
    · rintro ⟨id, t, ht, rfl⟩
      exact ⟨t, hinv.issued.live id t ht⟩

theorem startsSettled_of_startsSettledOn {n : ℕ} {c : LifecycleConfig} {a : LifecycleAction}
    (hc : OnThreads n c) (h : startsSettledOn n c a = true) : StartsSettled c a := by
  cases a with
  | call t o answer =>
    intro entry hentry
    simp only [startsSettledOn, hentry, Option.all_some] at h
    exact settled_of_settledOn hc h
  | deliver t answer => trivial

section Runs

open Sample

/-- The first thread ends `first`, the second gives `alice` a membership again and starts `second`
after the first thread has notified of the end. -/
def endThenStart : List LifecycleAction :=
  [.call 0 (.upsertSession authenticated) fun _ => (), .call 0 join fun _ => (),
    .call 0 (startOf first) fun _ => (),
    .call 0 (.removeMembership alice 0 correlation) fun _ => (), .call 1 join fun _ => (),
    .deliver 0 (), .call 1 (startOf second) fun _ => ()]

theorem publication_follows_endThenStart : ∃ c : LifecycleConfig,
    Runs (step lifecycle) StartsSettled (start {} ()) endThenStart c
      ∧ lastOf LifecycleEvent.publication (entryOf second).publication c.delivered
        = some (.started (entryOf second)) := by
  obtain ⟨c, hc, hactive⟩ := exists_guarded_run (C := lifecycle) (n := 2) (s := {}) (r := ())
    (g := startsSettledOn 2) endThenStart
    (p := fun c => decide (c.state.activeTransmissions[second]? = some (entryOf second)))
    (fun _ _ => startsSettled_of_startsSettledOn) (by decide) (by decide +kernel)
  exact ⟨c, hc, (publication_follows_lifecycle hc).1 _ _ (of_decide_eq_true hactive)⟩

/-- The same with the start of `second` before the notification. -/
def startBeforeEnd : List LifecycleAction :=
  [.call 0 (.upsertSession authenticated) fun _ => (), .call 0 join fun _ => (),
    .call 0 (startOf first) fun _ => (),
    .call 0 (.removeMembership alice 0 correlation) fun _ => (), .call 1 join fun _ => (),
    .call 1 (startOf second) fun _ => (), .deliver 0 ()]

/-- Nothing is waiting and `second` is active, but the observer has last heard an end. -/
theorem active_publication_last_ended : ∃ c : LifecycleConfig,
    Runs (step lifecycle) Free (start {} ()) startBeforeEnd c ∧ (∀ t, c.pending t = [])
      ∧ c.state.activeTransmissions[second]? = some (entryOf second)
      ∧ lastOf LifecycleEvent.publication (entryOf second).publication c.delivered
        = some (.ended ⟨entryOf first, .membershipChanged, 0, correlation⟩) := by
  obtain ⟨c, hrun, hidle, hc⟩ := exists_idle_run (C := lifecycle) (n := 2) (s := {}) (r := ())
    startBeforeEnd
    (p := fun c => decide (c.state.activeTransmissions[second]? = some (entryOf second)
      ∧ lastOf LifecycleEvent.publication (entryOf second).publication c.delivered
        = some (.ended ⟨entryOf first, .membershipChanged, 0, correlation⟩)))
    (by decide) (by decide +kernel)
  exact ⟨c, hrun, hidle, of_decide_eq_true hc⟩

end Runs

end VoxTree

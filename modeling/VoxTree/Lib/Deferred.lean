import VoxTree.Lib.Machine

/-!
# Components that decide under a lock and hand their decisions on afterwards

An operation runs one locked section and ends with messages to a receiver: some handed on before
the lock is released, the others one at a time after it, while other threads run sections and hand
on messages of their own. `issued` and `delivered` record the messages in the order the sections
produced them and in the order the receiver got them.

Every message concerns a key. In a run that hands on the messages of each key in the order they
were issued, the receiver has last heard of a key what was last issued for it, as soon as nothing
is pending for that key (`last_delivered`).
-/

namespace Deferred

open Machine

variable {σ ω μ ρ ε κ : Type*}

/-- `call` is the locked section: the state after it, the messages handed on under the lock and
those left for afterwards. `receive` is what the receiver does with a message, given what its own
environment answers. -/
structure Component (σ ω μ ρ ε : Type*) where
  call : σ → ω → σ × List μ × List μ
  receive : ρ → μ → ε → ρ

/-- A message waits in its thread's list together with its place in `issued`. -/
structure Config (σ μ ρ : Type*) where
  state : σ
  receiver : ρ
  issued : List μ
  delivered : List μ
  pending : ℕ → List (μ × ℕ)

inductive Action (ω μ ε : Type*)
  | call (t : ℕ) (o : ω) (answer : μ → ε)
  | deliver (t : ℕ) (answer : ε)

def start (s : σ) (r : ρ) : Config σ μ ρ := ⟨s, r, [], [], fun _ => []⟩

variable (C : Component σ ω μ ρ ε)

/-- A thread starts a new operation only after it has handed on all messages of the last one. -/
def step (c : Config σ μ ρ) : Action ω μ ε → Option (Config σ μ ρ)
  | .call t o answer =>
    match c.pending t with
    | _ :: _ => none
    | [] =>
      let r := C.call c.state o
      some
        { state := r.1
          receiver := r.2.1.foldl (fun q m => C.receive q m (answer m)) c.receiver
          issued := c.issued ++ r.2.1 ++ r.2.2
          delivered := c.delivered ++ r.2.1
          pending := Function.update c.pending t
            (r.2.2.zipIdx (c.issued.length + r.2.1.length)) }
  | .deliver t answer =>
    match c.pending t with
    | [] => none
    | p :: rest =>
      some
        { c with
          receiver := C.receive c.receiver p.1 answer
          delivered := c.delivered ++ [p.1]
          pending := Function.update c.pending t rest }

/-- Nothing is waiting to be handed on for `k`. -/
def Settled (key : μ → κ) (c : Config σ μ ρ) (k : κ) : Prop :=
  ∀ t, ∀ p ∈ c.pending t, key p.1 ≠ k

/-- Messages of one key are handed on in the order they were issued: none under the lock while an
older one of its key is waiting, and none before an older one of its key. -/
def InOrder (key : μ → κ) (c : Config σ μ ρ) : Action ω μ ε → Prop
  | .call _ o _ => ∀ m ∈ (C.call c.state o).2.1, Settled key c (key m)
  | .deliver t _ => ∀ p, (c.pending t).head? = some p →
      ∀ t', ∀ q ∈ c.pending t', key q.1 = key p.1 → p.2 ≤ q.2

/-- The last message of a key in a list. -/
def lastOf [DecidableEq κ] (key : μ → κ) (k : κ) (l : List μ) : Option μ :=
  (l.filter (key · = k)).getLast?

section Last

variable [DecidableEq κ] {key : μ → κ} {k : κ}

@[simp] theorem lastOf_nil : lastOf key k [] = none := rfl

theorem lastOf_append (l₁ l₂ : List μ) :
    lastOf key k (l₁ ++ l₂) = (lastOf key k l₂).or (lastOf key k l₁) := by
  simp only [lastOf, List.filter_append, List.getLast?_append]

theorem lastOf_eq_none {l : List μ} : lastOf key k l = none ↔ ∀ m ∈ l, key m ≠ k := by
  simp [lastOf]

theorem lastOf_singleton (m : μ) :
    lastOf key k [m] = if key m = k then some m else none := by
  simp only [lastOf, List.filter_cons, List.filter_nil]
  split <;> simp_all

theorem key_of_lastOf {l : List μ} {m : μ} (h : lastOf key k l = some m) :
    m ∈ l ∧ key m = k := by
  have := List.mem_of_getLast? h
  simpa using this

theorem lastOf_of_unique {l : List μ} {m : μ} (hm : m ∈ l) (hk : key m = k)
    (hl : ∀ m' ∈ l, key m' = k → m' = m) : lastOf key k l = some m := by
  rcases h : lastOf key k l with _ | m'
  · exact absurd hk (lastOf_eq_none.1 h m hm)
  · obtain ⟨hm', hk'⟩ := key_of_lastOf h
    rw [hl m' hm' hk']

/-- `n` is the last place of `l` whose message has the key `k`. -/
def LastPlace (key : μ → κ) (k : κ) (l : List μ) (n : ℕ) : Prop :=
  ∀ (j : ℕ) (m : μ), n < j → l[j]? = some m → key m ≠ k

theorem lastOf_of_lastPlace : ∀ {l : List μ} {n : ℕ} {m : μ}, l[n]? = some m → key m = k →
    LastPlace key k l n → lastOf key k l = some m
  | [], n, m, hn, _, _ => by simp at hn
  | a :: l, 0, m, hn, hk, hlast => by
    simp only [List.getElem?_cons_zero, Option.some.injEq] at hn
    subst hn
    have hl : lastOf key k l = none := by
      rw [lastOf_eq_none]
      intro m' hm'
      obtain ⟨i, hi⟩ := List.mem_iff_getElem?.1 hm'
      exact hlast (i + 1) m' (by omega) hi
    rw [← List.singleton_append, lastOf_append, hl, lastOf_singleton, if_pos hk]
    rfl
  | a :: l, n + 1, m, hn, hk, hlast => by
    have hl : lastOf key k l = some m :=
      lastOf_of_lastPlace hn hk fun j m' hj hm' => hlast (j + 1) m' (by omega) hm'
    rw [← List.singleton_append, lastOf_append, hl, Option.some_or]

theorem exists_lastPlace : ∀ {l : List μ} {m : μ}, lastOf key k l = some m →
    ∃ n : ℕ, l[n]? = some m ∧ LastPlace key k l n
  | [], m, h => by simp at h
  | a :: l, m, h => by
    rw [← List.singleton_append, lastOf_append] at h
    rcases hl : lastOf key k l with _ | m₁ <;> rw [hl] at h
    · rw [Option.none_or, lastOf_singleton] at h
      split_ifs at h
      obtain rfl := Option.some.inj h
      refine ⟨0, rfl, fun j m' hj hm' => ?_⟩
      obtain ⟨i, rfl⟩ := Nat.exists_eq_succ_of_ne_zero (by omega : j ≠ 0)
      exact lastOf_eq_none.1 hl m' (List.mem_of_getElem? hm')
    · rw [Option.some_or] at h
      obtain rfl := Option.some.inj h
      obtain ⟨n, hn, hlast⟩ := exists_lastPlace hl
      refine ⟨n + 1, hn, fun j m' hj hm' => ?_⟩
      obtain ⟨i, rfl⟩ := Nat.exists_eq_succ_of_ne_zero (by omega : j ≠ 0)
      exact hlast i m' (by omega) hm'

end Last

/-! ## One step -/

variable {C} {c c' : Config σ μ ρ}

theorem step_call {t : ℕ} {o : ω} {answer : μ → ε} (h : step C c (.call t o answer) = some c') :
    c.pending t = [] ∧ c'.state = (C.call c.state o).1
      ∧ c'.receiver = (C.call c.state o).2.1.foldl (fun q m => C.receive q m (answer m)) c.receiver
      ∧ c'.issued = c.issued ++ (C.call c.state o).2.1 ++ (C.call c.state o).2.2
      ∧ c'.delivered = c.delivered ++ (C.call c.state o).2.1
      ∧ c'.pending = Function.update c.pending t
        ((C.call c.state o).2.2.zipIdx (c.issued.length + (C.call c.state o).2.1.length)) := by
  simp only [step] at h
  split at h
  · cases h
  · rename_i hp
    obtain rfl := Option.some.inj h
    exact ⟨hp, rfl, rfl, rfl, rfl, rfl⟩

theorem step_deliver {t : ℕ} {answer : ε} (h : step C c (.deliver t answer) = some c') :
    ∃ p rest, c.pending t = p :: rest ∧ c'.state = c.state
      ∧ c'.receiver = C.receive c.receiver p.1 answer ∧ c'.issued = c.issued
      ∧ c'.delivered = c.delivered ++ [p.1] ∧ c'.pending = Function.update c.pending t rest := by
  simp only [step] at h
  split at h
  · cases h
  · rename_i p rest hp
    obtain rfl := Option.some.inj h
    exact ⟨p, rest, hp, rfl, rfl, rfl, rfl, rfl⟩

/-! ## What calls and receipts preserve -/

section Invariants

variable {G : Config σ μ ρ → Action ω μ ε → Prop} {s : σ} {r : ρ} {as : List (Action ω μ ε)}

/-- A law between the state and what was issued that every locked section preserves. -/
theorem issued_invariant {J : σ → List μ → Prop} (hs : J s [])
    (hcall : ∀ st l o, J st l → J (C.call st o).1 (l ++ (C.call st o).2.1 ++ (C.call st o).2.2))
    (h : Runs (step C) G (start s r) as c) : J c.state c.issued := by
  refine h.invariant (I := fun c => J c.state c.issued) (fun c a c' hc _ hstep => ?_) hs
  cases a with
  | call t o answer =>
    obtain ⟨-, hst, -, hiss, -, -⟩ := step_call hstep
    rw [hst, hiss]
    exact hcall _ _ o hc
  | deliver t answer =>
    obtain ⟨p, rest, -, hst, -, hiss, -, -⟩ := step_deliver hstep
    rwa [hst, hiss]

theorem foldl_receive {K : ρ → List μ → Prop}
    (hrec : ∀ q l m e, K q l → K (C.receive q m e) (l ++ [m])) (answer : μ → ε) :
    ∀ (now : List μ) {q : ρ} {l : List μ}, K q l →
      K (now.foldl (fun q m => C.receive q m (answer m)) q) (l ++ now)
  | [], _, _, h => by simpa using h
  | m :: now, q, l, h => by
    have := foldl_receive hrec answer now (hrec q l m (answer m) h)
    simpa using this

/-- A law between the receiver and what it got that every receipt preserves. -/
theorem delivered_invariant {K : ρ → List μ → Prop} (hr : K r [])
    (hrec : ∀ q l m e, K q l → K (C.receive q m e) (l ++ [m]))
    (h : Runs (step C) G (start s r) as c) : K c.receiver c.delivered := by
  refine h.invariant (I := fun c => K c.receiver c.delivered) (fun c a c' hc _ hstep => ?_) hr
  cases a with
  | call t o answer =>
    obtain ⟨-, -, hrecv, -, hdel, -⟩ := step_call hstep
    rw [hrecv, hdel]
    exact foldl_receive hrec answer _ hc
  | deliver t answer =>
    obtain ⟨p, rest, -, -, hrecv, -, hdel, -⟩ := step_deliver hstep
    rw [hrecv, hdel]
    exact hrec _ _ _ _ hc

end Invariants

/-! ## Runs that keep the order of each key -/

section Order

variable [DecidableEq κ] {key : μ → κ}

/-- What waits has its own place in `issued`, and of each key either the last message issued is
still waiting, or nothing is and the receiver has heard it. -/
structure Ordered (key : μ → κ) (c : Config σ μ ρ) : Prop where
  place : ∀ t, ∀ p ∈ c.pending t, c.issued[p.2]? = some p.1
  sorted : ∀ t, (c.pending t).Pairwise (·.2 < ·.2)
  apart : ∀ t t', ∀ p ∈ c.pending t, ∀ q ∈ c.pending t', p.2 = q.2 → t = t'
  heard : ∀ k, (∃ t, ∃ p ∈ c.pending t, key p.1 = k ∧ LastPlace key k c.issued p.2)
    ∨ (Settled key c k ∧ lastOf key k c.delivered = lastOf key k c.issued)

theorem ordered_start (s : σ) (r : ρ) : Ordered key (start s r : Config σ μ ρ) where
  place := by simp [start]
  sorted := by simp [start]
  apart := by simp [start]
  heard _ := .inr ⟨by simp [Settled, start], rfl⟩

/-- Two waiting messages at one place are one message. -/
theorem Ordered.eq_of_place (hc : Ordered key c) {t t' : ℕ} {p q : μ × ℕ}
    (hp : p ∈ c.pending t) (hq : q ∈ c.pending t') (h : p.2 = q.2) : p = q := by
  have h₁ := hc.place t p hp
  rw [h, hc.place t' q hq] at h₁
  exact Prod.ext (Option.some.inj h₁).symm h

/-- The messages a call leaves waiting stand behind everything issued before it. -/
theorem mem_zipIdx_later {l : List μ} {n : ℕ} {p : μ × ℕ} (h : p ∈ l.zipIdx n) :
    n ≤ p.2 ∧ l[p.2 - n]? = some p.1 :=
  ⟨List.le_snd_of_mem_zipIdx h, (List.mem_zipIdx_iff_le_and_getElem?_sub.1 h).2⟩

section Call

variable {t : ℕ} {o : ω} {answer : μ → ε}

/-- What waits after a call: what it left for afterwards, and what others waited with before. -/
theorem Ordered.waits_call (hc : Ordered key c) (h : step C c (.call t o answer) = some c')
    {t' : ℕ} {p : μ × ℕ} (hp : p ∈ c'.pending t') :
    (t' = t ∧ p ∈ (C.call c.state o).2.2.zipIdx
        (c.issued.length + (C.call c.state o).2.1.length))
      ∨ (t' ≠ t ∧ p ∈ c.pending t' ∧ p.2 < c.issued.length) := by
  obtain ⟨-, -, -, -, -, hpend⟩ := step_call h
  by_cases ht : t' = t
  · rw [hpend, ht, Function.update_self] at hp
    exact .inl ⟨ht, hp⟩
  · rw [hpend, Function.update_of_ne ht] at hp
    exact .inr ⟨ht, hp, (List.getElem?_eq_some_iff.1 (hc.place t' p hp)).1⟩

theorem mem_pending_call (h : step C c (.call t o answer) = some c') {t' : ℕ} {p : μ × ℕ}
    (hp : p ∈ c.pending t') : p ∈ c'.pending t' := by
  obtain ⟨hidle, -, -, -, -, hpend⟩ := step_call h
  have ht : t' ≠ t := fun e => by simp [e, hidle] at hp
  rwa [hpend, Function.update_of_ne ht]

/-- A call that leaves nothing about a key for afterwards does not unsettle it. -/
theorem Ordered.settled_call (hc : Ordered key c) (h : step C c (.call t o answer) = some c')
    {k : κ} (hlater : lastOf key k (C.call c.state o).2.2 = none) (hset : Settled key c k) :
    Settled key c' k := by
  intro t' p hp
  rcases hc.waits_call h hp with ⟨-, hp⟩ | ⟨-, hp, -⟩
  · exact lastOf_eq_none.1 hlater p.1 (List.mem_of_getElem? (mem_zipIdx_later hp).2)
  · exact hset t' p hp

theorem Ordered.heard_call (hc : Ordered key c) (hG : InOrder C key c (.call t o answer))
    (h : step C c (.call t o answer) = some c') (k : κ) :
    (∃ t', ∃ p ∈ c'.pending t', key p.1 = k ∧ LastPlace key k c'.issued p.2)
      ∨ (Settled key c' k ∧ lastOf key k c'.delivered = lastOf key k c'.issued) := by
  obtain ⟨-, -, -, hiss, hdel, hpend⟩ := step_call h
  rcases hlk : lastOf key k (C.call c.state o).2.2 with _ | m
  · -- Nothing about `k` is left for afterwards, so what waited for it before still does.
    rcases hnk : lastOf key k (C.call c.state o).2.1 with _ | m
    · rcases hc.heard k with ⟨t', p, hp, hk, hlast⟩ | ⟨hset, heq⟩
      · refine .inl ⟨t', p, mem_pending_call h hp, hk, fun j m' hj hm' => ?_⟩
        have hlt := (List.getElem?_eq_some_iff.1 (hc.place t' p hp)).1
        rw [hiss, List.append_assoc] at hm'
        by_cases hjl : j < c.issued.length
        · exact hlast j m' hj (by rwa [List.getElem?_append_left hjl] at hm')
        · rw [List.getElem?_append_right (by omega)] at hm'
          rcases List.mem_append.1 (List.mem_of_getElem? hm') with hm | hm
          · exact lastOf_eq_none.1 hnk m' hm
          · exact lastOf_eq_none.1 hlk m' hm
      · refine .inr ⟨hc.settled_call h hlk hset, ?_⟩
        simp only [hiss, hdel, lastOf_append, hlk, hnk, Option.none_or, heq]
    · have hset := hG m (key_of_lastOf hnk).1
      rw [(key_of_lastOf hnk).2] at hset
      refine .inr ⟨hc.settled_call h hlk hset, ?_⟩
      simp only [hiss, hdel, lastOf_append, hlk, hnk, Option.none_or, Option.some_or]
  · -- The last message left for afterwards about `k` is the last one issued for it.
    obtain ⟨i, hi, hlast⟩ := exists_lastPlace hlk
    refine .inl ⟨t, (m, c.issued.length + (C.call c.state o).2.1.length + i), ?_,
      (key_of_lastOf hlk).2, fun j m' hj hm' => ?_⟩
    · rw [hpend, Function.update_self, List.mem_zipIdx_iff_le_and_getElem?_sub]
      exact ⟨by omega, by simpa using hi⟩
    · rw [hiss, List.getElem?_append_right (by simp; omega), List.length_append] at hm'
      exact hlast _ m' (by omega) hm'

theorem Ordered.call (hc : Ordered key c) (hG : InOrder C key c (.call t o answer))
    (h : step C c (.call t o answer) = some c') : Ordered key c' := by
  obtain ⟨-, -, -, hiss, -, hpend⟩ := step_call h
  refine ⟨fun t' p hp => ?_, fun t' => ?_, fun t₁ t₂ p hp q hq hpq => ?_, hc.heard_call hG h⟩
  · rw [hiss]
    rcases hc.waits_call h hp with ⟨-, hp⟩ | ⟨-, hp, hlt⟩
    · obtain ⟨hle, hget⟩ := mem_zipIdx_later hp
      rw [List.getElem?_append_right (by simpa using hle), List.length_append, hget]
    · rw [List.append_assoc, List.getElem?_append_left hlt, hc.place t' p hp]
  · by_cases ht : t' = t
    · rw [ht, hpend, Function.update_self]
      exact List.pairwise_iff_getElem.2 fun i j hi hj hij => by simpa using hij
    · rw [hpend, Function.update_of_ne ht]
      exact hc.sorted t'
  · rcases hc.waits_call h hp with ⟨h₁, hp⟩ | ⟨-, hp, hltp⟩ <;>
      rcases hc.waits_call h hq with ⟨h₂, hq⟩ | ⟨-, hq, hltq⟩
    · rw [h₁, h₂]
    · have := (mem_zipIdx_later hp).1
      omega
    · have := (mem_zipIdx_later hq).1
      omega
    · exact hc.apart t₁ t₂ p hp q hq hpq

end Call

theorem Ordered.deliver {t : ℕ} {answer : ε} (hc : Ordered key c)
    (hG : InOrder C key c (.deliver t answer)) (h : step C c (.deliver t answer) = some c') :
    Ordered key c' := by
  obtain ⟨p, rest, hp, -, -, hiss, hdel, hpend⟩ := step_deliver h
  have hpt : c'.pending t = rest := by rw [hpend, Function.update_self]
  have hpo : ∀ t', t' ≠ t → c'.pending t' = c.pending t' := fun t' ht => by
    rw [hpend, Function.update_of_ne ht]
  have hmem : p ∈ c.pending t := by simp [hp]
  have hsub : ∀ t', ∀ q ∈ c'.pending t', q ∈ c.pending t' := fun t' q hq => by
    by_cases ht : t' = t
    · rw [ht, hpt] at hq
      rw [ht, hp]
      exact List.mem_cons_of_mem _ hq
    · rwa [hpo t' ht] at hq
  have hkeep : ∀ t', ∀ q ∈ c.pending t', q ≠ p → q ∈ c'.pending t' := fun t' q hq hne => by
    by_cases ht : t' = t
    · rw [ht, hp] at hq
      rw [ht, hpt]
      exact (List.mem_cons.1 hq).resolve_left hne
    · rwa [hpo t' ht]
  have hgone : ∀ t', p ∉ c'.pending t' := fun t' hq => by
    have ht := hc.apart t' t p (hsub t' p hq) p hmem rfl
    rw [ht, hpt] at hq
    have hs := hc.sorted t
    rw [hp] at hs
    exact absurd (List.rel_of_pairwise_cons hs hq) (Nat.lt_irrefl _)
  refine ⟨fun t' q hq => ?_, fun t' => ?_, fun t₁ t₂ q hq q' hq' e => ?_, fun k => ?_⟩
  · rw [hiss]
    exact hc.place t' q (hsub t' q hq)
  · by_cases ht : t' = t
    · have hs := hc.sorted t
      rw [hp] at hs
      rw [ht, hpt]
      exact hs.of_cons
    · rw [hpo t' ht]
      exact hc.sorted t'
  · exact hc.apart t₁ t₂ q (hsub t₁ q hq) q' (hsub t₂ q' hq') e
  · have hlist : key p.1 ≠ k → lastOf key k c'.delivered = lastOf key k c.delivered := fun hk => by
      rw [hdel, lastOf_append, lastOf_singleton, if_neg hk, Option.none_or]
    rcases hc.heard k with ⟨t', q, hq, hk, hlast⟩ | ⟨hset, heq⟩
    · by_cases hqp : q = p
      · -- The last message issued for `k` is handed on, so no other one is waiting.
        subst hqp
        refine .inr ⟨fun t'' q' hq' hk' => ?_, ?_⟩
        · have hle := hG q (by simp [hp]) t'' q' (hsub t'' q' hq') (hk'.trans hk.symm)
          have hge : q'.2 ≤ q.2 := by
            by_contra hlt
            exact hlast q'.2 q'.1 (by omega) (hc.place t'' q' (hsub t'' q' hq')) hk'
          have := hc.eq_of_place (hsub t'' q' hq') hmem (by omega)
          exact hgone t'' (this ▸ hq')
        · rw [hdel, hiss, lastOf_append, lastOf_singleton, if_pos hk, Option.some_or,
            lastOf_of_lastPlace (hc.place t' q hq) hk hlast]
      · exact .inl ⟨t', q, hkeep t' q hq hqp, hk, by rw [hiss]; exact hlast⟩
    · refine .inr ⟨fun t' q hq => hset t' q (hsub t' q hq), ?_⟩
      rw [hlist (hset t p hmem), hiss, heq]

theorem ordered_of_runs {s : σ} {r : ρ} {as : List (Action ω μ ε)}
    (h : Runs (step C) (InOrder C key) (start s r) as c) : Ordered key c := by
  refine h.invariant (I := Ordered key) (fun c a c' hc hG hs => ?_) (ordered_start s r)
  cases a with
  | call t o answer => exact hc.call hG hs
  | deliver t answer => exact hc.deliver hG hs

/-- In a run in order, the receiver has last heard of a settled key what was last issued for it. -/
theorem last_delivered {s : σ} {r : ρ} {as : List (Action ω μ ε)} {k : κ}
    (h : Runs (step C) (InOrder C key) (start s r) as c) (hk : Settled key c k) :
    lastOf key k c.delivered = lastOf key k c.issued := by
  rcases (ordered_of_runs h).heard k with ⟨t, p, hp, hpk, -⟩ | ⟨-, heq⟩
  · exact absurd hpk (hk t p hp)
  · exact heq

end Order

/-! ## Runs on finitely many threads -/

section Threads

def Action.thread : Action ω μ ε → ℕ
  | .call t _ _ => t
  | .deliver t _ => t

/-- Only threads below `n` have anything waiting. -/
def OnThreads (n : ℕ) (c : Config σ μ ρ) : Prop := ∀ t, n ≤ t → c.pending t = []

theorem onThreads_step {n : ℕ} {a : Action ω μ ε} (hc : OnThreads n c) (ha : a.thread < n)
    (h : step C c a = some c') : OnThreads n c' := by
  intro t ht
  cases a with
  | call t' o answer =>
    obtain ⟨-, -, -, -, -, hpend⟩ := step_call h
    have hne : t ≠ t' := by
      simp only [Action.thread] at ha
      omega
    rw [hpend, Function.update_of_ne hne]
    exact hc t ht
  | deliver t' answer =>
    obtain ⟨p, rest, -, -, -, -, -, hpend⟩ := step_deliver h
    have hne : t ≠ t' := by
      simp only [Action.thread] at ha
      omega
    rw [hpend, Function.update_of_ne hne]
    exact hc t ht

theorem onThreads_of_runs {G : Config σ μ ρ → Action ω μ ε → Prop} {n : ℕ}
    {as : List (Action ω μ ε)} (h : Runs (step C) G c as c') (hn : ∀ a ∈ as, a.thread < n)
    (hc : OnThreads n c) : OnThreads n c' := by
  induction h with
  | nil => exact hc
  | cons _ hs _ ih =>
    exact ih (fun a ha => hn a (List.mem_cons_of_mem _ ha))
      (onThreads_step hc (hn _ List.mem_cons_self) hs)

/-- Whether the threads below `n` have nothing waiting. -/
def idleOn (n : ℕ) (c : Config σ μ ρ) : Bool := (List.range n).all fun t => (c.pending t).isEmpty

theorem idle_of_idleOn {n : ℕ} (hc : OnThreads n c) (h : idleOn n c = true) (t : ℕ) :
    c.pending t = [] := by
  by_cases ht : t < n
  · simpa using List.all_eq_true.1 h t (List.mem_range.2 ht)
  · exact hc t (by omega)

/-- An evaluated run on threads below `n`, with nothing waiting at its end. -/
theorem exists_idle_run (as : List (Action ω μ ε)) {n : ℕ} {s : σ} {r : ρ}
    {p : Config σ μ ρ → Bool} (hn : ∀ a ∈ as, a.thread < n)
    (h : (exec (step C) (start s r) as).any (fun c => idleOn n c && p c) = true) :
    ∃ c, Runs (step C) Free (start s r) as c ∧ (∀ t, c.pending t = []) ∧ p c = true := by
  obtain ⟨c, hrun, hc⟩ := exists_run (step C) as h
  rw [Bool.and_eq_true] at hc
  exact ⟨c, hrun, idle_of_idleOn (onThreads_of_runs hrun hn fun _ _ => rfl) hc.1, hc.2⟩

variable [DecidableEq κ] (C)

/-- `Settled`, looking at the threads below `n` only. -/
def settledOn (key : μ → κ) (n : ℕ) (c : Config σ μ ρ) (k : κ) : Bool :=
  (List.range n).all fun t => (c.pending t).all fun p => key p.1 ≠ k

variable {key : μ → κ}

theorem settled_of_settledOn {n : ℕ} {k : κ} (hc : OnThreads n c)
    (h : settledOn key n c k = true) : Settled key c k := by
  intro t p hp
  by_cases ht : t < n
  · have := List.all_eq_true.1 (List.all_eq_true.1 h t (List.mem_range.2 ht)) p hp
    simpa using this
  · simp [hc t (by omega)] at hp

/-- `InOrder`, looking at the threads below `n` only. -/
def inOrderOn (key : μ → κ) (n : ℕ) (c : Config σ μ ρ) : Action ω μ ε → Bool
  | .call _ o _ => (C.call c.state o).2.1.all fun m => settledOn key n c (key m)
  | .deliver t _ => (c.pending t).head?.all fun p =>
      (List.range n).all fun t' => (c.pending t').all fun q => key q.1 = key p.1 → p.2 ≤ q.2

variable {C}

theorem inOrder_of_inOrderOn {n : ℕ} {a : Action ω μ ε} (hc : OnThreads n c)
    (h : inOrderOn C key n c a = true) : InOrder C key c a := by
  cases a with
  | call t o answer =>
    exact fun m hm => settled_of_settledOn hc (List.all_eq_true.1 h m hm)
  | deliver t answer =>
    intro p hp t' q hq
    by_cases ht : t' < n
    · simp only [inOrderOn, hp, Option.all_some] at h
      have hall := List.all_eq_true.1 h t' (List.mem_range.2 ht)
      exact of_decide_eq_true (List.all_eq_true.1 hall q hq)
    · simp [hc t' (by omega)] at hq

/-- An evaluated run on threads below `n` that is checked to satisfy a guard. -/
theorem exists_guarded_run {G : Config σ μ ρ → Action ω μ ε → Prop} (as : List (Action ω μ ε))
    {n : ℕ} {g : Config σ μ ρ → Action ω μ ε → Bool} {s : σ} {r : ρ}
    {p : Config σ μ ρ → Bool} (hG : ∀ c a, OnThreads n c → g c a = true → G c a)
    (hn : ∀ a ∈ as, a.thread < n)
    (h : (exec (restrict g (step C)) (start s r) as).any p = true) :
    ∃ c, Runs (step C) G (start s r) as c ∧ p c = true := by
  rcases he : exec (restrict g (step C)) (start s r) as with _ | c
  · simp [he] at h
  · exact ⟨c, runs_of_exec_restrict (I := OnThreads n) (P := fun a => a.thread < n)
      (fun _ _ _ hc ha hs => onThreads_step hc ha hs) hG (fun _ _ => rfl) hn he,
      by simpa [he] using h⟩

end Threads

end Deferred

import Mathlib.Tactic.Common

/-!
# What a computation that may fail ends in

`Yields m P`: whatever a computation over a state returns satisfies `P`; nothing is said of what it
throws. `Ensures m s Q`: what it returns or throws, run in `s`, and the state it leaves behind
satisfy `Q`. `Renders f m d s`: `d`, run in `s`, does what `m` does and returns what `f` makes of its
result. For results without a state, the errors of a sequence and of a loop are errors of one
of its steps.
-/

namespace Results

variable {ε σ : Type} {α β : Type}

section Yields

def Yields (m : ExceptT ε (StateM σ) α) (P : α → Prop) : Prop :=
  ∀ s a s', m.run.run s = (.ok a, s') → P a

variable {P : α → Prop}

theorem Yields.pure {a : α} (h : P a) : Yields (σ := σ) (ε := ε) (Pure.pure a) P := by
  intro s b s' hrun
  cases hrun
  exact h

theorem Yields.throw (e : ε) : Yields (MonadExcept.throw e : ExceptT ε (StateM σ) α) P := by
  intro s b s' hrun
  cases hrun

theorem Yields.bind_of {Q : β → Prop} {m : ExceptT ε (StateM σ) β}
    {f : β → ExceptT ε (StateM σ) α} (hm : Yields m Q) (h : ∀ b, Q b → Yields (f b) P) :
    Yields (m >>= f) P := by
  intro s a s' hrun
  change (match (m.run.run s).1 with
    | .ok b => (f b).run
    | .error e => Pure.pure (.error e)).run (m.run.run s).2 = (.ok a, s') at hrun
  rcases hb : m.run.run s with ⟨e | b, s₁⟩
  · rw [hb] at hrun
    cases hrun
  · rw [hb] at hrun
    exact h b (hm s b s₁ hb) s₁ a s' hrun

theorem Yields.bind {m : ExceptT ε (StateM σ) β} {f : β → ExceptT ε (StateM σ) α}
    (h : ∀ b, Yields (f b) P) : Yields (m >>= f) P :=
  .bind_of (Q := fun _ => True) (fun _ _ _ _ => trivial) fun b _ => h b

theorem Yields.tryCatch {m : ExceptT ε (StateM σ) α} {handler : ε → ExceptT ε (StateM σ) α}
    (h : Yields m P) (hhandler : ∀ e, Yields (handler e) P) :
    Yields (MonadExcept.tryCatch m handler) P := by
  intro s a s' hrun
  change (match (m.run.run s).1 with
    | .ok b => Pure.pure (Except.ok b)
    | .error e => (handler e).run).run (m.run.run s).2 = (.ok a, s') at hrun
  rcases hm : m.run.run s with ⟨e | b, s₁⟩
  · rw [hm] at hrun
    exact hhandler e s₁ a s' hrun
  · rw [hm] at hrun
    exact h s a s' (hm.trans hrun)

end Yields

section Run

variable {m : ExceptT ε (StateM σ) β} {f : β → ExceptT ε (StateM σ) α} {s s' : σ}

theorem run_bind_ok {b : β} (h : m.run.run s = (.ok b, s')) :
    (m >>= f).run.run s = (f b).run.run s' := by
  show (match (m.run.run s).1 with
    | .ok b => (f b).run
    | .error e => Pure.pure (.error e)).run (m.run.run s).2 = _
  rw [h]

theorem run_bind_error {e : ε} (h : m.run.run s = (.error e, s')) :
    (m >>= f).run.run s = (.error e, s') := by
  show (match (m.run.run s).1 with
    | .ok b => (f b).run
    | .error e => Pure.pure (.error e)).run (m.run.run s).2 = _
  rw [h]
  rfl

/-- A sequence goes through only if its first step does. -/
theorem of_run_bind {a : α} (h : (m >>= f).run.run s = (.ok a, s')) :
    ∃ b s₁, m.run.run s = (.ok b, s₁) ∧ (f b).run.run s₁ = (.ok a, s') := by
  rcases hrun : m.run.run s with ⟨e | b, s₁⟩
  · rw [run_bind_error hrun] at h
    cases h
  · exact ⟨b, s₁, rfl, (run_bind_ok hrun).symm.trans h⟩

/-- A loop goes through only if each of its passes does. -/
theorem of_run_forM {γ : Type*} {f : γ → ExceptT ε (StateM σ) Unit} : ∀ {l : List γ} {s s' : σ},
    (l.forM f).run.run s = (.ok (), s') →
      ∀ a ∈ l, ∃ s₁ s₂, (f a).run.run s₁ = (.ok (), s₂)
  | [], _, _, _, _, ha => absurd ha List.not_mem_nil
  | b :: l, s, _, h, a, ha => by
    obtain ⟨⟨⟩, s₁, hfirst, hrest⟩ := of_run_bind (f := fun _ => l.forM f) h
    rcases List.mem_cons.1 ha with rfl | ha
    · exact ⟨s, s₁, hfirst⟩
    · exact of_run_forM hrest a ha

theorem run_tryCatch_ok {m : ExceptT ε (StateM σ) α} {handler : ε → ExceptT ε (StateM σ) α} {a : α}
    (h : m.run.run s = (.ok a, s')) :
    (MonadExcept.tryCatch m handler).run.run s = (.ok a, s') := by
  show (match (m.run.run s).1 with
    | .ok a => Pure.pure (Except.ok a)
    | .error e => (handler e).run).run (m.run.run s).2 = _
  rw [h]
  rfl

theorem run_tryCatch_error {m : ExceptT ε (StateM σ) α} {handler : ε → ExceptT ε (StateM σ) α}
    {e : ε} (h : m.run.run s = (.error e, s')) :
    (MonadExcept.tryCatch m handler).run.run s = (handler e).run.run s' := by
  show (match (m.run.run s).1 with
    | .ok a => Pure.pure (Except.ok a)
    | .error e => (handler e).run).run (m.run.run s).2 = _
  rw [h]

/-- A loop whose every pass goes through, each in the state that the passes before it lead to. -/
theorem run_forM_ok {γ : Type*} {f : γ → ExceptT ε (StateM σ) Unit} {l : List γ}
    (after : List γ → σ)
    (h : ∀ before a rest, l = before ++ a :: rest →
      (f a).run.run (after before) = (.ok (), after (before ++ [a]))) :
    (l.forM f).run.run (after []) = (.ok (), after l) := by
  have hfrom : ∀ rest done, l = done ++ rest →
      (rest.forM f).run.run (after done) = (.ok (), after l) := by
    intro rest
    induction rest with
    | nil =>
      intro done hsplit
      rw [hsplit, List.append_nil]
      rfl
    | cons a rest ih =>
      intro done hsplit
      refine (run_bind_ok (h done a rest hsplit)).trans (ih (done ++ [a]) ?_)
      rw [hsplit, List.append_assoc]
      rfl
  exact hfrom l [] rfl

end Run

section Ensures

def Ensures (m : ExceptT ε (StateM σ) α) (s : σ) (Q : Except ε α → σ → Prop) : Prop :=
  Q (m.run.run s).1 (m.run.run s).2

variable {s : σ} {Q : Except ε α → σ → Prop}

theorem Ensures.pure {a : α} (h : Q (.ok a) s) : Ensures (Pure.pure a) s Q := h

theorem Ensures.throw {e : ε} (h : Q (.error e) s) :
    Ensures (MonadExcept.throw e : ExceptT ε (StateM σ) α) s Q := h

theorem Ensures.mono {m : ExceptT ε (StateM σ) α} {R : Except ε α → σ → Prop}
    (h : Ensures m s R) (hR : ∀ r s', R r s' → Q r s') : Ensures m s Q := hR _ _ h

/-- What is thrown first is thrown by the whole. -/
theorem Ensures.bind {m : ExceptT ε (StateM σ) β} {f : β → ExceptT ε (StateM σ) α}
    {R : Except ε β → σ → Prop} (hm : Ensures m s R)
    (herror : ∀ e s', R (.error e) s' → Q (.error e) s')
    (hok : ∀ b s', R (.ok b) s' → Ensures (f b) s' Q) : Ensures (m >>= f) s Q := by
  unfold Ensures at hm
  change Q ((match (m.run.run s).1 with
    | .ok b => (f b).run
    | .error e => Pure.pure (.error e)).run (m.run.run s).2).1
    ((match (m.run.run s).1 with
    | .ok b => (f b).run
    | .error e => Pure.pure (.error e)).run (m.run.run s).2).2
  rcases hr : m.run.run s with ⟨e | b, s'⟩
  · rw [hr] at hm
    exact herror e s' hm
  · rw [hr] at hm
    exact hok b s' hm

/-- What every step keeps, the whole keeps. -/
theorem Ensures.keeps {m : ExceptT ε (StateM σ) β} {f : β → ExceptT ε (StateM σ) α}
    {K : σ → Prop} (hm : Ensures m s fun _ => K)
    (hf : ∀ b s', K s' → Ensures (f b) s' fun _ => K) : Ensures (m >>= f) s fun _ => K :=
  hm.bind (fun _ _ h => h) hf

theorem Ensures.forM_keeps {γ : Type*} {f : γ → ExceptT ε (StateM σ) Unit} {K : σ → Prop} :
    ∀ {l : List γ}, (∀ a ∈ l, ∀ s, K s → Ensures (f a) s fun _ => K) → ∀ {s : σ}, K s →
      Ensures (l.forM f) s fun _ => K
  | [], _, _, h => h
  | a :: _, hf, s, h =>
    (hf a List.mem_cons_self s h).keeps fun _ _ h' =>
      Ensures.forM_keeps (fun b hb => hf b (List.mem_cons_of_mem a hb)) h'

theorem Ensures.tryCatch {m : ExceptT ε (StateM σ) α} {handler : ε → ExceptT ε (StateM σ) α}
    {R : Except ε α → σ → Prop} (hm : Ensures m s R) (hok : ∀ a s', R (.ok a) s' → Q (.ok a) s')
    (herror : ∀ e s', R (.error e) s' → Ensures (handler e) s' Q) :
    Ensures (MonadExcept.tryCatch m handler) s Q := by
  unfold Ensures at hm
  change Q ((match (m.run.run s).1 with
    | .ok a => Pure.pure (Except.ok a)
    | .error e => (handler e).run).run (m.run.run s).2).1
    ((match (m.run.run s).1 with
    | .ok a => Pure.pure (Except.ok a)
    | .error e => (handler e).run).run (m.run.run s).2).2
  rcases hr : m.run.run s with ⟨e | a, s'⟩
  · rw [hr] at hm
    exact herror e s' hm
  · rw [hr] at hm
    exact hok a s' hm

end Ensures

section Renders

/-- One computation does what another does and returns what `f` makes of its result. -/
def Renders (f : α → β) (m : ExceptT ε (StateM σ) α) (d : ExceptT ε (StateM σ) β) (s : σ) : Prop :=
  d.run.run s = ((m.run.run s).1.map f, (m.run.run s).2)

variable {f : α → β} {s : σ}

theorem Renders.pure (a : α) : Renders (ε := ε) f (Pure.pure a) (Pure.pure (f a)) s := rfl

theorem Renders.throw (e : ε) : Renders f (MonadExcept.throw e : ExceptT ε (StateM σ) α)
    (MonadExcept.throw e) s := rfl

/-- Both begin with the same. -/
theorem Renders.bind {γ : Type} {x : ExceptT ε (StateM σ) γ} {m : γ → ExceptT ε (StateM σ) α}
    {d : γ → ExceptT ε (StateM σ) β}
    (h : ∀ c s', x.run.run s = (.ok c, s') → Renders f (m c) (d c) s') :
    Renders f (x >>= m) (x >>= d) s := by
  unfold Renders
  rcases hx : x.run.run s with ⟨e | c, s'⟩
  · rw [run_bind_error hx, run_bind_error hx]
    rfl
  · rw [run_bind_ok hx, run_bind_ok hx]
    exact h c s' hx

end Renders

theorem ok_bind {x : Except ε β} {f : β → Except ε α} {a : α} (h : x >>= f = .ok a) :
    ∃ b, x = .ok b ∧ f b = .ok a := by
  rcases x with e | b
  · cases h
  · exact ⟨b, rfl, h⟩

theorem bind_ok {x : Except ε β} {f : β → Except ε α} {a : α} {b : β} (hx : x = .ok b)
    (hf : f b = .ok a) : x >>= f = .ok a := by
  rw [hx]
  exact hf

theorem mapError_ok {ε' : Type} {x : Except ε α} {f : ε → ε'} {a : α} (hx : x = .ok a) :
    x.mapError f = .ok a := by
  rw [hx]
  rfl

theorem of_mapError {ε' : Type} {x : Except ε α} {f : ε → ε'} {a : α}
    (h : x.mapError f = .ok a) : x = .ok a := by
  rcases x with e | b
  · cases h
  · exact congrArg Except.ok (Except.ok.inj h)

theorem of_map {x : Except ε β} {f : β → α} {a : α} (h : x.map f = .ok a) :
    ∃ b, x = .ok b ∧ f b = a := by
  rcases x with e | b
  · cases h
  · exact ⟨b, rfl, Except.ok.inj h⟩

/-! ## Loops that go through -/

/-- A loop over indices whose every pass goes through. -/
theorem foldlM_range' {m : Type → Type} [Monad m] [LawfulMonad m] {f : σ → ℕ → m σ}
    (after : ℕ → σ) {start : ℕ} : ∀ {count : ℕ},
    (∀ k, start ≤ k → k < start + count → f (after k) k = pure (after (k + 1))) →
      (List.range' start count).foldlM f (after start) = pure (after (start + count))
  | 0, _ => rfl
  | count + 1, h => by
    have hbefore : (List.range' start count).foldlM f (after start)
        = pure (after (start + count)) := foldlM_range' after fun k hk hlt => h k hk (by omega)
    rw [List.range'_concat, List.foldlM_append, hbefore, pure_bind, List.foldlM_cons, Nat.one_mul,
      h _ (by omega) (by omega), pure_bind]
    rfl

/-- A loop that collects what it reads, nothing under a key that has been read. -/
theorem foldlM_collect {γ κ : Type*} (view : γ → β) (key : β → κ)
    {f : List β → γ → Except ε (List β)} : ∀ {l : List γ} {collected : List β},
    (∀ (collected : List β), ∀ c ∈ l, key (view c) ∉ collected.map key →
      f collected c = .ok (collected ++ [view c])) →
    (collected.map key ++ l.map fun c => key (view c)).Nodup →
      l.foldlM f collected = .ok (collected ++ l.map view)
  | [], collected, _, _ => by simp; rfl
  | c :: l, collected, hf, h => by
    have hfresh : key (view c) ∉ collected.map key := fun hmem =>
      (List.nodup_append.1 h).2.2 _ hmem _ List.mem_cons_self rfl
    have hrest : ((collected ++ [view c]).map key ++ l.map fun c => key (view c)).Nodup := by
      simpa using h
    have hread := foldlM_collect view key (f := f)
      (fun collected d hd => hf collected d (List.mem_cons_of_mem c hd)) hrest
    rw [List.append_assoc] at hread
    rw [List.foldlM_cons, hf collected c List.mem_cons_self hfresh]
    exact hread

theorem forM_ok {f : α → Except ε Unit} : ∀ {l : List α}, (∀ a ∈ l, f a = .ok ()) →
    l.forM f = .ok ()
  | [], _ => rfl
  | a :: l, h => by
    show (f a >>= fun _ => l.forM f) = _
    rw [h a List.mem_cons_self]
    exact forM_ok fun b hb => h b (List.mem_cons_of_mem a hb)

section Errors

variable {P : ε → Prop}

theorem error_bind {x : Except ε β} {f : β → Except ε α} (hx : ∀ e, x = .error e → P e)
    (hf : ∀ b, x = .ok b → ∀ e, f b = .error e → P e) {e : ε} (h : x >>= f = .error e) : P e := by
  rcases x with e' | b
  · cases h
    exact hx e rfl
  · exact hf b rfl e h

theorem error_foldlM {f : β → α → Except ε β} (hf : ∀ b a e, f b a = .error e → P e) :
    ∀ (l : List α) (b : β) (e : ε), l.foldlM f b = .error e → P e
  | [], _, _, h => by cases h
  | a :: l, b, _, h =>
    error_bind (fun e he => hf b a e he) (fun b' _ e he => error_foldlM hf l b' e he) h

theorem error_forM {f : α → Except ε Unit} (hf : ∀ a e, f a = .error e → P e) :
    ∀ (l : List α) (e : ε), l.forM f = .error e → P e
  | [], _, h => by cases h
  | a :: l, _, h => error_bind (fun e he => hf a e he) (fun _ _ e he => error_forM hf l e he) h

end Errors

end Results

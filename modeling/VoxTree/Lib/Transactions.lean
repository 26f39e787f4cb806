import Mathlib.Tactic.Common

/-!
# Transactions of one writer at a time

A value on which statements are executed, each of which may fail. A writer works on a copy, which
replaces the value only when all statements of his transaction are done. Nobody else gets to write
in between, so what is committed is the outcome of the whole transaction on the value that is
replaced, and a statement that fails is one the transaction fails at on that value
(`Consistent.committed`, `Consistent.failed`).
-/

namespace Transactions

variable {σ τ ι ε : Type*}

/-- A transaction that has begun, with the copy its owner works on and the statements still to be
done. -/
structure Writer (σ τ ι : Type*) where
  owner : ι
  statements : List τ
  working : σ
  remaining : List τ

structure Shared (σ τ ι : Type*) where
  committed : σ
  writer : Option (Writer σ τ ι) := none

/-- The copy replaces the value. -/
def Writer.commit (w : Writer σ τ ι) : Shared σ τ ι := ⟨w.working, none⟩

variable (execute : τ → σ → Except ε σ)

/-- Statements one after the other, up to the first that fails. -/
def executeAll : List τ → σ → Except ε σ
  | [], value => .ok value
  | statement :: rest, value => (execute statement value).bind (executeAll rest)

section Ends

variable {execute} {value value' : σ} {statement : τ} {rest : List τ} {P : σ → Prop}

variable (execute) in
/-- The statements all succeed, and what they lead to satisfies `P`. -/
def Ends (statements : List τ) (value : σ) (P : σ → Prop) : Prop :=
  ∃ value', executeAll execute statements value = .ok value' ∧ P value'

theorem Ends.nil (h : P value) : Ends execute [] value P := ⟨value, rfl, h⟩

theorem Ends.cons (hstatement : execute statement value = .ok value')
    (h : Ends execute rest value' P) : Ends execute (statement :: rest) value P := by
  obtain ⟨last, hlast, hP⟩ := h
  refine ⟨last, ?_, hP⟩
  simp only [executeAll, hstatement]
  exact hlast

theorem Ends.mono {Q : σ → Prop} {statements : List τ} (h : Ends execute statements value P)
    (hQ : ∀ value, P value → Q value) : Ends execute statements value Q := by
  obtain ⟨value', hvalue, hP⟩ := h
  exact ⟨value', hvalue, hQ value' hP⟩

variable (execute) in
/-- A statement fails. -/
def Fails (statements : List τ) (value : σ) : Prop :=
  ∃ e, executeAll execute statements value = .error e

theorem Fails.head {e : ε} (hstatement : execute statement value = .error e) :
    Fails execute (statement :: rest) value := by
  refine ⟨e, ?_⟩
  simp only [executeAll, hstatement]
  rfl

theorem Fails.cons (hstatement : execute statement value = .ok value')
    (h : Fails execute rest value') : Fails execute (statement :: rest) value := by
  obtain ⟨e, he⟩ := h
  refine ⟨e, ?_⟩
  simp only [executeAll, hstatement]
  exact he

end Ends

namespace Shared

variable (s : Shared σ τ ι)

/-- Waits where there is a writer. -/
def begin (owner : ι) (statements : List τ) : Option (Shared σ τ ι) :=
  match s.writer with
  | some _ => none
  | none => some { s with writer := some ⟨owner, statements, s.committed, statements⟩ }

def rollback : Shared σ τ ι := { s with writer := none }

/-- The writer after a statement. -/
def work (w : Writer σ τ ι) (rest : List τ) (working : σ) : Shared σ τ ι :=
  { s with writer := some { w with working, remaining := rest } }

end Shared

/-- What is still to be done leads from the copy to where the whole transaction leads from the
value. -/
def Consistent (s : Shared σ τ ι) : Prop :=
  ∀ w, s.writer = some w →
    executeAll execute w.statements s.committed = executeAll execute w.remaining w.working

namespace Consistent

variable {execute} {s s' : Shared σ τ ι} {w : Writer σ τ ι}

theorem of_none (h : s.writer = none) : Consistent execute s := by
  intro w hw
  rw [h] at hw
  cases hw

theorem rollback : Consistent execute s.rollback := of_none rfl

theorem commit : Consistent execute w.commit := of_none rfl

theorem begin {owner : ι} {statements : List τ} (h : s.begin owner statements = some s') :
    Consistent execute s' := by
  unfold Shared.begin at h
  split at h
  · cases h
  · cases h
    intro w hw
    obtain rfl := Option.some.inj hw
    rfl

theorem work (h : Consistent execute s) (hw : s.writer = some w) {statement : τ} {rest : List τ}
    (hremaining : w.remaining = statement :: rest) {working : σ}
    (hstatement : execute statement w.working = .ok working) :
    Consistent execute (s.work w rest working) := by
  intro w' hw'
  obtain rfl := Option.some.inj hw'
  have hwhole := h w hw
  simp only [hremaining, executeAll, hstatement] at hwhole
  exact hwhole

/-- What is committed is the outcome of the whole transaction. -/
theorem committed (h : Consistent execute s) (hw : s.writer = some w) (hdone : w.remaining = []) :
    executeAll execute w.statements s.committed = .ok w.working := by
  rw [h w hw, hdone]
  rfl

/-- A statement that fails is one the whole transaction fails at. -/
theorem failed (h : Consistent execute s) (hw : s.writer = some w) {statement : τ} {rest : List τ}
    (hremaining : w.remaining = statement :: rest) {e : ε}
    (hstatement : execute statement w.working = .error e) :
    executeAll execute w.statements s.committed = .error e := by
  rw [h w hw, hremaining]
  simp only [executeAll, hstatement]
  rfl

end Consistent

end Transactions

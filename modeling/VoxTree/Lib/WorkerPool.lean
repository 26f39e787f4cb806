import VoxTree.Lib.Progress
import Mathlib.Algebra.Order.BigOperators.Group.Finset
import Mathlib.Algebra.Order.Group.Multiset
import Mathlib.Data.Fintype.BigOperators

/-!
# Workers on a bounded queue

A dispatcher accepts jobs and puts them into a queue; a job that finds the queue full it refuses.
Workers sleep on a condition variable until there is a job or the pool is closing. A call wakes one
of the sleepers, whichever the system likes, and a sleeper may also wake without a call.

No job is lost or served twice (`Inv.accounted`, `Inv.taken`), no job waits while everybody sleeps
(`Inv.awake`), and a closing pool comes to its end in a bounded number of steps, with every job
served (`length_closing`, `returned_of_stuck`, `Inv.all_served`).
-/

namespace WorkerPool

open Machine

variable {α β : Type*} {n limit : ℕ}

inductive Worker (α : Type*)
  /-- About to take the lock and to look at the queue. -/
  | ready
  | asleep
  | serving (job : α)
  | finished

inductive Dispatcher (α : Type*)
  | accepting
  /-- A job has been put into the queue, and nobody has been called yet. -/
  | notifying
  | refusing (job : α)
  /-- Accepts no more. -/
  | closing
  /-- The pool is marked as closing, and the sleepers have not been called yet. -/
  | announcing
  | joining
  | returned

structure Pool (α β : Type*) (n : ℕ) where
  queue : List α := []
  stopping : Bool := false
  dispatcher : Dispatcher α := .accepting
  workers : Fin n → Worker α := fun _ => .ready
  -- what has happened
  accepted : List α := []
  enqueued : List α := []
  refused : List α := []
  taken : List α := []
  served : List (α × β) := []

inductive Action (α β : Type*) (n : ℕ)
  | accept (job : α)
  | notifyOne (w : Fin n)
  | notifyNobody
  | refuse
  | close
  | stop
  | notifyAll
  | join
  | look (w : Fin n)
  | wake (w : Fin n)
  | finish (w : Fin n) (result : β)

namespace Worker

def isAsleep : Worker α → Bool
  | asleep => true
  | _ => false

def isFinished : Worker α → Bool
  | finished => true
  | _ => false

/-- After a call to everybody. -/
def called : Worker α → Worker α
  | asleep => ready
  | w => w

end Worker

def step (limit : ℕ) (s : Pool α β n) : Action α β n → Option (Pool α β n)
  | .accept job =>
    match s.dispatcher with
    | .accepting =>
      if s.queue.length < limit then
        some { s with
          queue := s.queue ++ [job]
          dispatcher := .notifying
          accepted := s.accepted ++ [job]
          enqueued := s.enqueued ++ [job] }
      else some { s with dispatcher := .refusing job, accepted := s.accepted ++ [job] }
    | _ => none
  | .notifyOne w =>
    match s.dispatcher with
    | .notifying =>
      if (s.workers w).isAsleep then
        some { s with
          dispatcher := .accepting
          workers := Function.update s.workers w .ready }
      else none
    | _ => none
  | .notifyNobody =>
    match s.dispatcher with
    | .notifying =>
      if ∀ w, (s.workers w).isAsleep = false then some { s with dispatcher := .accepting }
      else none
    | _ => none
  | .refuse =>
    match s.dispatcher with
    | .refusing job => some { s with dispatcher := .accepting, refused := s.refused ++ [job] }
    | _ => none
  | .close =>
    match s.dispatcher with
    | .accepting => some { s with dispatcher := .closing }
    | _ => none
  | .stop =>
    match s.dispatcher with
    | .closing => some { s with stopping := true, dispatcher := .announcing }
    | _ => none
  | .notifyAll =>
    match s.dispatcher with
    | .announcing =>
      some { s with dispatcher := .joining, workers := fun w => (s.workers w).called }
    | _ => none
  | .join =>
    match s.dispatcher with
    | .joining =>
      if ∀ w, (s.workers w).isFinished = true then some { s with dispatcher := .returned } else none
    | _ => none
  | .look w =>
    match s.workers w with
    | .ready =>
      match s.queue with
      | job :: rest =>
        some { s with
          queue := rest
          workers := Function.update s.workers w (.serving job)
          taken := s.taken ++ [job] }
      | [] =>
        if s.stopping then some { s with workers := Function.update s.workers w .finished }
        else some { s with workers := Function.update s.workers w .asleep }
    | _ => none
  | .wake w =>
    match s.workers w with
    | .asleep => some { s with workers := Function.update s.workers w .ready }
    | _ => none
  | .finish w result =>
    match s.workers w with
    | .serving job =>
      some { s with
        workers := Function.update s.workers w .ready
        served := s.served ++ [(job, result)] }
    | _ => none

/-! ## What a step does -/

/-- The steps by what they find and what they leave. -/
inductive Steps (limit : ℕ) (s : Pool α β n) : Pool α β n → Prop
  | enqueue (job : α) : s.dispatcher = .accepting → s.queue.length < limit →
      Steps limit s { s with
        queue := s.queue ++ [job]
        dispatcher := .notifying
        accepted := s.accepted ++ [job]
        enqueued := s.enqueued ++ [job] }
  | overload (job : α) : s.dispatcher = .accepting →
      Steps limit s { s with dispatcher := .refusing job, accepted := s.accepted ++ [job] }
  | notifyOne (w : Fin n) : s.dispatcher = .notifying → s.workers w = .asleep →
      Steps limit s { s with
        dispatcher := .accepting
        workers := Function.update s.workers w .ready }
  | notifyNobody : s.dispatcher = .notifying → (∀ w, s.workers w ≠ .asleep) →
      Steps limit s { s with dispatcher := .accepting }
  | refuse (job : α) : s.dispatcher = .refusing job →
      Steps limit s { s with dispatcher := .accepting, refused := s.refused ++ [job] }
  | close : s.dispatcher = .accepting → Steps limit s { s with dispatcher := .closing }
  | stop : s.dispatcher = .closing →
      Steps limit s { s with stopping := true, dispatcher := .announcing }
  | notifyAll : s.dispatcher = .announcing →
      Steps limit s { s with
        dispatcher := .joining
        workers := fun w => (s.workers w).called }
  | join : s.dispatcher = .joining → (∀ w, s.workers w = .finished) →
      Steps limit s { s with dispatcher := .returned }
  | take (w : Fin n) (job : α) (rest : List α) : s.workers w = .ready → s.queue = job :: rest →
      Steps limit s { s with
        queue := rest
        workers := Function.update s.workers w (.serving job)
        taken := s.taken ++ [job] }
  | leave (w : Fin n) : s.workers w = .ready → s.queue = [] → s.stopping = true →
      Steps limit s { s with workers := Function.update s.workers w .finished }
  | sleep (w : Fin n) : s.workers w = .ready → s.queue = [] → s.stopping = false →
      Steps limit s { s with workers := Function.update s.workers w .asleep }
  | wake (w : Fin n) : s.workers w = .asleep →
      Steps limit s { s with workers := Function.update s.workers w .ready }
  | finish (w : Fin n) (job : α) (result : β) : s.workers w = .serving job →
      Steps limit s { s with
        workers := Function.update s.workers w .ready
        served := s.served ++ [(job, result)] }

namespace Worker

theorem isAsleep_iff {w : Worker α} : w.isAsleep = true ↔ w = asleep := by
  cases w <;> simp [isAsleep]

theorem isAsleep_eq_false {w : Worker α} : w.isAsleep = false ↔ w ≠ asleep := by
  cases w <;> simp [isAsleep]

theorem isFinished_iff {w : Worker α} : w.isFinished = true ↔ w = finished := by
  cases w <;> simp [isFinished]

end Worker

theorem steps_of_step {s s' : Pool α β n} {a : Action α β n} (h : step limit s a = some s') :
    Steps limit s s' := by
  cases a with
  | accept job =>
    simp only [step] at h
    split at h
    · split_ifs at h with hroom <;> obtain rfl := Option.some.inj h
      · exact .enqueue job ‹_› hroom
      · exact .overload job ‹_›
    · cases h
  | notifyOne w =>
    simp only [step] at h
    split at h
    · split_ifs at h with hasleep
      obtain rfl := Option.some.inj h
      exact .notifyOne w ‹_› (Worker.isAsleep_iff.1 hasleep)
    · cases h
  | notifyNobody =>
    simp only [step] at h
    split at h
    · split_ifs at h with hawake
      obtain rfl := Option.some.inj h
      exact .notifyNobody ‹_› fun w => Worker.isAsleep_eq_false.1 (hawake w)
    · cases h
  | refuse =>
    simp only [step] at h
    split at h
    · obtain rfl := Option.some.inj h
      exact .refuse _ ‹_›
    · cases h
  | close =>
    simp only [step] at h
    split at h
    · obtain rfl := Option.some.inj h
      exact .close ‹_›
    · cases h
  | stop =>
    simp only [step] at h
    split at h
    · obtain rfl := Option.some.inj h
      exact .stop ‹_›
    · cases h
  | notifyAll =>
    simp only [step] at h
    split at h
    · obtain rfl := Option.some.inj h
      exact .notifyAll ‹_›
    · cases h
  | join =>
    simp only [step] at h
    split at h
    · split_ifs at h with hfinished
      obtain rfl := Option.some.inj h
      exact .join ‹_› fun w => Worker.isFinished_iff.1 (hfinished w)
    · cases h
  | look w =>
    simp only [step] at h
    split at h
    · split at h
      · obtain rfl := Option.some.inj h
        exact .take w _ _ ‹_› ‹_›
      · split_ifs at h with hstop <;> obtain rfl := Option.some.inj h
        · exact .leave w ‹_› ‹_› hstop
        · exact .sleep w ‹_› ‹_› (Bool.eq_false_of_not_eq_true hstop)
    · cases h
  | wake w =>
    simp only [step] at h
    split at h
    · obtain rfl := Option.some.inj h
      exact .wake w ‹_›
    · cases h
  | finish w result =>
    simp only [step] at h
    split at h
    · obtain rfl := Option.some.inj h
      exact .finish w _ result ‹_›
    · cases h

/-! ## What every step keeps -/

/-- The jobs a worker has in hand. -/
def Worker.holds : Worker α → Multiset α
  | .serving job => {job}
  | _ => 0

theorem Worker.holds_serving (job : α) : (Worker.serving job).holds = {job} := rfl

theorem Worker.holds_ready : (Worker.ready : Worker α).holds = 0 := rfl

/-- The jobs the dispatcher has in hand. -/
def Dispatcher.holds : Dispatcher α → Multiset α
  | .refusing job => {job}
  | _ => 0

/-- Whether a worker will look at the queue again without being called. -/
def Worker.Awake : Worker α → Prop
  | .ready => True
  | .serving _ => True
  | _ => False

/-- Whether the dispatcher has marked the pool as closing. -/
def Dispatcher.Stopped : Dispatcher α → Prop
  | .announcing => True
  | .joining => True
  | .returned => True
  | _ => False

/-- Whether the dispatcher has called everybody. -/
def Dispatcher.CalledAll : Dispatcher α → Prop
  | .joining => True
  | .returned => True
  | _ => False

section Update

variable {M : Type*} [AddCommMonoid M] (f : Worker α → M) (workers : Fin n → Worker α) {w : Fin n}

/-- The sum is the same where the change does not tell. -/
theorem sum_update_same {x : Worker α} (h : f x = f (workers w)) :
    ∑ v, f (Function.update workers w x v) = ∑ v, f (workers v) := by
  refine Finset.sum_congr rfl fun v _ => ?_
  by_cases hv : v = w
  · rw [hv, Function.update_self, h]
  · rw [Function.update_of_ne hv]

end Update

structure Inv (limit : ℕ) (s : Pool α β n) : Prop where
  bounded : s.queue.length ≤ limit
  inOrder : s.taken ++ s.queue = s.enqueued
  kept : s.enqueued.Sublist s.accepted
  accounted : (s.accepted : Multiset α) = s.enqueued + s.refused + s.dispatcher.holds
  taken : (s.taken : Multiset α) = s.served.map Prod.fst + ∑ w, (s.workers w).holds
  stopping : s.stopping = true ↔ s.dispatcher.Stopped
  finished : ∀ w, s.workers w = .finished → s.stopping = true ∧ s.queue = []
  called : s.dispatcher.CalledAll → ∀ w, s.workers w ≠ .asleep
  returned : s.dispatcher = .returned → ∀ w, s.workers w = .finished
  awake : 0 < n → s.queue ≠ [] → s.dispatcher ≠ .notifying → ∃ w, (s.workers w).Awake

theorem inv_initial : Inv limit ({} : Pool α β n) where
  bounded := Nat.zero_le _
  inOrder := rfl
  kept := .refl _
  accounted := rfl
  taken := by simp [Worker.holds]
  stopping := by simp [Dispatcher.Stopped]
  finished := by simp
  called := by simp [Dispatcher.CalledAll]
  returned := by simp
  awake := by simp

/-- What holds of all workers before one changes and of what he changes to holds of all after. -/
theorem forall_update {p : Worker α → Prop} {workers : Fin n → Worker α} {w : Fin n} {x : Worker α}
    (hx : p x) (h : ∀ v, p (workers v)) : ∀ v, p (Function.update workers w x v) := by
  intro v
  by_cases hv : v = w
  · rwa [hv, Function.update_self]
  · rw [Function.update_of_ne hv]
    exact h v

theorem exists_awake_update {workers : Fin n → Worker α} {w : Fin n} {x : Worker α}
    (hx : x.Awake) : ∃ v, (Function.update workers w x v).Awake :=
  ⟨w, by rwa [Function.update_self]⟩

namespace Inv

variable {s s' : Pool α β n}

/-- The dispatcher goes on without touching the queue, the workers or the mark. -/
theorem dispatch (h : Inv limit s) {dispatcher : Dispatcher α} {accepted refused : List α}
    (hkept : s.enqueued.Sublist accepted)
    (haccounted : (accepted : Multiset α) = s.enqueued + refused + dispatcher.holds)
    (hstopped : dispatcher.Stopped ↔ s.dispatcher.Stopped)
    (hcalled : dispatcher.CalledAll → ∀ w, s.workers w ≠ .asleep)
    (hreturned : dispatcher = .returned → ∀ w, s.workers w = .finished)
    (hawake : 0 < n → s.queue ≠ [] → dispatcher ≠ .notifying → ∃ w, (s.workers w).Awake) :
    Inv limit { s with dispatcher, accepted, refused } :=
  { h with
    kept := hkept
    accounted := haccounted
    stopping := h.stopping.trans hstopped.symm
    called := hcalled
    returned := hreturned
    awake := hawake }

theorem enqueue (h : Inv limit s) {job : α} (haccepting : s.dispatcher = .accepting)
    (hroom : s.queue.length < limit) :
    Inv limit { s with
      queue := s.queue ++ [job]
      dispatcher := .notifying
      accepted := s.accepted ++ [job]
      enqueued := s.enqueued ++ [job] } := by
  have haccounted := h.accounted
  have hstopping := h.stopping
  rw [haccepting] at haccounted hstopping
  exact {
    bounded := by
      rw [List.length_append, List.length_singleton]
      omega
    inOrder := by rw [← List.append_assoc, h.inOrder]
    kept := h.kept.append (.refl _)
    accounted := by
      simp only [← Multiset.coe_add, haccounted, Dispatcher.holds]
      abel
    taken := h.taken
    stopping := hstopping
    finished := fun w hw => absurd (hstopping.1 (h.finished w hw).1) (by simp [Dispatcher.Stopped])
    called := by simp [Dispatcher.CalledAll]
    returned := by simp
    awake := fun _ _ hnotifying => absurd rfl hnotifying }

theorem overload (h : Inv limit s) {job : α} (haccepting : s.dispatcher = .accepting) :
    Inv limit { s with dispatcher := .refusing job, accepted := s.accepted ++ [job] } := by
  have haccounted := h.accounted
  rw [haccepting] at haccounted
  refine h.dispatch (h.kept.trans (List.sublist_append_left _ _)) ?_ (by simp [haccepting,
    Dispatcher.Stopped]) (by simp [Dispatcher.CalledAll]) (by simp)
    fun hn hqueue _ => h.awake hn hqueue (by simp [haccepting])
  simp only [← Multiset.coe_add, haccounted, Dispatcher.holds, add_zero]
  rfl

theorem refuse (h : Inv limit s) {job : α} (hrefusing : s.dispatcher = .refusing job) :
    Inv limit { s with dispatcher := .accepting, refused := s.refused ++ [job] } := by
  have haccounted := h.accounted
  rw [hrefusing] at haccounted
  refine h.dispatch h.kept ?_ (by simp [hrefusing, Dispatcher.Stopped])
    (by simp [Dispatcher.CalledAll]) (by simp)
    fun hn hqueue _ => h.awake hn hqueue (by simp [hrefusing])
  simp only [← Multiset.coe_add, haccounted, Dispatcher.holds, add_zero]
  rw [add_assoc]
  rfl

theorem close (h : Inv limit s) (haccepting : s.dispatcher = .accepting) :
    Inv limit { s with dispatcher := .closing } := by
  have haccounted := h.accounted
  rw [haccepting] at haccounted
  exact h.dispatch h.kept haccounted (by simp [haccepting, Dispatcher.Stopped])
    (by simp [Dispatcher.CalledAll]) (by simp)
    fun hn hqueue _ => h.awake hn hqueue (by simp [haccepting])

/-- Nobody sleeps when nobody is called, and nobody has left, for the pool is not closing. -/
theorem notifyNobody (h : Inv limit s) (hnotifying : s.dispatcher = .notifying)
    (hawake : ∀ w, s.workers w ≠ .asleep) : Inv limit { s with dispatcher := .accepting } := by
  have haccounted := h.accounted
  have hstopping := h.stopping
  rw [hnotifying] at haccounted hstopping
  refine h.dispatch h.kept haccounted (by simp [hnotifying, Dispatcher.Stopped])
    (by simp [Dispatcher.CalledAll]) (by simp) fun hn _ _ => ⟨⟨0, hn⟩, ?_⟩
  rcases hw : s.workers ⟨0, hn⟩ with _ | _ | job | _
  · trivial
  · exact absurd hw (hawake _)
  · trivial
  · exact absurd (hstopping.1 (h.finished _ hw).1) (by simp [Dispatcher.Stopped])

theorem stop (h : Inv limit s) (hclosing : s.dispatcher = .closing) :
    Inv limit { s with stopping := true, dispatcher := .announcing } := by
  have haccounted := h.accounted
  rw [hclosing] at haccounted
  exact { h with
    accounted := haccounted
    stopping := by simp [Dispatcher.Stopped]
    finished := fun w hw => ⟨rfl, (h.finished w hw).2⟩
    called := by simp [Dispatcher.CalledAll]
    returned := by simp
    awake := fun hn hqueue _ => h.awake hn hqueue (by simp [hclosing]) }

theorem join (h : Inv limit s) (hjoining : s.dispatcher = .joining)
    (hfinished : ∀ w, s.workers w = .finished) : Inv limit { s with dispatcher := .returned } := by
  have haccounted := h.accounted
  rw [hjoining] at haccounted
  exact h.dispatch h.kept haccounted (by simp [hjoining, Dispatcher.Stopped])
    (fun _ w => by simp [hfinished w]) (fun _ => hfinished)
    fun hn hqueue _ => h.awake hn hqueue (by simp [hjoining])

theorem notifyAll (h : Inv limit s) (hannouncing : s.dispatcher = .announcing) :
    Inv limit { s with dispatcher := .joining, workers := fun w => (s.workers w).called } := by
  have haccounted := h.accounted
  rw [hannouncing] at haccounted
  have hholds : ∀ w : Worker α, w.called.holds = w.holds := fun w => by cases w <;> rfl
  have hasleep : ∀ w : Worker α, w.called ≠ .asleep := fun w => by cases w <;> simp [Worker.called]
  have hfinished : ∀ w : Worker α, w.called = .finished → w = .finished := fun w => by
    cases w <;> simp [Worker.called]
  have hawake : ∀ w : Worker α, w.Awake → w.called.Awake := fun w => by
    cases w <;> simp [Worker.called, Worker.Awake]
  exact { h with
    accounted := haccounted
    taken := by
      simp only [hholds]
      exact h.taken
    stopping := by simpa [hannouncing, Dispatcher.Stopped] using h.stopping
    finished := fun w hw => h.finished w (hfinished _ hw)
    called := fun _ w => hasleep _
    returned := by simp
    awake := fun hn hqueue _ => by
      obtain ⟨w, hw⟩ := h.awake hn hqueue (by simp [hannouncing])
      exact ⟨w, hawake _ hw⟩ }

/-- A worker goes on without touching the queue. -/
theorem work (h : Inv limit s) {w : Fin n} {x : Worker α} {taken : List α} {served : List (α × β)}
    (hinOrder : taken = s.taken)
    (htaken : (taken : Multiset α)
      = served.map Prod.fst + ∑ v, (Function.update s.workers w x v).holds)
    (hfinished : x = .finished → s.stopping = true ∧ s.queue = [])
    (hcalled : s.dispatcher.CalledAll → x ≠ .asleep)
    (hreturned : s.dispatcher = .returned → x = .finished)
    (hawake : x.Awake ∨ s.queue = []) :
    Inv limit { s with workers := Function.update s.workers w x, taken, served } :=
  { h with
    inOrder := hinOrder ▸ h.inOrder
    taken := htaken
    finished := forall_update (p := fun y => y = .finished → s.stopping = true ∧ s.queue = [])
      hfinished h.finished
    called := fun hall => forall_update (p := (· ≠ .asleep)) (hcalled hall) (h.called hall)
    returned := fun hall => forall_update (p := (· = .finished)) (hreturned hall) (h.returned hall)
    awake := fun _ hqueue _ => exists_awake_update (hawake.resolve_right hqueue) }

/-- A worker that holds nothing before and after. -/
theorem idle (h : Inv limit s) {w : Fin n} {x : Worker α} (hbefore : (s.workers w).holds = 0)
    (hafter : x.holds = 0) :
    (s.taken : Multiset α) = s.served.map Prod.fst + ∑ v, (Function.update s.workers w x v).holds := by
  rw [sum_update_same Worker.holds s.workers (hafter.trans hbefore.symm)]
  exact h.taken

theorem not_returned (h : Inv limit s) (w : Fin n) (hw : s.workers w ≠ .finished) :
    s.dispatcher ≠ .returned :=
  fun hreturned => hw (h.returned hreturned w)

theorem wake (h : Inv limit s) {w : Fin n} (hasleep : s.workers w = .asleep) :
    Inv limit { s with workers := Function.update s.workers w .ready } :=
  h.work rfl (h.idle (by rw [hasleep]; rfl) rfl) (by simp) (by simp)
    (fun hreturned => absurd hreturned (h.not_returned w (by simp [hasleep]))) (.inl trivial)

theorem sleep (h : Inv limit s) {w : Fin n} (hready : s.workers w = .ready) (hqueue : s.queue = [])
    (hstopping : s.stopping = false) :
    Inv limit { s with workers := Function.update s.workers w .asleep } := by
  have hstopped : ¬s.dispatcher.Stopped := fun hstopped => by
    simp [h.stopping.2 hstopped] at hstopping
  refine h.work rfl (h.idle (by rw [hready]; rfl) rfl) (by simp) (fun hcalled => ?_)
    (fun hreturned => absurd hreturned (h.not_returned w (by simp [hready]))) (.inr hqueue)
  cases hdispatcher : s.dispatcher <;> simp_all [Dispatcher.CalledAll, Dispatcher.Stopped]

theorem leave (h : Inv limit s) {w : Fin n} (hready : s.workers w = .ready) (hqueue : s.queue = [])
    (hstopping : s.stopping = true) :
    Inv limit { s with workers := Function.update s.workers w .finished } :=
  h.work rfl (h.idle (by rw [hready]; rfl) rfl) (fun _ => ⟨hstopping, hqueue⟩) (by simp)
    (fun _ => rfl) (.inr hqueue)

theorem finish (h : Inv limit s) {w : Fin n} {job : α} {result : β}
    (hserving : s.workers w = .serving job) :
    Inv limit { s with
      workers := Function.update s.workers w .ready
      served := s.served ++ [(job, result)] } := by
  refine h.work rfl ?_ (by simp) (by simp)
    (fun hreturned => absurd hreturned (h.not_returned w (by simp [hserving]))) (.inl trivial)
  have hsum := Progress.sum_update Worker.holds s.workers w .ready
  rw [hserving, Worker.holds_serving, Worker.holds_ready, add_zero] at hsum
  rw [h.taken, ← hsum, List.map_append, ← Multiset.coe_add, add_assoc, List.map_singleton,
    Multiset.coe_singleton]
  exact congrArg _ (add_comm _ _)

theorem take (h : Inv limit s) {w : Fin n} {job : α} {rest : List α}
    (hready : s.workers w = .ready) (hqueue : s.queue = job :: rest) :
    Inv limit { s with
      queue := rest
      workers := Function.update s.workers w (.serving job)
      taken := s.taken ++ [job] } := by
  have hbounded := h.bounded
  have hinOrder := h.inOrder
  rw [hqueue] at hbounded hinOrder
  have hleft : ∀ v, s.workers v ≠ .finished := fun v hv => by
    simp [(h.finished v hv).2] at hqueue
  have hsum := Progress.sum_update Worker.holds s.workers w (.serving job)
  rw [hready, Worker.holds_serving, Worker.holds_ready, add_zero] at hsum
  exact { h with
    bounded := by
      rw [List.length_cons] at hbounded
      exact (Nat.le_succ _).trans hbounded
    inOrder := by simpa using hinOrder
    taken := by
      rw [← Multiset.coe_add, h.taken, add_assoc, Multiset.coe_singleton, ← hsum]
    finished := fun v hv => by
      refine absurd hv (forall_update (p := (· ≠ .finished)) (by simp) hleft v)
    called := fun hall => forall_update (p := (· ≠ .asleep)) (by simp) (h.called hall)
    returned := fun hreturned => absurd (h.returned hreturned w) (hleft w)
    awake := fun _ _ _ => exists_awake_update trivial }

theorem notifyOne (h : Inv limit s) {w : Fin n} (hnotifying : s.dispatcher = .notifying)
    (hasleep : s.workers w = .asleep) :
    Inv limit { s with
      dispatcher := .accepting
      workers := Function.update s.workers w .ready } := by
  have haccounted := h.accounted
  rw [hnotifying] at haccounted
  exact (h.wake hasleep).dispatch h.kept haccounted (by simp [hnotifying, Dispatcher.Stopped])
    (by simp [Dispatcher.CalledAll]) (by simp) fun _ _ _ => exists_awake_update trivial

theorem step {a : Action α β n} (h : Inv limit s) (hstep : step limit s a = some s') :
    Inv limit s' := by
  cases steps_of_step hstep with
  | enqueue job haccepting hroom => exact h.enqueue haccepting hroom
  | overload job haccepting => exact h.overload haccepting
  | notifyOne w hnotifying hasleep => exact h.notifyOne hnotifying hasleep
  | notifyNobody hnotifying hawake => exact h.notifyNobody hnotifying hawake
  | refuse job hrefusing => exact h.refuse hrefusing
  | close haccepting => exact h.close haccepting
  | stop hclosing => exact h.stop hclosing
  | notifyAll hannouncing => exact h.notifyAll hannouncing
  | join hjoining hfinished => exact h.join hjoining hfinished
  | take w job rest hready hqueue => exact h.take hready hqueue
  | leave w hready hqueue hstopping => exact h.leave hready hqueue hstopping
  | sleep w hready hqueue hstopping => exact h.sleep hready hqueue hstopping
  | wake w hasleep => exact h.wake hasleep
  | finish w job result hserving => exact h.finish hserving

end Inv

theorem inv_run {s : Pool α β n} {as : List (Action α β n)}
    (h : Runs (step limit) Free {} as s) : Inv limit s :=
  h.invariant (fun _ _ _ hs _ hstep => hs.step hstep) inv_initial

/-! ## The end of a closing pool -/

/-- The steps a worker may take before it looks at an empty queue and leaves. -/
def Worker.weight : Worker α → ℕ
  | .ready => 1
  | .asleep => 2
  | .serving _ => 2
  | .finished => 0

def Dispatcher.weight : Dispatcher α → ℕ
  | .announcing => 2
  | .joining => 1
  | _ => 0

/-- A bound for the steps a closing pool may still take. -/
def Pool.weight (s : Pool α β n) : ℕ :=
  2 * s.queue.length + ∑ w, (s.workers w).weight + s.dispatcher.weight

variable {s s' : Pool α β n}

theorem Worker.weight_called (w : Worker α) : w.called.weight ≤ w.weight := by
  cases w <;> simp [called, weight]

theorem sum_weight_lt {w : Fin n} {x : Worker α} (h : x.weight < (s.workers w).weight) :
    ∑ v, (Function.update s.workers w x v).weight < ∑ v, (s.workers v).weight := by
  have hsum := Progress.sum_update Worker.weight s.workers w x
  omega

theorem sum_weight_le_succ {w : Fin n} {x : Worker α} (h : x.weight ≤ (s.workers w).weight + 1) :
    ∑ v, (Function.update s.workers w x v).weight ≤ ∑ v, (s.workers v).weight + 1 := by
  have hsum := Progress.sum_update Worker.weight s.workers w x
  omega

/-- No step opens a closing pool again or accepts a job, and each brings it nearer to its end. -/
theorem Inv.weight_step (h : Inv limit s) (hstopping : s.stopping = true) {a : Action α β n}
    (hstep : WorkerPool.step limit s a = some s') :
    s'.stopping = true ∧ s'.accepted = s.accepted ∧ s'.weight < s.weight := by
  have hstopped := h.stopping.1 hstopping
  unfold Pool.weight
  cases steps_of_step hstep with
  | enqueue job haccepting hroom => simp [haccepting, Dispatcher.Stopped] at hstopped
  | overload job haccepting => simp [haccepting, Dispatcher.Stopped] at hstopped
  | notifyOne w hnotifying hasleep => simp [hnotifying, Dispatcher.Stopped] at hstopped
  | notifyNobody hnotifying hawake => simp [hnotifying, Dispatcher.Stopped] at hstopped
  | refuse job hrefusing => simp [hrefusing, Dispatcher.Stopped] at hstopped
  | close haccepting => simp [haccepting, Dispatcher.Stopped] at hstopped
  | stop hclosing => simp [hclosing, Dispatcher.Stopped] at hstopped
  | notifyAll hannouncing =>
    have hsum : ∑ w, (s.workers w).called.weight ≤ ∑ w, (s.workers w).weight :=
      Finset.sum_le_sum fun w _ => (s.workers w).weight_called
    refine ⟨hstopping, rfl, ?_⟩
    simp only [hannouncing, Dispatcher.weight]
    omega
  | join hjoining hfinished =>
    refine ⟨hstopping, rfl, ?_⟩
    simp only [hjoining, Dispatcher.weight]
    omega
  | take w job rest hready hqueue =>
    have hsum := sum_weight_le_succ (s := s) (w := w) (x := .serving job)
      (by simp [hready, Worker.weight])
    refine ⟨hstopping, rfl, ?_⟩
    simp only [hqueue, List.length_cons]
    omega
  | leave w hready hqueue hstop =>
    have hsum := sum_weight_lt (s := s) (w := w) (x := .finished) (by simp [hready, Worker.weight])
    exact ⟨hstopping, rfl, Nat.add_lt_add_right (Nat.add_lt_add_left hsum _) _⟩
  | sleep w hready hqueue hopen => simp [hopen] at hstopping
  | wake w hasleep =>
    have hsum := sum_weight_lt (s := s) (w := w) (x := .ready) (by simp [hasleep, Worker.weight])
    exact ⟨hstopping, rfl, Nat.add_lt_add_right (Nat.add_lt_add_left hsum _) _⟩
  | finish w job result hserving =>
    have hsum := sum_weight_lt (s := s) (w := w) (x := .ready) (by simp [hserving, Worker.weight])
    exact ⟨hstopping, rfl, Nat.add_lt_add_right (Nat.add_lt_add_left hsum _) _⟩

/-- A closing pool accepts nothing and takes no more steps than its weight. -/
theorem length_closing {as : List (Action α β n)} (hrun : Runs (WorkerPool.step limit) Free s as s') :
    Inv limit s → s.stopping = true →
      s'.accepted = s.accepted ∧ s'.stopping = true ∧ s'.weight + as.length ≤ s.weight := by
  induction hrun with
  | nil s => exact fun _ hstopping => ⟨rfl, hstopping, le_refl _⟩
  | cons _ hstep _ ih =>
    intro h hstopping
    obtain ⟨hstopping₁, haccepted, hweight⟩ := h.weight_step hstopping hstep
    obtain ⟨haccepted', hstopping', hrest⟩ := ih (h.step hstep) hstopping₁
    refine ⟨haccepted'.trans haccepted, hstopping', ?_⟩
    rw [List.length_cons]
    omega

/-- Two steps a waiting job, two a worker and two of the dispatcher. -/
theorem Inv.weight_le (h : Inv limit s) : s.weight ≤ 2 * limit + 2 * n + 2 := by
  have hworker : ∀ w : Worker α, w.weight ≤ 2 := fun w => by cases w <;> simp [Worker.weight]
  have hdispatcher : s.dispatcher.weight ≤ 2 := by
    cases s.dispatcher <;> simp [Dispatcher.weight]
  have hsum : ∑ w, (s.workers w).weight ≤ n * 2 := by
    simpa using Finset.sum_le_card_nsmul Finset.univ (fun w => (s.workers w).weight) 2
      fun w _ => hworker _
  have hbounded := h.bounded
  unfold Pool.weight
  omega

/-- A closing pool stands still only when its dispatcher has returned. -/
theorem Inv.returned_of_stuck [Nonempty β] (h : Inv limit s) (hstopping : s.stopping = true)
    (hstuck : ∀ a : Action α β n, WorkerPool.step limit s a = none) : s.dispatcher = .returned := by
  have hstopped := h.stopping.1 hstopping
  have hworkers : s.dispatcher = .joining → ∀ w, s.workers w = .finished := by
    intro hjoining w
    have hlook := hstuck (.look w)
    have hfinish := hstuck (.finish w (Classical.arbitrary β))
    have hcalled := h.called (by simp [hjoining, Dispatcher.CalledAll]) w
    rcases hw : s.workers w with _ | _ | job | _
    · rcases hqueue : s.queue with _ | ⟨job, rest⟩ <;>
        simp [WorkerPool.step, hw, hqueue, hstopping] at hlook
    · exact absurd hw hcalled
    · simp [WorkerPool.step, hw] at hfinish
    · rfl
  rcases hdispatcher : s.dispatcher with _ | _ | _ | _ | _ | _ | _
  · simp [hdispatcher, Dispatcher.Stopped] at hstopped
  · simp [hdispatcher, Dispatcher.Stopped] at hstopped
  · simp [hdispatcher, Dispatcher.Stopped] at hstopped
  · simp [hdispatcher, Dispatcher.Stopped] at hstopped
  · have hnotifyAll := hstuck .notifyAll
    simp [WorkerPool.step, hdispatcher] at hnotifyAll
  · have hjoin := hstuck .join
    have hfinished : ∀ w, (s.workers w).isFinished = true := fun w =>
      Worker.isFinished_iff.2 (hworkers hdispatcher w)
    simp [WorkerPool.step, hdispatcher, hfinished] at hjoin
  · rfl

/-- When the dispatcher has returned, every job it accepted has been refused or served. -/
theorem Inv.all_served (h : Inv limit s) (hn : 0 < n) (hreturned : s.dispatcher = .returned) :
    s.queue = [] ∧ s.taken = s.enqueued
      ∧ (s.accepted : Multiset α) = s.refused + s.served.map Prod.fst := by
  have hfinished := h.returned hreturned
  have hqueue := (h.finished ⟨0, hn⟩ (hfinished _)).2
  have horder := h.inOrder
  rw [hqueue, List.append_nil] at horder
  have hholds : ∑ w, (s.workers w).holds = 0 :=
    Finset.sum_eq_zero fun w _ => by rw [hfinished w]; rfl
  have htaken := h.taken
  rw [hholds, add_zero] at htaken
  have haccounted := h.accounted
  rw [hreturned] at haccounted
  refine ⟨hqueue, horder, ?_⟩
  rw [haccounted, ← horder, htaken, add_comm (s.refused : Multiset α)]
  exact add_zero _

end WorkerPool

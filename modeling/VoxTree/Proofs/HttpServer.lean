import VoxTree.HttpServer

/-!
# The server under any schedule

Whatever the scheduler and the condition variable do, an accepted connection is answered once, and
after a shutdown the server comes to its end with every accepted connection answered
(`server_orderly`, `shutdown_answers_all`).
-/

namespace VoxTree.LinuxHttpServer

open Machine WorkerPool

variable {options : LinuxHttpServerOptions}

structure Orderly (s : Server options) : Prop where
  queue : s.queue.length ≤ options.maximumQueuedConnections
  /-- The workers take connections in the order of their arrival. -/
  order : (s.taken ++ s.queue).Sublist s.accepted
  /-- Every accepted connection is answered, in the hands of a worker or of the accept loop, or in
  the queue, and only in one of these places. -/
  once : (s.accepted : Multiset Connection) = (s.answers.map Prod.fst : Multiset Connection)
    + ∑ w, (s.workers w).holds + s.queue + s.dispatcher.holds
  /-- While a connection waits and nobody is about to be called, a worker is awake. -/
  awake : s.queue ≠ [] → s.dispatcher ≠ .notifying → ∃ w, (s.workers w).Awake

theorem workerCount_pos (h : checkOptions options = .ok ()) : 0 < options.workerCount := by
  unfold checkOptions at h
  split_ifs at h with hzero
  exact Nat.pos_of_ne_zero fun heq => hzero (.inl heq)

theorem answers_fst (s : Server options) : (s.answers.map Prod.fst : Multiset Connection)
    = s.refused + s.served.map Prod.fst := by
  simp [Server.answers, Function.comp_def]

/-- No connection is lost, answered twice or left waiting while everybody sleeps. -/
theorem server_orderly (hoptions : checkOptions options = .ok ())
    {actions : List (ServerAction options)} {s : Server options}
    (h : Runs (serverStep options) Free {} actions s) : Orderly s := by
  have hinv := inv_run h
  refine ⟨hinv.bounded, hinv.inOrder ▸ hinv.kept, ?_, hinv.awake (workerCount_pos hoptions)⟩
  rw [answers_fst, hinv.accounted, ← hinv.inOrder, ← Multiset.coe_add, hinv.taken]
  abel

/-- However the threads go on after the server is told to stop, it accepts nothing, takes a bounded
number of steps and stands still only when it has returned and every connection is answered. -/
theorem shutdown_answers_all (hoptions : checkOptions options = .ok ())
    {actions actions' : List (ServerAction options)} {s s' : Server options}
    (h : Runs (serverStep options) Free {} actions s) (hstopping : s.stopping = true)
    (h' : Runs (serverStep options) Free s actions' s') :
    actions'.length ≤ 2 * options.maximumQueuedConnections + 2 * options.workerCount + 2
      ∧ s'.accepted = s.accepted
      ∧ ((∀ action, serverStep options s' action = none) → s'.dispatcher = .returned
        ∧ (s'.answers.map Prod.fst).Perm s'.accepted) := by
  have hinv := inv_run h
  obtain ⟨haccepted, hstopping', hlength⟩ := length_closing h' hinv hstopping
  have hinv' : Inv options.maximumQueuedConnections s' :=
    h'.invariant (fun _ _ _ hs _ hstep => hs.step hstep) hinv
  have hweight := hinv.weight_le
  refine ⟨by omega, haccepted, fun hstuck => ?_⟩
  have hreturned := hinv'.returned_of_stuck hstopping' hstuck
  obtain ⟨-, -, hall⟩ := hinv'.all_served (workerCount_pos hoptions) hreturned
  refine ⟨hreturned, Multiset.coe_eq_coe.1 ?_⟩
  rw [answers_fst, hall]

section Samples

def oneWorker : LinuxHttpServerOptions where
  workerCount := 1
  maximumQueuedConnections := 1

def worker : Fin oneWorker.workerCount := ⟨0, Nat.one_pos⟩

def silent : Connection := ⟨[], .closed⟩

/-- The worker is busy with the first connection, the second one waits, and the third one is
refused. -/
def threeClients : List (ServerAction oneWorker) :=
  [.accept silent, .notifyNobody, .look worker, .accept silent, .notifyNobody, .accept silent,
    .refuse, .close, .stop]

/-- What is left to do after the mark. -/
def drained : List (ServerAction oneWorker) :=
  [.notifyAll, .finish worker fun _ => none, .look worker, .finish worker fun _ => none,
    .look worker, .join]

theorem server_orderly_threeClients : ∃ s, Runs (serverStep oneWorker) Free {} threeClients s
    ∧ s.refused.length = 1 ∧ Orderly s := by
  have hexec : (exec (serverStep oneWorker) {} threeClients).any
      (fun s => s.refused.length == 1) = true := rfl
  obtain ⟨s, hrun, hrefused⟩ := exists_run _ _ hexec
  exact ⟨s, hrun, by simpa using hrefused, server_orderly rfl hrun⟩

theorem shutdown_answers_all_drained : ∃ s s', Runs (serverStep oneWorker) Free {} threeClients s
    ∧ Runs (serverStep oneWorker) Free s drained s' ∧ drained.length ≤ 6 := by
  have hexec : (exec (serverStep oneWorker) {} threeClients).any
      (fun s => s.stopping && (exec (serverStep oneWorker) s drained).isSome) = true := rfl
  obtain ⟨s, hrun, hstopping⟩ := exists_run _ _ hexec
  simp only [Bool.and_eq_true, Option.isSome_iff_exists] at hstopping
  obtain ⟨hstopping, s', hdrain⟩ := hstopping
  have hdrained := runs_of_exec hdrain
  exact ⟨s, s', hrun, hdrained, (shutdown_answers_all rfl hrun hstopping hdrained).1⟩

end Samples

end VoxTree.LinuxHttpServer

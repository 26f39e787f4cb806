import Mathlib.Algebra.Order.Group.Int
import VoxTree.Lib.SlidingWindow
import VoxTree.RateLimiter

/-!
# What the rate limiter accepts

The queue of one player and action sees only that player's calls for the action, and what it
answers them is the sliding window over those it accepted, as long as the start of the window is a
64-bit time.
-/

namespace VoxTree

namespace RequestHistory

variable (history : RequestHistory) (requests : List TimePoint)

@[simp] theorem requests_set (a : TransmissionRateLimitAction) :
    (history.set requests a).requests a = requests := by
  cases a <;> rfl

theorem requests_set_of_ne {a b : TransmissionRateLimitAction} (h : a ≠ b) :
    (history.set requests a).requests b = history.requests b := by
  cases a <;> cases b <;> first | rfl | exact absurd rfl h

end RequestHistory

theorem discardExpiredRequests_eq (requests : List TimePoint) (now : TimePoint)
    (window : Milliseconds) :
    discardExpiredRequests requests now window
      = SlidingWindow.inside (oldestAllowed window) requests now := by
  induction requests with
  | nil => rfl
  | cons front requests ih =>
    unfold discardExpiredRequests SlidingWindow.inside
    by_cases h : front ≤ oldestAllowed window now
    · rw [if_pos h, List.dropWhile_cons_of_pos (by simpa using h), ih]
      rfl
    · rw [if_neg h, List.dropWhile_cons_of_neg (by simpa using h)]

namespace InMemoryTransmissionRateLimiter

variable (limiter : InMemoryTransmissionRateLimiter) (p : PlayerId)
  (a : TransmissionRateLimitAction)

/-- The queue of one player and action. -/
def queue : List TimePoint := (limiter.history p).requests a

/-- The start of an action's window. -/
def bound : TimePoint → TimePoint := oldestAllowed (limiter.limit a).window

theorem allow_eq (now : TimePoint) :
    limiter.allow p a now
      = ((SlidingWindow.accept (limiter.limit a).maximumRequests (limiter.bound a)
          (limiter.queue p a) now).1,
        { limiter with
          histories := limiter.histories.insert p
            ((limiter.history p).set (SlidingWindow.accept (limiter.limit a).maximumRequests
              (limiter.bound a) (limiter.queue p a) now).2 a) }) := by
  unfold allow SlidingWindow.accept
  simp only [discardExpiredRequests_eq]
  show (if _ ≤ (SlidingWindow.inside (limiter.bound a) (limiter.queue p a) now).length then _
    else _) = _
  rcases Nat.lt_or_ge (SlidingWindow.inside (limiter.bound a) (limiter.queue p a) now).length
    (limiter.limit a).maximumRequests with h | h
  · rw [if_neg (Nat.not_le.2 h), if_pos h]
    rfl
  · rw [if_pos h, if_neg (Nat.not_lt.2 h)]
    rfl

theorem allow_fst (now : TimePoint) :
    (limiter.allow p a now).1
      = (SlidingWindow.accept (limiter.limit a).maximumRequests (limiter.bound a)
          (limiter.queue p a) now).1 := by
  rw [allow_eq]

theorem allow_history (now : TimePoint) :
    (limiter.allow p a now).2.history p
      = (limiter.history p).set (SlidingWindow.accept (limiter.limit a).maximumRequests
          (limiter.bound a) (limiter.queue p a) now).2 a := by
  rw [allow_eq]
  simp [history]

theorem allow_history_of_ne {q : PlayerId} (h : q ≠ p) (now : TimePoint) :
    (limiter.allow q a now).2.history p = limiter.history p := by
  have hcmp : ¬compare q p = .eq := fun hc => h (Std.LawfulEqOrd.eq_of_compare hc)
  rw [allow_eq]
  simp [history, Std.ExtTreeMap.getElem?_insert, hcmp]

@[simp] theorem allow_limit (now : TimePoint) (b : TransmissionRateLimitAction) :
    (limiter.allow p a now).2.limit b = limiter.limit b := by
  rw [allow_eq]
  rfl

@[simp] theorem allow_bound (now : TimePoint) (b : TransmissionRateLimitAction) :
    (limiter.allow p a now).2.bound b = limiter.bound b := by simp [bound]

/-- A call moves the queue of its own player and action as the window does. -/
theorem allow_queue_self (now : TimePoint) :
    (limiter.allow p a now).2.queue p a
      = (SlidingWindow.accept (limiter.limit a).maximumRequests (limiter.bound a)
          (limiter.queue p a) now).2 := by
  show ((limiter.allow p a now).2.history p).requests a = _
  rw [allow_history, RequestHistory.requests_set]

/-- A call leaves the other queues as they are. -/
theorem allow_queue_of_ne {r : Request} (h : r.isOf p a = false) :
    (limiter.allow r.playerId r.action r.now).2.queue p a = limiter.queue p a := by
  show ((limiter.allow r.playerId r.action r.now).2.history p).requests a = _
  by_cases hp : r.playerId = p
  · have ha : r.action ≠ a := by simpa [Request.isOf, hp] using h
    rw [hp, allow_history, RequestHistory.requests_set_of_ne _ _ ha]
    rfl
  · rw [allow_history_of_ne _ _ _ hp]
    rfl

theorem isOf_iff {r : Request} : r.isOf p a = true ↔ r.playerId = p ∧ r.action = a := by
  simp [Request.isOf]

/-- The answers to one player's calls for an action are those of a window that is asked nothing
else. -/
theorem answers_isOf (requests : List Request) :
    ((limiter.answers requests).filter fun e => e.1.isOf p a).map (fun e => (e.1.now, e.2))
      = SlidingWindow.record (limiter.limit a).maximumRequests (limiter.bound a)
          (limiter.queue p a) ((requests.filter (Request.isOf p a)).map Request.now) := by
  induction requests generalizing limiter with
  | nil => rfl
  | cons r later ih =>
    have ih := ih (limiter.allow r.playerId r.action r.now).2
    rw [allow_limit, allow_bound] at ih
    unfold answers
    rcases h : r.isOf p a with _ | _
    · rw [List.filter_cons_of_neg (by simp [h]), List.filter_cons_of_neg (by simp [h]), ih,
        allow_queue_of_ne _ _ _ h]
    · rw [List.filter_cons_of_pos h, List.filter_cons_of_pos (by simp [h]), List.map_cons, ih]
      obtain ⟨rfl, rfl⟩ := (isOf_iff p a).1 h
      rw [allow_queue_self, allow_fst]
      rfl

/-- The answers to one player's calls for an action depend on the limit and the queue only, so a
limiter that is asked nothing else gives the same. -/
theorem answers_filter (alone : InMemoryTransmissionRateLimiter)
    (hlimit : alone.limit a = limiter.limit a) (hqueue : alone.queue p a = limiter.queue p a)
    (requests : List Request) :
    (limiter.answers requests).filter (fun e => e.1.isOf p a)
      = alone.answers (requests.filter (Request.isOf p a)) := by
  induction requests generalizing limiter alone with
  | nil => rfl
  | cons r later ih =>
    rcases h : r.isOf p a with _ | _
    · rw [answers, List.filter_cons_of_neg (by simp [h]), List.filter_cons_of_neg (by simp [h])]
      exact ih _ alone (by rw [allow_limit, hlimit]) (by rw [allow_queue_of_ne _ _ _ h, hqueue])
    · rw [answers, List.filter_cons_of_pos h, List.filter_cons_of_pos (by simp [h]), answers]
      obtain ⟨rfl, rfl⟩ := (isOf_iff p a).1 h
      have hbound : alone.bound r.action = limiter.bound r.action := by
        unfold bound
        rw [hlimit]
      have hrest := ih (limiter.allow r.playerId r.action r.now).2
        (alone.allow r.playerId r.action r.now).2
        (by rw [allow_limit, allow_limit, hlimit])
        (by rw [allow_queue_self, allow_queue_self, hlimit, hqueue, hbound])
      rw [allow_fst, allow_fst, hlimit, hqueue, hbound, hrest]

/-- What the queue has come to after the calls. -/
theorem queue_after (requests : List Request) :
    (limiter.after requests).queue p a
      = SlidingWindow.keptAfter (limiter.limit a).maximumRequests (limiter.bound a)
          (limiter.queue p a) ((requests.filter (Request.isOf p a)).map Request.now) := by
  induction requests generalizing limiter with
  | nil => rfl
  | cons r later ih =>
    have ih := ih (limiter.allow r.playerId r.action r.now).2
    rw [allow_limit, allow_bound] at ih
    show ((limiter.allow r.playerId r.action r.now).2.after later).queue p a = _
    rw [ih]
    rcases h : r.isOf p a with _ | _
    · rw [List.filter_cons_of_neg (by simp [h]), allow_queue_of_ne _ _ _ h]
    · obtain ⟨rfl, rfl⟩ := (isOf_iff p a).1 h
      rw [List.filter_cons_of_pos h, allow_queue_self]
      rfl

theorem after_limit (requests : List Request) (b : TransmissionRateLimitAction) :
    (limiter.after requests).limit b = limiter.limit b := by
  induction requests generalizing limiter with
  | nil => rfl
  | cons r later ih => exact (ih _).trans (limiter.allow_limit _ _ _ _)

theorem after_bound (requests : List Request) (b : TransmissionRateLimitAction) :
    (limiter.after requests).bound b = limiter.bound b := by
  unfold bound
  rw [after_limit]

/-! ## Runs from construction -/

/-- The times of each player and action do not decrease. -/
def Timely (requests : List Request) : Prop :=
  requests.Pairwise fun r r' => r.playerId = r'.playerId → r.action = r'.action → r.now ≤ r'.now

/-- The number of accepted calls of a player and action at times that `inside` holds of. -/
def acceptedCalls (requests : List (Request × Bool)) (p : PlayerId)
    (a : TransmissionRateLimitAction) (inside : TimePoint → Bool) : ℕ :=
  requests.countP fun e => e.1.isOf p a && e.2 && inside e.1.now

theorem Timely.sorted {requests : List Request} (h : Timely requests) :
    ((requests.filter (Request.isOf p a)).map Request.now).Pairwise (· ≤ ·) := by
  refine List.pairwise_map.2 (List.pairwise_filter.2 (h.imp fun {r r'} hle hr hr' => ?_))
  obtain ⟨hp, ha⟩ := (isOf_iff p a).1 hr
  obtain ⟨hp', ha'⟩ := (isOf_iff p a).1 hr'
  exact hle (hp.trans hp'.symm) (ha.trans ha'.symm)

/-- Accepted calls are counted by the window's record. -/
theorem acceptedCalls_eq (requests : List Request) (inside : TimePoint → Bool) :
    acceptedCalls (limiter.answers requests) p a inside
      = (SlidingWindow.accepted (SlidingWindow.record (limiter.limit a).maximumRequests
          (limiter.bound a) (limiter.queue p a)
          ((requests.filter (Request.isOf p a)).map Request.now))).countP inside := by
  rw [← answers_isOf]
  unfold SlidingWindow.accepted acceptedCalls
  rw [List.countP_map, List.countP_filter, List.countP_map, List.countP_filter]
  refine List.countP_congr fun e _ => ?_
  simp only [Function.comp_apply, Bool.and_eq_true]
  tauto

variable (startLimit endLimit : TransmissionRateLimit)

@[simp] theorem start_queue : (start startLimit endLimit).queue p a = [] := by
  cases a <;> simp [queue, history, start, RequestHistory.requests]

/-- What is asked of the answers to the calls: one is accepted iff fewer calls of its player and
action than the limit were accepted in the window that ends at it. No window, open on the left,
holds more accepted calls than the limit, and what the calls of a player and action are answered is
what they are answered alone. -/
structure SlidingWindowExact (startLimit endLimit : TransmissionRateLimit)
    (requests : List Request) : Prop where
  accepted_iff : ∀ earlier r later, requests = earlier ++ r :: later →
    ((((start startLimit endLimit).after earlier).allow r.playerId r.action r.now).1 = true
      ↔ acceptedCalls ((start startLimit endLimit).answers earlier) r.playerId r.action
          (fun t => r.now - ((start startLimit endLimit).limit r.action).window.toNanoseconds < t
            ∧ t ≤ r.now)
        < ((start startLimit endLimit).limit r.action).maximumRequests)
  accepted_le : ∀ p a from_, acceptedCalls ((start startLimit endLimit).answers requests) p a
      (fun t => from_ < t
        ∧ t ≤ from_ + ((start startLimit endLimit).limit a).window.toNanoseconds)
    ≤ ((start startLimit endLimit).limit a).maximumRequests
  alone : ∀ p a, ((start startLimit endLimit).answers requests).filter (fun e => e.1.isOf p a)
    = (start startLimit endLimit).answers (requests.filter (Request.isOf p a))

/-- The window and its start are 64-bit numbers of nanoseconds. -/
def Fits (window : Milliseconds) (now : TimePoint) : Prop :=
  window.toNanoseconds < 2 ^ 63 ∧ -2 ^ 63 ≤ now - window.toNanoseconds ∧ now < 2 ^ 63

theorem wrapInt64_eq {n : Int} (hlow : -2 ^ 63 ≤ n) (hhigh : n < 2 ^ 63) : wrapInt64 n = n :=
  Int.bmod_eq_of_le (by omega) (by omega)

theorem wrapInt64_sub {now window : Int} (hpos : 0 < window) (hwindow : window < 2 ^ 63)
    (hstart : -2 ^ 63 ≤ now - window) (hnow : now < 2 ^ 63) :
    wrapInt64 (now - wrapInt64 window) = now - window := by
  rw [wrapInt64_eq (by omega) hwindow, wrapInt64_eq hstart (by omega)]

theorem oldestAllowed_eq (limit : TransmissionRateLimit) {now : TimePoint}
    (h : Fits limit.window now) :
    oldestAllowed limit.window now = now - limit.window.toNanoseconds := by
  obtain ⟨hwindow, hstart, hnow⟩ := h
  have hpos : 0 < limit.window.toNanoseconds :=
    Int.mul_pos (not_le.1 limit.window_pos) (by decide)
  exact wrapInt64_sub hpos hwindow hstart hnow

/-- In a run whose times do not decrease for a player and action, the limiter is exact as long as
every call's window starts at a 64-bit time. -/
theorem allow_sliding_window (requests : List Request) (h : Timely requests)
    (hfits : ∀ r ∈ requests, Fits ((start startLimit endLimit).limit r.action).window r.now) :
    SlidingWindowExact startLimit endLimit requests := by
  have hbound : ∀ p a, ∀ t ∈ (requests.filter (Request.isOf p a)).map Request.now,
      (start startLimit endLimit).bound a t
        = t - ((start startLimit endLimit).limit a).window.toNanoseconds := by
    intro p a t ht
    obtain ⟨r, hr, rfl⟩ := List.mem_map.1 ht
    obtain ⟨hmem, hof⟩ := List.mem_filter.1 hr
    obtain ⟨-, rfl⟩ := (isOf_iff p a).1 hof
    exact oldestAllowed_eq _ (hfits r hmem)
  refine ⟨?_, fun p a from_ => ?_, fun p a => answers_filter _ _ _ _ rfl rfl requests⟩
  · rintro earlier r later rfl
    have hself : r.isOf r.playerId r.action = true := (isOf_iff _ _).2 ⟨rfl, rfl⟩
    have hprefix : (earlier ++ [r]).Sublist (earlier ++ r :: later) :=
      List.Sublist.append_left (List.singleton_sublist.2 List.mem_cons_self) earlier
    have hsorted := Timely.sorted r.playerId r.action (h.sublist hprefix)
    have hbounds := hbound r.playerId r.action
    rw [List.filter_append, List.filter_cons_of_pos hself, List.map_append] at hsorted hbounds
    have hstart := hbounds r.now (by simp)
    rw [allow_fst, after_limit, after_bound, queue_after, acceptedCalls_eq, start_queue, ← hstart]
    have hupto : ∀ t ∈ ((earlier.filter (Request.isOf r.playerId r.action)).map Request.now
          ++ [r.now]), (start startLimit endLimit).bound r.action t
        = t - ((start startLimit endLimit).limit r.action).window.toNanoseconds := by
      refine fun t ht => hbounds t ?_
      rw [List.map_cons]
      exact List.mem_append.2 ((List.mem_append.1 ht).imp_right fun ht =>
        List.mem_cons.2 (.inl (List.mem_singleton.1 ht)))
    exact SlidingWindow.admits_iff hsorted (SlidingWindow.bounds_sorted hsorted hupto)
  · rw [acceptedCalls_eq, start_queue]
    exact SlidingWindow.accepted_le (h.sorted p a) (hbound p a) from_

namespace Sample

def player : PlayerId := ⟨[1], List.cons_ne_nil _ _⟩

theorem second_pos : ¬(1000 : Milliseconds) ≤ 0 := by decide

theorem centuries_pos : ¬(11100000000000 : Milliseconds) ≤ 0 := by decide

def second : TransmissionRateLimit := ⟨1, 1000, one_ne_zero, second_pos⟩

/-- A window of three hundred and fifty years. -/
def centuries : TransmissionRateLimit := ⟨1, 11100000000000, one_ne_zero, centuries_pos⟩

/-- Two starts within one second. -/
def starts : List Request :=
  [⟨player, .start, 1700000000000000000⟩, ⟨player, .start, 1700000001000000000⟩]

end Sample

/-- One start a second: a start exactly one second after an accepted one is accepted again. -/
theorem allow_sliding_window_edge :
    SlidingWindowExact Sample.second Sample.second Sample.starts
      ∧ (((start Sample.second Sample.second).after [⟨Sample.player, .start, 1700000000000000000⟩]
        ).allow Sample.player .start 1700000001000000000).1 = true := by
  have hexact := allow_sliding_window Sample.second Sample.second Sample.starts
    (by simp [Timely, Sample.starts]) (by
      simp [Sample.starts, Fits, limit, start, Sample.second, Milliseconds.toNanoseconds])
  refine ⟨hexact, (hexact.accepted_iff [⟨Sample.player, .start, 1700000000000000000⟩]
    ⟨Sample.player, .start, 1700000001000000000⟩ [] rfl).2 ?_⟩
  simp [acceptedCalls, answers, limit, start, Sample.second, Milliseconds.toNanoseconds]

/-- One start in three hundred and fifty years: the next one a second later is accepted too. -/
theorem allow_sliding_window_overflow :
    Timely Sample.starts ∧ ¬SlidingWindowExact Sample.centuries Sample.second Sample.starts := by
  refine ⟨by simp [Timely, Sample.starts], fun h => ?_⟩
  have hlast := (h.accepted_iff [⟨Sample.player, .start, 1700000000000000000⟩]
    ⟨Sample.player, .start, 1700000001000000000⟩ [] rfl).1 (by decide +kernel)
  revert hlast
  decide +kernel

end InMemoryTransmissionRateLimiter

end VoxTree

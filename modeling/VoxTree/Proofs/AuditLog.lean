import VoxTree.AuditLog
import VoxTree.Lib.CursorLog
import VoxTree.Proofs.LoadedContext

/-!
# The audit log loses and repeats nothing

What is recorded is read back as it was, with its time in milliseconds
(`readAuditEvent_auditEventRow`). Whatever is recorded, read and erased in between, the reader has
the events up to the last one he has seen that were not erased before, and the others are read next
(`AuditRun.run_inv`).
-/

namespace VoxTree

open Relation Results CursorLog

namespace SqliteControlPlaneRepository

/-! ## An event and its row -/

section Values

variable {ε : Type} [DecidableEq ε]

theorem enumFromInteger_enumToInteger {values : List ε} {value : ε} (h : value ∈ values)
    (message : String) :
    enumFromInteger values message (enumToInteger values value) = .ok value := by
  have hplace : values[values.idxOf value]? = some value := by
    rw [List.getElem?_eq_getElem (List.idxOf_lt_length_of_mem h), List.getElem_idxOf]
  have hnonneg : ¬ enumToInteger values value < 0 := by simp [enumToInteger]
  unfold enumFromInteger
  rw [if_neg hnonneg]
  simp only [enumToInteger, Int.toNat_natCast, hplace]

theorem readOptional_map {α β : Type} {read : α → Except PersistenceException β} {write : β → α}
    {value : Option β} (h : ∀ b ∈ value, read (write b) = .ok b) :
    readOptional read (value.map write) = .ok value := by
  rcases value with _ | b
  · rfl
  · show some <$> read (write b) = _
    rw [h b rfl]
    rfl

theorem unsignedFromText_versionToText {value : ℕ} (h : value < UInt64.size) (field : String) :
    unsignedFromText field (versionToText value) = .ok value := by
  unfold unsignedFromText versionToText
  rw [JsonParser.fromChars_decimal h]

theorem readText_versionToText (value : ℕ) :
    readText (versionToText value) = .ok (versionToText value) :=
  if_neg (Encoding.decimal_ne_nil value)

end Values

end SqliteControlPlaneRepository

open SqliteControlPlaneRepository

/-- The numbers of an event are of their types, `std::uint64_t` and `std::size_t`. -/
structure TransmissionAuditEvent.Words (event : TransmissionAuditEvent) : Prop where
  membershipVersion : ∀ version ∈ event.membershipVersion, version < UInt64.size
  recipientCount : ∀ count ∈ event.recipientCount, count < UInt64.size

/-- The time of an event in whole milliseconds. -/
def TransmissionAuditEvent.truncated (event : TransmissionAuditEvent) : TransmissionAuditEvent :=
  { event with occurredAt := fromUnixMilliseconds (toUnixMilliseconds event.occurredAt) }

def StoredTransmissionAuditEvent.truncated (s : StoredTransmissionAuditEvent) :
    StoredTransmissionAuditEvent :=
  { s with event := s.event.truncated }

/-- What is read of the row of an event is the event. -/
theorem readAuditEvent_auditEventRow {event : TransmissionAuditEvent} (h : event.Words)
    {sequence : ℕ} (hpos : 0 < sequence) :
    readAuditEvent (auditEventRow event sequence) = .ok ⟨sequence, event.truncated⟩ := by
  have htype : auditEventTypeFromInteger (enumToInteger auditEventTypes event.type)
      = .ok event.type :=
    enumFromInteger_enumToInteger (by cases event.type <;> decide) _
  have hoperation : auditOperationFromInteger (enumToInteger auditOperations event.operation)
      = .ok event.operation :=
    enumFromInteger_enumToInteger (by cases event.operation <;> decide) _
  have hreason : readOptional stopReasonFromInteger
      (event.stopReason.map (enumToInteger stopReasons)) = .ok event.stopReason :=
    readOptional_map fun reason _ =>
      enumFromInteger_enumToInteger (by cases reason <;> decide) _
  have hrejection : readOptional auditRejectionFromInteger
      (event.rejectionReason.map (enumToInteger auditRejections)) = .ok event.rejectionReason :=
    readOptional_map fun reason _ =>
      enumFromInteger_enumToInteger (by cases reason <;> decide) _
  have hversion : readOptional (fun text => do
      unsignedFromText "membership version" (← readText text))
        (event.membershipVersion.map versionToText) = .ok event.membershipVersion :=
    readOptional_map fun version hversion =>
      bind_ok (readText_versionToText version)
        (unsignedFromText_versionToText (h.membershipVersion version hversion) _)
  have hcount : readOptional (fun text => do countFromText (← readText text))
      (event.recipientCount.map versionToText) = .ok event.recipientCount :=
    readOptional_map fun count hcount =>
      bind_ok (readText_versionToText count)
        (unsignedFromText_versionToText (h.recipientCount count hcount) _)
  have hidentifier : ∀ {tag : IdTag} (id : Option (StrongId tag)),
      readOptional readIdentifier (id.map StrongId.value) = .ok id := fun id =>
    readOptional_map fun id _ => readIdentifier_value id
  have hscope : readOptional scopeFromInteger (event.scope.map scopeToInteger) = .ok event.scope :=
    readOptional_map fun scope _ => scopeFromInteger_scopeToInteger scope
  have hsequence : ¬ (sequence : ℤ) ≤ 0 := by omega
  unfold readAuditEvent auditEventRow
  dsimp only
  rw [if_neg hsequence]
  refine bind_ok htype <| bind_ok hoperation <| bind_ok (readIdentifier_value _) <|
    bind_ok (hidentifier _) <| bind_ok (hidentifier _) <| bind_ok (hidentifier _) <|
    bind_ok (hidentifier _) <| bind_ok (hidentifier _) <| bind_ok (hidentifier _) <|
    bind_ok hscope <| bind_ok hversion <| bind_ok hcount <| bind_ok hreason <|
    bind_ok hrejection ?_
  rfl

namespace SqliteControlPlaneRepository

/-! ## Sequences -/

section Sequences

variable {t t' : AuditTable} {m sequence : ℤ}

theorem largestSequence_eq (h : ∀ row ∈ t.rows, row.sequence ≤ t.counter) :
    largestSequence t = t.counter := by
  unfold largestSequence
  generalize t.counter = counter at h ⊢
  generalize t.rows = rows at h ⊢
  induction rows with
  | nil => rfl
  | cons row rows ih =>
    rw [List.foldl_cons, max_eq_left (h row List.mem_cons_self)]
    exact ih fun r hr => h r (List.mem_cons_of_mem row hr)

/-- An event that is stored gets the next sequence. -/
theorem of_store {event : TransmissionAuditEvent} (h : store m event t = some (sequence, t'))
    (hrows : ∀ row ∈ t.rows, row.sequence ≤ t.counter) :
    t.counter < maximumInteger ∧ sequence = t.counter + 1
      ∧ t' = ⟨t.rows ++ [auditEventRow event sequence], sequence⟩ := by
  unfold store at h
  rcases htexts : (auditTexts (auditEventRow event 0)).forM bindText with e | u
  · simp only [htexts] at h
    cases h
  simp only [htexts, insertNext, largestSequence_eq hrows] at h
  split_ifs at h with hfull
  rcases hinsert : (auditEvents m).insert (auditEventRow event (t.counter + 1)) t with e | table
  · simp only [hinsert] at h
    cases h
  simp only [hinsert] at h
  obtain ⟨rfl, rfl⟩ := Prod.mk.inj (Option.some.inj h)
  obtain ⟨-, -, -, rfl⟩ := Table.of_insert hinsert
  exact ⟨Int.not_le.1 hfull, rfl, rfl⟩

end Sequences

end SqliteControlPlaneRepository

namespace AuditRun

/-! ## The run -/

variable {start : ℕ} {r : AuditRun}

/-- What the reader is to see: what was recorded behind `start`, but for what was erased before he
reached it. -/
def visible (start : ℕ) (r : AuditRun) : List StoredTransmissionAuditEvent :=
  r.recorded.filter fun s => start < s.sequence && !r.erasedUnread.contains s.sequence

/-- The row of a stored event. -/
def row (s : StoredTransmissionAuditEvent) : AuditEventRow := auditEventRow s.event s.sequence

/-- The rows of the table are recorded events, behind the reader the visible ones, and the reader
has those up to where he is. -/
structure Inv (start : ℕ) (r : AuditRun) : Prop where
  ascending : Ascending StoredTransmissionAuditEvent.sequence r.recorded
  words : ∀ s ∈ r.recorded, s.event.Words
  positive : ∀ s ∈ r.recorded, 0 < s.sequence
  le_counter : ∀ s ∈ r.recorded, (s.sequence : ℤ) ≤ r.repository.table.counter
  counter_le : r.repository.table.counter ≤ maximumInteger
  counter_nonneg : 0 ≤ r.repository.table.counter
  erased_le : ∀ sequence ∈ r.erasedUnread, (sequence : ℤ) ≤ r.repository.table.counter
  start_le : start ≤ r.lastSequence
  last_le : r.lastSequence = start ∨ (r.lastSequence : ℤ) ≤ r.repository.table.counter
  rows : ∃ kept : List StoredTransmissionAuditEvent, kept.Sublist r.recorded
    ∧ r.repository.table.rows = kept.map row
    ∧ unread StoredTransmissionAuditEvent.sequence kept r.lastSequence
      = unread StoredTransmissionAuditEvent.sequence (r.visible start) r.lastSequence
  received : r.received = (read StoredTransmissionAuditEvent.sequence (r.visible start)
    r.lastSequence).map StoredTransmissionAuditEvent.truncated

theorem inv_start (start : ℕ) : Inv start { lastSequence := start } where
  ascending := List.Pairwise.nil
  words := by simp
  positive := by simp
  le_counter := by simp
  counter_le := Int.natCast_nonneg _
  counter_nonneg := le_refl _
  erased_le := by simp
  start_le := le_refl _
  last_le := .inl rfl
  rows := ⟨[], .refl _, rfl, rfl⟩
  received := rfl

theorem Inv.rows_le (h : Inv start r) :
    ∀ row ∈ r.repository.table.rows, row.sequence ≤ r.repository.table.counter := by
  obtain ⟨kept, hsub, hrows, -⟩ := h.rows
  rw [hrows]
  exact List.forall_mem_map.2 fun s hs => h.le_counter s (hsub.subset hs)

section Appended

/-- The run with one more event recorded. -/
def appended (r : AuditRun) (s : StoredTransmissionAuditEvent) : AuditRun :=
  { r with
    repository := { r.repository with
      table := ⟨r.repository.table.rows ++ [row s], s.sequence⟩ }
    recorded := r.recorded ++ [s] }

variable {s : StoredTransmissionAuditEvent}

theorem Inv.start_lt_iff (h : Inv start r) (hlt : r.repository.table.counter < s.sequence) :
    start < s.sequence ↔ r.lastSequence < s.sequence := by
  have hstart := h.start_le
  rcases h.last_le with hlast | hlast <;> omega

theorem Inv.visible_appended (h : Inv start r) (hlt : r.repository.table.counter < s.sequence) :
    visible start (r.appended s) = r.visible start ++ if start < s.sequence then [s] else [] := by
  have hnew : s.sequence ∉ r.erasedUnread := by
    intro hmem
    have herased := h.erased_le s.sequence hmem
    omega
  unfold visible appended
  rw [List.filter_append]
  congr 1
  by_cases hn : start < s.sequence <;> simp [hn, hnew]

/-- An event that is recorded is behind everything. -/
theorem Inv.appended (h : Inv start r) (hwords : s.event.Words)
    (hlt : r.repository.table.counter < s.sequence) (hmaximum : (s.sequence : ℤ) ≤ maximumInteger) :
    Inv start (r.appended s) := by
  have hbehind := h.start_lt_iff hlt
  have hvisible := h.visible_appended hlt
  obtain ⟨kept, hsub, hrows, hunread⟩ := h.rows
  have hstored : ∀ x ∈ r.recorded ++ [s], x ∈ r.recorded ∨ x = s := by simp
  refine
    { ascending := ?_
      words := fun x hx => ?_
      positive := fun x hx => ?_
      le_counter := fun x hx => ?_
      counter_le := hmaximum
      counter_nonneg := Int.natCast_nonneg s.sequence
      erased_le := fun x hx => (h.erased_le x hx).trans hlt.le
      start_le := h.start_le
      last_le := h.last_le.imp_right fun hlast => hlast.trans hlt.le
      rows := ⟨kept ++ [s], hsub.append (.refl _), ?_, ?_⟩
      received := ?_ }
  · refine List.pairwise_append.2 ⟨h.ascending, List.pairwise_singleton _ _, fun x hx y hy => ?_⟩
    obtain rfl := List.mem_singleton.1 hy
    have hle := h.le_counter x hx
    omega
  · rcases hstored x hx with hx | rfl
    · exact h.words x hx
    · exact hwords
  · rcases hstored x hx with hx | rfl
    · exact h.positive x hx
    · have hnonneg := h.counter_nonneg
      omega
  · rcases hstored x hx with hx | rfl
    · exact (h.le_counter x hx).trans hlt.le
    · exact le_refl (x.sequence : ℤ)
  · rw [AuditRun.appended, hrows, List.map_append]
    rfl
  · have hmore : unread StoredTransmissionAuditEvent.sequence
        (if start < s.sequence then [s] else []) r.lastSequence
          = if r.lastSequence < s.sequence then [s] else [] := by
      by_cases hn : start < s.sequence
      · simp [unread, hn, hbehind.1 hn]
      · simp [unread, hn, mt hbehind.2 hn]
    show unread _ _ r.lastSequence = unread _ _ r.lastSequence
    rw [hvisible, unread_append_singleton, hunread]
    unfold unread at hmore ⊢
    rw [List.filter_append, hmore]
  · show r.received = (read _ _ r.lastSequence).map _
    rw [hvisible, read_append_of_lt, h.received]
    intro x hx
    split_ifs at hx with hn
    · obtain rfl := List.mem_singleton.1 hx
      exact hbehind.1 hn
    · cases hx

theorem Inv.record (h : Inv start r) {event : TransmissionAuditEvent} (hwords : event.Words) :
    Inv start (r.step (.record event)) := by
  rcases hstore : store latestMaximumRejection event r.repository.table with _ | ⟨sequence, table⟩
  · have hstep : r.step (.record event) = { r with repository :=
        { r.repository with droppedAuditEvents := r.repository.droppedAuditEvents + 1 } } := by
      simp only [step, AuditRepository.record, hstore]
    rw [hstep]
    exact ⟨h.ascending, h.words, h.positive, h.le_counter, h.counter_le, h.counter_nonneg,
      h.erased_le, h.start_le, h.last_le, h.rows, h.received⟩
  · obtain ⟨hlt, hsequence, rfl⟩ := of_store hstore h.rows_le
    have hnonneg := h.counter_nonneg
    have hcounter := h.counter_le
    obtain ⟨n, rfl⟩ := Int.eq_ofNat_of_zero_le (show 0 ≤ sequence by omega)
    have hstep : r.step (.record event) = r.appended ⟨n, event⟩ := by
      simp only [step, AuditRepository.record, hstore]
      rfl
    have hfront : r.repository.table.counter < (n : ℤ) := by omega
    have hmaximum : (n : ℤ) ≤ maximumInteger := by omega
    rw [hstep]
    exact h.appended hwords hfront hmaximum

end Appended

/-- What is erased are the rows of some sequences. -/
theorem erase_rows (repository : AuditRepository) (cutoff : TimePoint) (limit : ℕ) :
    ∃ expired : List ℤ, (repository.erase cutoff limit).table
      = ⟨repository.table.rows.filter fun row => !(expired.any fun s => s = row.sequence),
        repository.table.counter⟩ := by
  have hnone : repository.table
      = ⟨repository.table.rows.filter fun row => !(([] : List ℤ).any fun s => s = row.sequence),
        repository.table.counter⟩ := by simp
  unfold AuditRepository.erase eraseAuditEventsBefore
  by_cases hzero : limit = 0
  · simp only [if_pos hzero]
    exact ⟨[], hnone⟩
  rcases hlimit : limitToInteger limit with e | n
  · simp only [if_neg hzero]
    exact ⟨[], hnone⟩
  · simp only [if_neg hzero]
    exact ⟨expiredSequences repository.table cutoff n, rfl⟩

/-- The sequences whose rows are gone. -/
theorem mem_erasedSequences {kept : List StoredTransmissionAuditEvent} {expired : List ℤ}
    {before after : AuditTable} (hbefore : before.rows = kept.map row)
    (hafter : after.rows = before.rows.filter fun row => !(expired.any fun s => s = row.sequence))
    {x : StoredTransmissionAuditEvent} (hx : x ∈ kept) :
    x.sequence ∈ erasedSequences before after
      ↔ (expired.any fun s => s = (x.sequence : ℤ)) = true := by
  unfold erasedSequences
  rw [List.mem_map]
  constructor
  · rintro ⟨gone, hgone, hsequence⟩
    obtain ⟨hmem, hnone⟩ := List.mem_filter.1 hgone
    by_contra hkept
    obtain ⟨y, -, rfl⟩ := List.mem_map.1 (hbefore ▸ hmem)
    have heq : (row y).sequence = x.sequence := congrArg Int.ofNat hsequence
    have hstays : row y ∈ after.rows := by
      rw [hafter]
      refine List.mem_filter.2 ⟨hmem, ?_⟩
      rw [heq, Bool.not_eq_true', ← Bool.not_eq_true]
      exact hkept
    rw [Bool.not_eq_true', List.any_eq_false] at hnone
    exact hnone (row y) hstays (decide_eq_true rfl)
  · intro hexpired
    refine ⟨row x, List.mem_filter.2 ⟨hbefore ▸ List.mem_map_of_mem hx, ?_⟩, rfl⟩
    rw [Bool.not_eq_true', List.any_eq_false]
    intro stays hstays heq
    rw [hafter] at hstays
    have hnot := (List.mem_filter.1 hstays).2
    rw [of_decide_eq_true heq] at hnot
    have hexpired' : (expired.any fun s => s = (row x).sequence) = true := hexpired
    rw [hexpired'] at hnot
    cases hnot

/-- What is erased behind the reader he is not to see any more. -/
theorem Inv.erase (h : Inv start r) (cutoff : TimePoint) (limit : ℕ) :
    Inv start (r.step (.eraseAuditEventsBefore cutoff limit)) := by
  obtain ⟨expired, htable⟩ := erase_rows r.repository cutoff limit
  obtain ⟨kept, hsub, hrows, hunread⟩ := h.rows
  obtain ⟨after, hafter⟩ : ∃ after, r.repository.erase cutoff limit = after := ⟨_, rfl⟩
  obtain ⟨missed, hmissed⟩ : ∃ missed, ((erasedSequences r.repository.table after.table).filter
      fun sequence => r.lastSequence < sequence) = missed := ⟨_, rfl⟩
  have hstep : r.step (.eraseAuditEventsBefore cutoff limit)
      = { r with repository := after, erasedUnread := r.erasedUnread ++ missed } := by
    rw [← hmissed, ← hafter]
    rfl
  rw [hafter] at htable
  have hkept : after.table.rows = (kept.filter fun s =>
      !(expired.any fun e => e = (s.sequence : ℤ))).map row := by
    rw [htable, hrows, List.filter_map]
    rfl
  have hgone : ∀ x ∈ kept, r.lastSequence < x.sequence →
      missed.contains x.sequence = expired.any fun e => e = (x.sequence : ℤ) := by
    intro x hx hlt
    have hmem : x.sequence ∈ erasedSequences r.repository.table after.table
        ↔ (expired.any fun e => e = (x.sequence : ℤ)) = true :=
      mem_erasedSequences hrows (by rw [htable]) hx
    rw [Bool.eq_iff_iff, ← hmem, List.contains_iff_mem, ← hmissed, List.mem_filter]
    exact ⟨And.left, fun hx => ⟨hx, decide_eq_true hlt⟩⟩
  have hvisible : visible start { r with
      repository := after, erasedUnread := r.erasedUnread ++ missed }
        = (r.visible start).filter fun s => !missed.contains s.sequence := by
    unfold visible
    rw [List.filter_filter]
    refine List.filter_congr fun s _ => ?_
    rw [List.contains_eq_any_beq, List.any_append, Bool.not_or, ← List.contains_eq_any_beq,
      ← List.contains_eq_any_beq]
    ac_rfl
  have hcounter : after.table.counter = r.repository.table.counter := by rw [htable]
  rw [hstep]
  refine
    { ascending := h.ascending
      words := h.words
      positive := h.positive
      le_counter := fun s hs => hcounter ▸ h.le_counter s hs
      counter_le := hcounter ▸ h.counter_le
      counter_nonneg := hcounter ▸ h.counter_nonneg
      erased_le := fun sequence hmem => ?_
      start_le := h.start_le
      last_le := hcounter ▸ h.last_le
      rows := ⟨_, List.filter_sublist.trans hsub, hkept, ?_⟩
      received := ?_ }
  · show (sequence : ℤ) ≤ after.table.counter
    rw [hcounter]
    rcases List.mem_append.1 hmem with hmem | hmem
    · exact h.erased_le sequence hmem
    · rw [← hmissed] at hmem
      obtain ⟨gone, hgone, rfl⟩ := List.mem_map.1 (List.mem_filter.1 hmem).1
      obtain ⟨y, hy, rfl⟩ := List.mem_map.1 (hrows ▸ (List.mem_filter.1 hgone).1)
      exact h.le_counter y (hsub.subset hy)
  · rw [hvisible, unread_filter, unread_filter, ← hunread]
    refine List.filter_congr fun x hx => ?_
    obtain ⟨hx, hlt⟩ := List.mem_filter.1 hx
    rw [hgone x hx (of_decide_eq_true hlt)]
  · rw [hvisible, read_filter]
    · exact h.received
    · intro x _ hle
      rw [← hmissed, Bool.not_eq_true', ← Bool.not_eq_true, List.contains_iff_mem]
      exact fun hmem => absurd (of_decide_eq_true (List.mem_filter.1 hmem).2) (Nat.not_lt.2 hle)

/-- What is still to be read. -/
def pending (start : ℕ) (r : AuditRun) : List StoredTransmissionAuditEvent :=
  (unread StoredTransmissionAuditEvent.sequence (r.visible start) r.lastSequence).map
    StoredTransmissionAuditEvent.truncated

theorem mapM_readAuditEvent : ∀ {l : List StoredTransmissionAuditEvent},
    (∀ s ∈ l, s.event.Words ∧ 0 < s.sequence) →
      (l.map row).mapM readAuditEvent = .ok (l.map StoredTransmissionAuditEvent.truncated)
  | [], _ => rfl
  | s :: l, h => by
    obtain ⟨hwords, hpos⟩ := h s List.mem_cons_self
    have hrest := mapM_readAuditEvent (l := l) fun x hx => h x (List.mem_cons_of_mem s hx)
    rw [List.map_cons, List.mapM_cons]
    exact bind_ok (readAuditEvent_auditEventRow hwords hpos) (bind_ok hrest rfl)

/-- The reader is answered the next events he is to see. -/
theorem Inv.auditEventsAfter_eq (h : Inv start r) {limit : ℕ} (hpos : 0 < limit)
    (hlimit : limit ≤ maximumInteger) :
    auditEventsAfter r.repository.table r.lastSequence limit
      = .ok ((r.pending start).take limit) := by
  obtain ⟨kept, hsub, hrows, hunread⟩ := h.rows
  have hcounter := h.counter_le
  have hbounded : limitToInteger limit = .ok limit := if_neg (Nat.not_lt.2 hlimit)
  unfold pending
  rw [← hunread, ← List.map_take]
  by_cases hlast : maximumInteger < r.lastSequence
  · have hnone : unread StoredTransmissionAuditEvent.sequence kept r.lastSequence = [] := by
      refine List.filter_eq_nil_iff.2 fun x hx hlt => ?_
      have hle := h.le_counter x (hsub.subset hx)
      have hlt := of_decide_eq_true hlt
      omega
    rw [hnone, List.take_nil]
    exact if_pos (.inr hlast)
  have hascending : r.repository.table.rows.Pairwise fun a b =>
      (compare a.sequence b.sequence).isLE = true := by
    rw [hrows, List.pairwise_map]
    refine (h.ascending.sublist hsub).imp fun {a b} hlt => ?_
    rw [Int.isLE_compare]
    exact Int.ofNat_le.2 hlt.le
  have hselect : select (fun row => (r.lastSequence : ℤ) < row.sequence) AuditEventRow.sequence
      r.repository.table.rows
        = (unread StoredTransmissionAuditEvent.sequence kept r.lastSequence).map row := by
    rw [select_of_ascending _ _ hascending, hrows, List.filter_map]
    refine congrArg (List.map row) (List.filter_congr fun x _ => ?_)
    show decide ((r.lastSequence : ℤ) < (x.sequence : ℤ)) = decide (r.lastSequence < x.sequence)
    exact decide_eq_decide.2 Int.ofNat_lt
  have hguard : ¬ (limit = 0 ∨ maximumInteger < r.lastSequence) := by omega
  unfold auditEventsAfter
  rw [if_neg hguard]
  refine bind_ok hbounded ?_
  rw [hselect, ← List.map_take]
  refine mapM_readAuditEvent fun s hs => ?_
  have hmem := hsub.subset (List.mem_of_mem_filter (List.mem_of_mem_take hs))
  exact ⟨h.words s hmem, h.positive s hmem⟩

/-- A call without a limit, or with one that is refused, leaves the reader where he is. -/
theorem step_read_refused {limit : ℕ} (h : limit = 0 ∨ maximumInteger < limit) :
    r.step (.read limit) = r := by
  have hstay : { r with received := r.received ++ [], lastSequence := r.lastSequence } = r := by
    rw [List.append_nil]
  have hanswer : auditEventsAfter r.repository.table r.lastSequence limit = .ok []
      ∨ ∃ e, auditEventsAfter r.repository.table r.lastSequence limit = .error e := by
    unfold auditEventsAfter
    split_ifs with hguard
    · exact .inl rfl
    · have hlarge := h.resolve_left fun hzero => hguard (.inl hzero)
      have herror : limitToInteger limit
          = .error (.persistence "The requested SQLite result limit is too large.") := if_pos hlarge
      rw [herror]
      exact .inr ⟨_, rfl⟩
  rcases hanswer with hanswer | ⟨e, hanswer⟩
  · simp only [step, hanswer]
    exact hstay
  · simp only [step, hanswer]

/-- A call with a limit takes the next events from those still to be read. -/
theorem Inv.step_read (h : Inv start r) {limit : ℕ} (hpos : 0 < limit)
    (hlimit : limit ≤ maximumInteger) :
    Inv start (r.step (.read limit))
      ∧ (r.step (.read limit)).received = r.received ++ (r.pending start).take limit
      ∧ (r.step (.read limit)).pending start = (r.pending start).drop limit := by
  have hascending : Ascending StoredTransmissionAuditEvent.sequence (r.visible start) :=
    h.ascending.sublist List.filter_sublist
  obtain ⟨page, hpage⟩ : ∃ page, (unread StoredTransmissionAuditEvent.sequence (r.visible start)
      r.lastSequence).take limit = page := ⟨_, rfl⟩
  have hlast : (((page.map StoredTransmissionAuditEvent.truncated).getLast?.map
      StoredTransmissionAuditEvent.sequence).getD r.lastSequence)
        = next StoredTransmissionAuditEvent.sequence r.lastSequence page := by
    unfold next
    rw [List.getLast?_map, Option.map_map]
    rfl
  have hstep : r.step (.read limit) = { r with
      received := r.received ++ page.map StoredTransmissionAuditEvent.truncated
      lastSequence := next StoredTransmissionAuditEvent.sequence r.lastSequence page } := by
    simp only [step, h.auditEventsAfter_eq hpos hlimit, pending, ← List.map_take, hpage, hlast]
  have hle : r.lastSequence ≤ next StoredTransmissionAuditEvent.sequence r.lastSequence page :=
    hpage ▸ le_next (r.visible start) limit
  rw [hstep]
  refine ⟨{ h with start_le := h.start_le.trans hle, last_le := ?_, rows := ?_, received := ?_ },
    ?_, ?_⟩
  · show next StoredTransmissionAuditEvent.sequence r.lastSequence page = start
      ∨ ((next StoredTransmissionAuditEvent.sequence r.lastSequence page : ℕ) : ℤ)
        ≤ r.repository.table.counter
    unfold next
    rcases hlast : page.getLast? with _ | s
    · exact h.last_le
    · have hmem : s ∈ r.visible start := by
        have hs := List.mem_of_getLast? hlast
        rw [← hpage] at hs
        exact List.mem_of_mem_filter (List.mem_of_mem_take hs)
      exact .inr (h.le_counter s (List.mem_of_mem_filter hmem))
  · obtain ⟨kept, hsub, hrows, hunread⟩ := h.rows
    refine ⟨kept, hsub, hrows, ?_⟩
    show unread _ kept (next _ _ page) = unread _ (r.visible start) (next _ _ page)
    rw [← unread_unread hle, hunread, unread_unread hle]
  · show r.received ++ page.map _ = (read _ (r.visible start) (next _ _ page)).map _
    rw [← hpage, read_append_page hascending, List.map_append, h.received]
  · unfold pending
    rw [← List.map_take, hpage]
  · show (unread _ (r.visible start) (next _ _ page)).map _ = _
    unfold pending
    rw [← hpage, unread_next hascending, List.map_drop]

end AuditRun

/-- The events that are recorded are of their types. -/
def AuditOp.Words : AuditOp → Prop
  | .record event => event.Words
  | _ => True

namespace AuditRun

variable {start : ℕ} {r : AuditRun}

theorem Inv.step (h : Inv start r) {op : AuditOp} (hop : op.Words) : Inv start (r.step op) := by
  rcases op with event | ⟨sequence, limit⟩ | ⟨cutoff, limit⟩ | limit
  · exact h.record hop
  · exact h
  · exact h.erase cutoff limit
  · by_cases hrefused : limit = 0 ∨ maximumInteger < limit
    · rwa [step_read_refused hrefused]
    · exact (h.step_read (by omega) (by omega)).1

theorem Inv.foldl : ∀ {ops : List AuditOp} {r : AuditRun}, Inv start r → (∀ op ∈ ops, op.Words) →
    Inv start (ops.foldl AuditRun.step r)
  | [], _, h, _ => h
  | op :: _, _, h, hops =>
    (h.step (hops op List.mem_cons_self)).foldl fun o ho => hops o (List.mem_cons_of_mem op ho)

theorem run_inv {ops : List AuditOp} (hops : ∀ op ∈ ops, op.Words) : Inv start (run start ops) :=
  (inv_start start).foldl hops

/-- After enough calls the reader has everything. -/
theorem Inv.reads : ∀ {limits : List ℕ} {r : AuditRun}, Inv start r →
    (∀ limit ∈ limits, 0 < limit ∧ limit ≤ maximumInteger) →
    (r.pending start).length ≤ limits.length →
      ((limits.map AuditOp.read).foldl AuditRun.step r).received = r.received ++ r.pending start
  | [], r, _, _, hlength => by
    rw [List.eq_nil_of_length_eq_zero (Nat.le_zero.1 hlength), List.append_nil]
    rfl
  | limit :: limits, r, h, hlimits, hlength => by
    obtain ⟨hpos, hle⟩ := hlimits limit List.mem_cons_self
    obtain ⟨hinv, hreceived, hpending⟩ := h.step_read hpos hle
    have hrest : ((r.step (.read limit)).pending start).length ≤ limits.length := by
      rw [hpending, List.length_drop]
      rw [List.length_cons] at hlength
      omega
    have hreads := hinv.reads (fun l hl => hlimits l (List.mem_cons_of_mem limit hl)) hrest
    rw [List.map_cons, List.foldl_cons, hreads, hreceived, hpending, List.append_assoc,
      List.take_append_drop]

/-- The reader receives what was recorded behind `start` and not erased before he reached it, in
the order in which it was recorded, each event once; what he has not received yet he is answered
next, and after enough calls he has it. -/
theorem audit_log_delivers (start : ℕ) {ops : List AuditOp} (hops : ∀ op ∈ ops, op.Words) :
    Ascending StoredTransmissionAuditEvent.sequence (run start ops).recorded
      ∧ Ascending StoredTransmissionAuditEvent.sequence (run start ops).received
      ∧ ∃ unread : List StoredTransmissionAuditEvent,
        (run start ops).received ++ unread
            = ((run start ops).recorded.filter fun s =>
              start < s.sequence && !(run start ops).erasedUnread.contains s.sequence).map
                StoredTransmissionAuditEvent.truncated
          ∧ (∀ limit, 0 < limit → limit ≤ maximumInteger →
            auditEventsAfter (run start ops).repository.table (run start ops).lastSequence limit
              = .ok (unread.take limit))
          ∧ (∀ limit, maximumInteger < limit →
            (run start ops).step (.read limit) = run start ops)
          ∧ ∀ limits : List ℕ, (∀ limit ∈ limits, 0 < limit ∧ limit ≤ maximumInteger) →
            unread.length ≤ limits.length →
              (run start (ops ++ limits.map .read)).received
                = (run start ops).received ++ unread := by
  have h : Inv start (run start ops) := run_inv hops
  have hvisible : Ascending StoredTransmissionAuditEvent.sequence ((run start ops).visible start) :=
    h.ascending.sublist List.filter_sublist
  refine ⟨h.ascending, ?_, (run start ops).pending start, ?_,
    fun limit hpos hle => h.auditEventsAfter_eq hpos hle,
    fun limit hlarge => step_read_refused (.inr hlarge), fun limits hlimits hlength => ?_⟩
  · rw [h.received]
    exact List.pairwise_map.2 (hvisible.sublist List.filter_sublist)
  · rw [h.received]
    unfold pending
    rw [← List.map_append, read_append_unread hvisible]
    rfl
  · unfold run at h ⊢
    rw [List.foldl_append]
    exact h.reads hlimits hlength

/-! ## Samples -/

section Samples

/-- The second event is older than the cutoff and erased before the reader comes to it. -/
def sampleOps : List AuditOp :=
  let event (occurredAt : TimePoint) : TransmissionAuditEvent :=
    { type := .started, operation := .start, occurredAt, correlationId := Sample.correlation }
  [.record (event 5000000), .record (event 1000000), .read 1, .eraseAuditEventsBefore 2000000 7,
    .record (event 6500000), .read 2]

theorem audit_log_delivers_sample :
    (run 0 sampleOps).received.map StoredTransmissionAuditEvent.sequence = [1, 3]
      ∧ Ascending StoredTransmissionAuditEvent.sequence (run 0 sampleOps).received := by
  have hwords : ∀ op ∈ sampleOps, op.Words := by
    simp only [sampleOps, List.forall_mem_cons, List.not_mem_nil, false_implies, implies_true]
    exact ⟨⟨nofun, nofun⟩, ⟨nofun, nofun⟩, trivial, trivial, ⟨nofun, nofun⟩, trivial, trivial⟩
  exact ⟨by decide +kernel, (audit_log_delivers 0 hwords).2.1⟩

end Samples

end AuditRun

end VoxTree

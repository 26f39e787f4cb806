import VoxTree.Proofs.AuditLog

/-!
# What the migration of the audit log keeps

The migration to version 4 keeps every row with its sequence (`migrate_version3`), but its table
counts on from the rows that are there. So no sequence is handed out again exactly if the rows reach
up to all that were (`migration_keeps_sequences_iff`).
-/

namespace VoxTree

open Relation Results SqliteControlPlaneRepository

/-! ## Copying the rows -/

/-- The schema of version 4 admits what the one of version 3 does. -/
theorem auditEvents_check_mono {m m' : ℤ} (hm : m ≤ m') {row : AuditEventRow}
    (h : (auditEvents m).check row = true) : (auditEvents m').check row = true := by
  have hrejection : row.rejectionReason.all (upTo m) = true →
      row.rejectionReason.all (upTo m') = true := by
    rcases row.rejectionReason with _ | reason
    · exact id
    · simp only [Option.all_some, upTo, Bool.and_eq_true, decide_eq_true_eq]
      omega
  simp only [auditEvents, Bool.and_eq_true] at h ⊢
  exact ⟨⟨⟨⟨⟨⟨⟨⟨⟨h.1.1.1.1.1.1.1.1.1, hrejection h.1.1.1.1.1.1.1.1.2⟩, h.1.1.1.1.1.1.1.2⟩,
    h.1.1.1.1.1.1.2⟩, h.1.1.1.1.1.2⟩, h.1.1.1.1.2⟩, h.1.1.1.2⟩, h.1.1.2⟩, h.1.2⟩, h.2⟩

/-- The largest of the sequences, and of a counter. -/
def largestOf (counter : ℤ) (rows : List AuditEventRow) : ℤ :=
  rows.foldl (fun largest row => max largest row.sequence) counter

theorem largestOf_le_iff {x : ℤ} : ∀ {rows : List AuditEventRow} {counter : ℤ},
    largestOf counter rows ≤ x ↔ counter ≤ x ∧ ∀ row ∈ rows, row.sequence ≤ x
  | [], _ => by simp [largestOf]
  | row :: rows, counter => by
    show largestOf (max counter row.sequence) rows ≤ x ↔ _
    rw [largestOf_le_iff, max_le_iff, List.forall_mem_cons, and_assoc]

theorem foldlM_insertRow {m : ℤ} : ∀ {rows : List AuditEventRow} {t : AuditTable},
    (∀ row ∈ rows, (auditEvents m).check row = true) →
    ((t.rows ++ rows).map AuditEventRow.sequence).Nodup →
      rows.foldlM (fun t row => insertRow m row t) t
        = .ok ⟨t.rows ++ rows, largestOf t.counter rows⟩
  | [], t, _, _ => by
    rw [List.append_nil]
    rfl
  | row :: rows, t, hcheck, hkeys => by
    have hfresh : row.sequence ∉ t.rows.map AuditEventRow.sequence := by
      rw [List.map_append] at hkeys
      exact fun hmem => (List.nodup_append.1 hkeys).2.2 _ hmem _ List.mem_cons_self rfl
    have hinsert : (auditEvents m).insert row t
        = .ok ((auditEvents m).withRows ((auditEvents m).rows t ++ [row]) t) :=
      Table.insert_ok (hcheck row List.mem_cons_self) hfresh rfl
    have hrow : insertRow m row t = .ok ⟨t.rows ++ [row], max t.counter row.sequence⟩ := by
      unfold insertRow
      rw [hinsert]
      rfl
    have hrest : rows.foldlM (fun t row => insertRow m row t)
        ⟨t.rows ++ [row], max t.counter row.sequence⟩
          = .ok ⟨t.rows ++ [row] ++ rows, largestOf (max t.counter row.sequence) rows⟩ :=
      foldlM_insertRow (fun r hr => hcheck r (List.mem_cons_of_mem row hr)) (by simpa using hkeys)
    rw [List.append_assoc] at hrest
    rw [List.foldlM_cons, hrow]
    exact hrest

/-! ## The migration -/

/-- A database of version 3 with the table `t`. -/
structure Version3 (db : AuditDatabase) (t : AuditTable) : Prop where
  userVersion : db.userVersion = 3
  ledger : ∀ entry ∈ db.schemaMigrations, entry.1 ≤ 3
  table : db.auditEvents = some t
  alone : db.auditEventsV3 = none
  declared : (auditEvents 17).Holds t

/-- The table after the migration, whose entry of `sqlite_sequence` is made from its rows. -/
def extended (t : AuditTable) : AuditTable :=
  let rows := select (fun _ => true) AuditEventRow.sequence t.rows
  ⟨rows, largestOf 0 rows⟩

theorem rows_extended (t : AuditTable) : t.rows.Perm (extended t).rows := by
  have hperm := select_perm (fun _ => true) AuditEventRow.sequence t.rows
  rwa [List.filter_eq_self.2 fun _ _ => rfl] at hperm

section Migrate

open AuditDatabase (copyAuditEvents extendAuditRejections recordMigration apply applyIfMissing
  migrate)

variable {db : AuditDatabase} {t : AuditTable}

theorem run_get (db : AuditDatabase) :
    (get : Migrating AuditDatabase).run.run db = (.ok db, db) := rfl

theorem run_copyAuditEvents (h : (auditEvents 17).Holds t) {version : ℕ}
    {ledger : List (ℕ × String)} :
    copyAuditEvents.run.run ⟨version, ledger, some {}, some t⟩
      = (.ok (), ⟨version, ledger, some (extended t), some t⟩) := by
  have hperm := rows_extended t
  have hcheck : ∀ row ∈ (extended t).rows, (auditEvents latestMaximumRejection).check row = true :=
    fun row hrow => auditEvents_check_mono (by decide) (h.checked (hperm.mem_iff.2 hrow))
  have hkeys : ((({} : AuditTable).rows ++ (extended t).rows).map AuditEventRow.sequence).Nodup :=
    (hperm.map AuditEventRow.sequence).nodup_iff.1 h.keys_unique
  have hcopy : (select (fun _ => true) AuditEventRow.sequence t.rows).foldlM
      (fun t row => insertRow latestMaximumRejection row t) {} = .ok (extended t) :=
    foldlM_insertRow hcheck hkeys
  unfold copyAuditEvents
  simp only [bind, ExceptT.bind, ExceptT.mk, ExceptT.bindCont, StateT.bind, ExceptT.run, StateT.run,
    get, getThe, MonadStateOf.get, liftM, monadLift, MonadLift.monadLift, ExceptT.lift, StateT.get,
    Functor.map, StateT.map, pure, Option.elim_some, Option.getD_some, hcopy]
  rfl

theorem run_extendAuditRejections (h : (auditEvents 17).Holds t) {version : ℕ}
    {ledger : List (ℕ × String)} :
    extendAuditRejections.run.run ⟨version, ledger, some t, none⟩
      = (.ok (), ⟨version, ledger, some (extended t), none⟩) := by
  have hrename : AuditDatabase.renameAuditEvents.run.run ⟨version, ledger, some t, none⟩
      = (.ok (), ⟨version, ledger, none, some t⟩) := rfl
  have hcreate : AuditDatabase.createAuditEvents.run.run ⟨version, ledger, none, some t⟩
      = (.ok (), ⟨version, ledger, some {}, some t⟩) := rfl
  refine (run_bind_ok hrename).trans <| (run_bind_ok hcreate).trans <|
    (run_bind_ok (run_copyAuditEvents h)).trans ?_
  rfl

theorem run_recordMigration {db : AuditDatabase} {version : ℕ}
    (h : ∀ entry ∈ db.schemaMigrations, entry.1 < version) (name : String) :
    (recordMigration version name).run.run db
      = (.ok (), { db with schemaMigrations := db.schemaMigrations ++ [(version, name)] }) := by
  have hfresh : (db.schemaMigrations.any fun entry => entry.1 = version) = false := by
    rw [List.any_eq_false]
    exact fun entry hentry heq => absurd (of_decide_eq_true heq) (h entry hentry).ne
  unfold recordMigration
  simp only [bind, ExceptT.bind, ExceptT.mk, ExceptT.bindCont, StateT.bind, ExceptT.run, StateT.run,
    get, getThe, MonadStateOf.get, liftM, monadLift, MonadLift.monadLift, ExceptT.lift, StateT.get,
    Functor.map, StateT.map, pure, hfresh]
  rfl

/-- A database of version 3 after the migration. -/
def migrated (db : AuditDatabase) (t : AuditTable) : AuditDatabase where
  userVersion := 4
  schemaMigrations := db.schemaMigrations ++ [(4, "extend_transmission_audit_rejections")]
  auditEvents := some (extended t)

theorem run_applyIfMissing_done {migration : AuditDatabase.Migration} {db : AuditDatabase}
    (h : migration.version ≤ db.userVersion) :
    (applyIfMissing migration).run.run db = (.ok (), db) := by
  refine (run_bind_ok (run_get _)).trans ?_
  dsimp only
  rw [if_pos h]
  rfl

theorem run_applyIfMissing_next {migration : AuditDatabase.Migration} {db : AuditDatabase}
    (h : migration.version = db.userVersion + 1) :
    (applyIfMissing migration).run.run db = (apply migration).run.run db := by
  have hmissing : ¬ migration.version ≤ db.userVersion := by omega
  refine (run_bind_ok (run_get _)).trans ?_
  dsimp only
  rw [if_neg hmissing, if_neg (not_not.2 h)]

theorem migrate_version3 (h : Version3 db t) : migrate.run.run db = (.ok (), migrated db t) := by
  obtain ⟨version, ledger, events, old⟩ := db
  obtain ⟨rfl, hledger, rfl, rfl, hdeclared⟩ := h
  have hrecord : (recordMigration 4 "extend_transmission_audit_rejections").run.run
      ⟨3, ledger, some (extended t), none⟩
        = (.ok (), ⟨3, ledger ++ [(4, "extend_transmission_audit_rejections")],
          some (extended t), none⟩) := by
    refine run_recordMigration (fun entry hentry => ?_) _
    exact Nat.lt_succ_of_le (hledger entry hentry)
  have happly : (apply ⟨4, "extend_transmission_audit_rejections", extendAuditRejections⟩).run.run
      ⟨3, ledger, some t, none⟩ = (.ok (), migrated ⟨3, ledger, some t, none⟩ t) := by
    refine (run_bind_ok rfl).trans (run_tryCatch_ok ?_)
    refine (run_bind_ok (run_extendAuditRejections hdeclared)).trans ?_
    exact (run_bind_ok hrecord).trans rfl
  have hskip : ∀ (version : ℕ) name sql, version ≤ 3 →
      (applyIfMissing ⟨version, name, sql⟩).run.run ⟨3, ledger, some t, none⟩
        = (.ok (), ⟨3, ledger, some t, none⟩) := fun version name sql hle =>
    run_applyIfMissing_done hle
  have hlast := (run_applyIfMissing_next rfl).trans happly
  unfold migrate AuditDatabase.migrations
  refine (run_bind_ok (run_get _)).trans ?_
  dsimp only
  rw [if_neg (by decide)]
  refine (run_bind_ok (hskip 1 _ _ (by omega))).trans <|
    (run_bind_ok (hskip 2 _ _ (by omega))).trans <|
    (run_bind_ok (hskip 3 _ _ (by omega))).trans ?_
  exact (run_bind_ok hlast).trans rfl

end Migrate

/-! ## The sequences afterwards -/

namespace AuditRun

/-- The sequences of the run are behind `c`. -/
structure Behind (c : ℤ) (r : AuditRun) : Prop where
  nonneg : 0 ≤ c
  rows_le : ∀ row ∈ r.repository.table.rows, row.sequence ≤ r.repository.table.counter
  le_counter : c ≤ r.repository.table.counter
  recorded : ∀ s ∈ r.recorded, c < s.sequence

variable {c : ℤ} {r : AuditRun}

theorem Behind.step (h : Behind c r) (op : AuditOp) : Behind c (r.step op) := by
  have hnonneg := h.nonneg
  have hle := h.le_counter
  rcases op with event | ⟨sequence, limit⟩ | ⟨cutoff, limit⟩ | limit
  · rcases hstore : store latestMaximumRejection event r.repository.table with _ | ⟨s, table⟩
    · simp only [AuditRun.step, AuditRepository.record, hstore]
      exact ⟨hnonneg, h.rows_le, hle, h.recorded⟩
    · obtain ⟨-, hs, rfl⟩ := of_store hstore h.rows_le
      simp only [AuditRun.step, AuditRepository.record, hstore]
      refine ⟨hnonneg, fun x hx => ?_, show c ≤ s by omega, fun x hx => ?_⟩
      · rcases List.mem_append.1 hx with hx | hx
        · exact (h.rows_le x hx).trans (show r.repository.table.counter ≤ s by omega)
        · rw [List.mem_singleton.1 hx]
          exact le_refl s
      · rcases List.mem_append.1 hx with hx | hx
        · exact h.recorded x hx
        · rw [List.mem_singleton.1 hx]
          show c < s.toNat
          omega
  · exact h
  · obtain ⟨expired, htable⟩ := erase_rows r.repository cutoff limit
    refine ⟨hnonneg, ?_, ?_, h.recorded⟩ <;> simp only [AuditRun.step, htable]
    · exact fun row hrow => h.rows_le row (List.mem_of_mem_filter hrow)
    · exact hle
  · simp only [AuditRun.step]
    split
    · exact ⟨hnonneg, h.rows_le, hle, h.recorded⟩
    · exact h

theorem Behind.foldl : ∀ (ops : List AuditOp) {r : AuditRun}, Behind c r →
    Behind c (ops.foldl AuditRun.step r)
  | [], _, h => h
  | op :: ops, _, h => (h.step op).foldl ops

/-- An event that every table takes. -/
def anyEvent : TransmissionAuditEvent where
  type := .started
  operation := .start
  occurredAt := 0
  correlationId := ⟨bytes "c", by decide⟩

theorem step_anyEvent (h : Behind c r) (hroom : r.repository.table.counter < maximumInteger) :
    (r.step (.record anyEvent)).repository.table.counter = r.repository.table.counter + 1
      ∧ (r.step (.record anyEvent)).recorded
        = r.recorded ++ [⟨(r.repository.table.counter + 1).toNat, anyEvent⟩] := by
  have hfresh : r.repository.table.counter + 1
      ∉ r.repository.table.rows.map AuditEventRow.sequence := by
    intro hmem
    obtain ⟨row, hrow, hsequence⟩ := List.mem_map.1 hmem
    have hle := h.rows_le row hrow
    omega
  have hinsert : (auditEvents latestMaximumRejection).insert
      (auditEventRow anyEvent (r.repository.table.counter + 1)) r.repository.table
        = .ok _ := Table.insert_ok rfl hfresh rfl
  have htexts : (auditTexts (auditEventRow anyEvent 0)).forM bindText = .ok () := rfl
  have hroom' : ¬ (maximumInteger : ℤ) ≤ r.repository.table.counter := by omega
  have hstore : store latestMaximumRejection anyEvent r.repository.table
      = some (r.repository.table.counter + 1,
        ⟨r.repository.table.rows ++ [auditEventRow anyEvent (r.repository.table.counter + 1)],
          r.repository.table.counter + 1⟩) := by
    simp only [store, htexts, insertNext, largestSequence_eq h.rows_le, if_neg hroom', hinsert]
    rfl
  simp only [AuditRun.step, AuditRepository.record, hstore, and_self]

/-- Every number above the counter is handed out at some time. -/
theorem handed_out : ∀ {n : ℕ} {r : AuditRun}, Behind c r →
    r.repository.table.counter + n < maximumInteger →
      ∃ s ∈ ((List.replicate (n + 1) (AuditOp.record anyEvent)).foldl AuditRun.step r).recorded,
        (s.sequence : ℤ) = r.repository.table.counter + n + 1
  | 0, r, h, hroom => by
    have hnonneg := h.nonneg.trans h.le_counter
    obtain ⟨-, hrecorded⟩ := step_anyEvent h (by omega)
    refine ⟨⟨(r.repository.table.counter + 1).toNat, anyEvent⟩, ?_, ?_⟩
    · show _ ∈ (r.step (.record anyEvent)).recorded
      rw [hrecorded]
      exact List.mem_append_right _ List.mem_cons_self
    · show ((r.repository.table.counter + 1).toNat : ℤ) = _
      omega
  | n + 1, r, h, hroom => by
    obtain ⟨hcounter, -⟩ := step_anyEvent h (by omega)
    obtain ⟨s, hs, hsequence⟩ := handed_out (n := n) (h.step (.record anyEvent)) (by omega)
    refine ⟨s, hs, ?_⟩
    rw [hsequence, hcounter]
    omega

end AuditRun

/-- The repository after the migration. -/
def afterMigration (t : AuditTable) : AuditRun where
  repository := { table := extended t }
  lastSequence := 0

theorem behind_afterMigration (t : AuditTable) :
    (afterMigration t).Behind (extended t).counter := by
  obtain ⟨hnonneg, hrows⟩ := largestOf_le_iff.1 (le_refl (extended t).counter)
  exact ⟨hnonneg, hrows, le_refl _, by simp [afterMigration]⟩

/-- The migration keeps the rows with their sequences. No sequence that was handed out is handed
out again afterwards exactly if the rows reach up to all that were. -/
theorem migration_keeps_sequences_iff {db : AuditDatabase} {t : AuditTable} (h : Version3 db t)
    (hcounter : t.counter ≤ maximumInteger) {handedOut : Set ℕ}
    (hhanded : ∀ s ∈ handedOut, 0 < s ∧ (s : ℤ) ≤ t.counter) :
    AuditDatabase.migrate.run.run db = (.ok (), migrated db t)
      ∧ t.rows.Perm (extended t).rows
      ∧ ((∀ ops : List AuditOp, ∀ s ∈ (ops.foldl AuditRun.step (afterMigration t)).recorded,
          s.sequence ∉ handedOut)
        ↔ ∀ s ∈ handedOut, ∃ row ∈ t.rows, (s : ℤ) ≤ row.sequence) := by
  have hbehind := behind_afterMigration t
  have hreach : ∀ s ∈ handedOut, ((s : ℤ) ≤ (extended t).counter
      ↔ ∃ row ∈ t.rows, (s : ℤ) ≤ row.sequence) := by
    intro s hs
    have hpos := (hhanded s hs).1
    have hiff : (extended t).counter ≤ (s : ℤ) - 1
        ↔ 0 ≤ (s : ℤ) - 1 ∧ ∀ row ∈ (extended t).rows, row.sequence ≤ (s : ℤ) - 1 :=
      largestOf_le_iff
    constructor
    · intro hle
      by_contra hnone
      have hshort : (extended t).counter ≤ (s : ℤ) - 1 := by
        refine hiff.2 ⟨by omega, fun row hrow => ?_⟩
        by_contra hlong
        exact hnone ⟨row, (rows_extended t).mem_iff.2 hrow, by omega⟩
      omega
    · rintro ⟨row, hrow, hle⟩
      exact hle.trans (hbehind.rows_le row ((rows_extended t).mem_iff.1 hrow))
  refine ⟨migrate_version3 h, rows_extended t, fun hnew s hs => ?_, fun hrows ops x hx hmem => ?_⟩
  · by_contra hshort
    have hgap := mt (hreach s hs).1 hshort
    have hlast := (hhanded s hs).2
    obtain ⟨n, hn⟩ := Int.eq_ofNat_of_zero_le
      (show 0 ≤ (s : ℤ) - (extended t).counter - 1 by omega)
    obtain ⟨x, hx, hsequence⟩ := AuditRun.handed_out (n := n) hbehind
      (show (extended t).counter + n < maximumInteger by omega)
    refine hnew _ x hx ?_
    have heq : (x.sequence : ℤ) = s := hsequence.trans
      (show (extended t).counter + n + 1 = (s : ℤ) by omega)
    rwa [Int.ofNat_inj.1 heq]
  · have hlt := (hbehind.foldl ops).recorded x hx
    have hle := (hreach x.sequence hmem).2 (hrows x.sequence hmem)
    omega

/-! ## Samples -/

section Samples

open AuditRun (anyEvent)

/-- A database of version 3 whose first sequence was handed out. -/
def firstHandedOut (rows : List AuditEventRow) : AuditDatabase where
  userVersion := 3
  schemaMigrations := [(1, "create_sessions"), (2, "create_authoritative_memberships"),
    (3, "create_transmission_audit_events")]
  auditEvents := some ⟨rows, 1⟩

/-- The event is still there. -/
def firstKept : List AuditEventRow := [auditEventRow anyEvent 1]

theorem version3_firstHandedOut {rows : List AuditEventRow}
    (h : (auditEvents 17).Holds ⟨rows, 1⟩) : Version3 (firstHandedOut rows) ⟨rows, 1⟩ :=
  ⟨rfl, by simp [firstHandedOut], rfl, rfl, h⟩

theorem holds_firstKept : (auditEvents 17).Holds ⟨firstKept, 1⟩ :=
  ⟨List.nodup_singleton _, List.forall_mem_singleton.2 ⟨rfl, rfl⟩⟩

theorem migration_keeps_firstKept :
    AuditDatabase.migrate.run.run (firstHandedOut firstKept)
        = (.ok (), migrated (firstHandedOut firstKept) ⟨firstKept, 1⟩)
      ∧ ∀ ops : List AuditOp,
        ∀ s ∈ (ops.foldl AuditRun.step (afterMigration ⟨firstKept, 1⟩)).recorded,
          s.sequence ≠ 1 := by
  have hhanded : ∀ s ∈ ({1} : Set ℕ), 0 < s ∧ (s : ℤ) ≤ 1 := by
    rintro s rfl
    decide
  obtain ⟨hmigrate, -, hiff⟩ := migration_keeps_sequences_iff
    (version3_firstHandedOut holds_firstKept) (by decide) hhanded
  refine ⟨hmigrate, fun ops s hs heq => hiff.2 ?_ ops s hs heq⟩
  rintro s rfl
  exact ⟨auditEventRow anyEvent 1, List.mem_cons_self, le_refl _⟩

/-- The only event is recorded and then erased; after the migration the next one gets its
sequence. -/
theorem migration_hands_out_again :
    (∃ t, store 17 anyEvent {} = some (1, t)
        ∧ eraseAuditEventsBefore t 1000000 1 = .ok (1, ⟨[], 1⟩))
      ∧ Version3 (firstHandedOut []) ⟨[], 1⟩
      ∧ AuditDatabase.migrate.run.run (firstHandedOut [])
        = (.ok (), migrated (firstHandedOut []) ⟨[], 1⟩)
      ∧ ((afterMigration ⟨[], 1⟩).step (.record anyEvent)).recorded = [⟨1, anyEvent⟩] := by
  have hversion : Version3 (firstHandedOut []) ⟨[], 1⟩ :=
    version3_firstHandedOut ⟨List.nodup_nil, List.forall_mem_nil _⟩
  exact ⟨⟨_, rfl, rfl⟩, hversion, migrate_version3 hversion, rfl⟩

end Samples

end VoxTree

import VoxTree.Proofs.LoadedContext
import VoxTree.Proofs.SameContext

/-!
# The repository keeps contexts

An update of a context that the tables can hold succeeds exactly if what is stored of its owner
reads as an earlier version (`Storable.succeeds_iff`). Then the same context is read back, which is
answered the same, and no other owner's has changed; otherwise nothing has
(`ensures_upsertIfNewer`).
-/

namespace VoxTree

open Relation Results MembershipTables

namespace SqliteControlPlaneRepository

/-- What is stored of the owner reads as an earlier version. -/
def Superseded (t : MembershipTables) (owner : PlayerId) (version : ℕ) : Prop :=
  ∀ row ∈ t.contexts, row.ownerPlayerId = owner.value →
    ∃ stored, versionFromText row.version = .ok stored ∧ stored < version

/-! ## The version check -/

section Version

variable {t : MembershipTables} {owner : PlayerId} {version : ℕ}

/-- An owner has one context. -/
theorem context_unique (h : t.Declared) {row row' : ContextRow} (hr : row ∈ t.contexts)
    (hr' : row' ∈ t.contexts) (howner : row.ownerPlayerId = row'.ownerPlayerId) : row = row' :=
  List.inj_on_of_nodup_map h.contexts.keys_unique hr hr' howner

theorem readText_eq {text text' : Bytes} (h : readText text = .ok text') : text' = text := by
  unfold readText at h
  split_ifs at h
  exact (Except.ok.inj h).symm

theorem readText_of_version {text : Bytes} {stored : ℕ} (h : versionFromText text = .ok stored) :
    readText text = .ok text := by
  refine if_neg ?_
  rintro rfl
  cases h

theorem notNewer_eq_false_iff (h : t.Declared) (howner : Kept owner.value) :
    notNewer t owner version = .ok false ↔ Superseded t owner version := by
  have hbind : bindText owner.value = .ok () := if_neg (Nat.not_lt.2 howner.length)
  rcases hfind : t.contexts.find? (fun row => row.ownerPlayerId = owner.value) with _ | row
  · have hnone : notNewer t owner version = .ok false := by
      unfold notNewer
      rw [hbind, hfind]
      rfl
    refine ⟨fun _ row hrow hown => ?_, fun _ => hnone⟩
    exact absurd (decide_eq_true hown) (List.find?_eq_none.1 hfind row hrow)
  have hrow : row ∈ t.contexts := List.mem_of_find?_eq_some hfind
  have hown : row.ownerPlayerId = owner.value := by
    simpa using List.find?_some hfind
  have hread : notNewer t owner version
      = (readText row.version >>= fun text => versionFromText text >>= fun stored =>
        .ok (decide (version ≤ stored))) := by
    unfold notNewer
    rw [hbind, hfind]
    rfl
  rw [hread]
  constructor
  · intro hread row' hrow' hown'
    obtain rfl := context_unique h hrow hrow' (hown.trans hown'.symm)
    obtain ⟨text, htext, hread⟩ := ok_bind hread
    obtain ⟨stored, hstored, hread⟩ := ok_bind hread
    have hlt := of_decide_eq_false (Except.ok.inj hread)
    rw [readText_eq htext] at hstored
    exact ⟨stored, hstored, Nat.not_le.1 hlt⟩
  · intro hsuperseded
    obtain ⟨stored, hstored, hlt⟩ := hsuperseded row hrow hown
    refine bind_ok (readText_of_version hstored) (bind_ok hstored ?_)
    exact congrArg Except.ok (decide_eq_false (Nat.not_le.2 hlt))

end Version

/-! ## The transaction -/

section Upsert

variable {t : MembershipTables} {d : MembershipDatabase} {owner : PlayerId}
  {context : AuthoritativeMembershipContext}

/-- The tables after a successful update. -/
def replaced (owner : PlayerId) (context : AuthoritativeMembershipContext)
    (t : MembershipTables) : MembershipTables :=
  written owner context (t.restrict fun o => o ≠ owner.value)

theorem fresh_restrict (owner : Bytes) (t : MembershipTables) :
    Fresh owner (t.restrict fun o => o ≠ owner) := by
  unfold Fresh MembershipTables.restrict
  simp [List.filter_filter]

/-- The version check leaves the connection as it is. -/
theorem run_notNewer {c : Connection} {version : ℕ} {r : Except PersistenceException Bool}
    (h : notNewer c.tables owner version = r) :
    (Sql.reading fun t => notNewer t owner version).run.run c = (r, c) := by
  rw [← h]
  rfl

theorem Storable.run_replaceIfNewer (h : Storable owner context) (ht : t.Declared)
    (hsuperseded : Superseded t owner context.snapshot.version) :
    (replaceIfNewer owner context).run.run ⟨t, some t⟩
      = (.ok none, ⟨replaced owner context t, none⟩) := by
  have hcheck : notNewer t owner context.snapshot.version = .ok false :=
    (notNewer_eq_false_iff ht h.owner_kept).2 hsuperseded
  have hdelete : (Sql.deleteContext owner).run.run ⟨t, some t⟩
      = (.ok (), ⟨t.restrict fun o => o ≠ owner.value, some t⟩) := by
    rw [← ht.deleteContext_eq]
    rfl
  have hpersist : (persistMembershipContext owner context).run.run
      ⟨t.restrict fun o => o ≠ owner.value, some t⟩
        = (.ok (), ⟨replaced owner context t, some t⟩) := by
    have hdeclared := ht.restrict fun o => o ≠ owner.value
    exact h.run_persistMembershipContext hdeclared (fresh_restrict _ _)
  refine (run_bind_ok (run_notNewer hcheck)).trans ?_
  refine (run_bind_ok (run_bindTexts ?_)).trans ?_
  · simpa using h.owner_kept.length
  refine (run_bind_ok hdelete).trans ((run_bind_ok hpersist).trans ?_)
  rfl

theorem Storable.superseded_of_replaceIfNewer (h : Storable owner context) (ht : t.Declared)
    (hok : ((replaceIfNewer owner context).run.run ⟨t, some t⟩).1 = .ok none) :
    Superseded t owner context.snapshot.version := by
  refine (notNewer_eq_false_iff ht h.owner_kept).1 ?_
  rcases hcheck : notNewer t owner context.snapshot.version with e | newer
  · rw [show (replaceIfNewer owner context).run.run ⟨t, some t⟩ = _ from
      run_bind_error (run_notNewer hcheck)] at hok
    cases hok
  · cases newer
    · rfl
    · rw [show (replaceIfNewer owner context).run.run ⟨t, some t⟩ = _ from
        run_bind_ok (run_notNewer hcheck)] at hok
      cases hok

/-- An update of the owner's context runs in a transaction. -/
theorem run_upsertIfNewer (howned : (context.snapshot.find owner).isSome = true) :
    (upsertIfNewer owner context).run.run d.connection
      = (MonadExcept.tryCatch (replaceIfNewer owner context) fun e => do
          Sql.rollback
          throw e).run.run ⟨d.tables, some d.tables⟩ := by
  obtain ⟨m, hm⟩ := Option.isSome_iff_exists.1 howned
  unfold upsertIfNewer
  rw [hm]
  exact run_bind_ok rfl

theorem Storable.succeeds_iff (h : Storable owner context) :
    ((upsertIfNewer owner context).run.run d.connection).1 = .ok none
      ↔ Superseded d.tables owner context.snapshot.version := by
  rw [run_upsertIfNewer h.owned]
  constructor
  · intro hok
    refine h.superseded_of_replaceIfNewer d.declared ?_
    rcases hrun : (replaceIfNewer owner context).run.run ⟨d.tables, some d.tables⟩ with ⟨e | r, c⟩
    · rw [run_tryCatch_error hrun] at hok
      cases hok
    · rw [run_tryCatch_ok hrun] at hok
      exact hok
  · intro hsuperseded
    rw [run_tryCatch_ok (h.run_replaceIfNewer d.declared hsuperseded)]

/-- The connection after a successful update. -/
theorem Storable.run_succeeds (h : Storable owner context)
    (hsuperseded : Superseded d.tables owner context.snapshot.version) :
    (upsertIfNewer owner context).run.run d.connection
      = (.ok none, ⟨replaced owner context d.tables, none⟩) := by
  rw [run_upsertIfNewer h.owned]
  exact run_tryCatch_ok (h.run_replaceIfNewer d.declared hsuperseded)

end Upsert

/-! ## What is read back -/

/-- Both contexts of the owner are answered the same. -/
structure AnsweredSame (owner : PlayerId) (context context' : AuthoritativeMembershipContext) :
    Prop where
  resolve : ∀ request restrictions,
    RecipientResolver.resolve context.snapshot context.rolePolicy request restrictions
      = RecipientResolver.resolve context'.snapshot context'.rolePolicy request restrictions
  derive : ∀ (s : Store) policy sessionId deviceId now,
    SameGrant
      (VoiceGrantAuthorizationService.derive (s.holding owner context) policy sessionId deviceId
        now)
      (VoiceGrantAuthorizationService.derive (s.holding owner context') policy sessionId
        deviceId now)
  activate : ∀ (s : Store) (ω : Type) (observer : LifecycleObserver ω) transmission sessionId
    deviceId startedAt w,
    ((s.holding owner context).activate observer transmission sessionId deviceId startedAt w).1
      = ((s.holding owner context').activate observer transmission sessionId deviceId startedAt
        w).1

theorem answeredSame (owner : PlayerId) {context context' : AuthoritativeMembershipContext}
    (h : context.Same context') : AnsweredSame owner context context' where
  resolve request _ := RecipientResolver.resolve_same h.snapshot h.policy (.refl _) request
  derive s policy sessionId deviceId now :=
    (Store.Same.holding s owner h).derive_same policy sessionId deviceId now
  activate s _ observer transmission sessionId deviceId startedAt w :=
    ((Store.Same.holding s owner h).activate_same observer transmission sessionId deviceId
      startedAt w).1

/-- What a successful update of the owner's context leaves behind. -/
structure Persisted (owner : PlayerId) (context : AuthoritativeMembershipContext)
    (c c' : Connection) : Prop where
  own : ∃ context', ((currentFor owner).run.run c').1 = .ok (some context')
    ∧ context.Same context' ∧ AnsweredSame owner context context'
  others : ∀ other ≠ owner, ((currentFor other).run.run c').1 = ((currentFor other).run.run c).1

theorem Storable.persisted {d : MembershipDatabase} {owner : PlayerId}
    {context : AuthoritativeMembershipContext} (h : Storable owner context) :
    Persisted owner context d.connection ⟨replaced owner context d.tables, none⟩ := by
  constructor
  · obtain ⟨context', hload, hsame⟩ := h.load_own (fresh_restrict owner.value d.tables)
    exact ⟨context', hload, hsame, answeredSame owner hsame⟩
  · intro other hne
    have hkeep : (fun o => decide (o ≠ owner.value)) other.value = true :=
      decide_eq_true fun heq => hne (StrongId.value_injective heq)
    show loadMembershipContext (replaced owner context d.tables) other
      = loadMembershipContext d.tables other
    rw [replaced, load_other hne, load_restrict hkeep]

/-- Every update leaves a database behind, and the same one unless it succeeds. An update of a
context that the tables can hold succeeds exactly if what is stored of the owner reads as an earlier
version; then the same context is read back, and the other owners' as before. -/
theorem upsertIfNewer_preserves (d : MembershipDatabase) (owner : PlayerId)
    (context : AuthoritativeMembershipContext) :
    (∃ d' : MembershipDatabase,
        ((upsertIfNewer owner context).run.run d.connection).2 = d'.connection)
      ∧ (((upsertIfNewer owner context).run.run d.connection).1 ≠ .ok none →
        ((upsertIfNewer owner context).run.run d.connection).2 = d.connection)
      ∧ (Storable owner context →
        (((upsertIfNewer owner context).run.run d.connection).1 = .ok none
          ↔ Superseded d.tables owner context.snapshot.version)
        ∧ (((upsertIfNewer owner context).run.run d.connection).1 = .ok none →
          Persisted owner context d.connection
            ((upsertIfNewer owner context).run.run d.connection).2)) := by
  obtain ⟨hdatabase, hunchanged⟩ := ensures_upsertIfNewer d owner context
  refine ⟨hdatabase, hunchanged, fun h => ⟨h.succeeds_iff, fun hok => ?_⟩⟩
  rw [h.run_succeeds (h.succeeds_iff.1 hok)]
  exact h.persisted

/-! ## Samples -/

/-- A regular context of which no later version is stored is not accepted. -/
structure Refused (d : MembershipDatabase) (owner : PlayerId)
    (context : AuthoritativeMembershipContext) : Prop where
  regular : Regular owner context
  newer : ∀ row ∈ d.tables.contexts, row.ownerPlayerId = owner.value →
    ∀ stored, versionFromText row.version = .ok stored → stored < context.snapshot.version
  fails : ((upsertIfNewer owner context).run.run d.connection).1 ≠ .ok none

/-- An identifier longer than SQLite's texts is not accepted. -/
theorem fails_of_long (d : MembershipDatabase) {owner : PlayerId}
    (context : AuthoritativeMembershipContext) (h : maximumTextLength < owner.value.length) :
    ((upsertIfNewer owner context).run.run d.connection).1 ≠ .ok none := by
  intro hok
  rcases hfind : context.snapshot.find owner with _ | m
  · unfold upsertIfNewer at hok
    rw [hfind] at hok
    cases hok
  have hcheck : notNewer d.tables owner context.snapshot.version
      = .error (.persistence "A persisted identifier exceeds SQLite's text length limit.") := by
    have hbind : bindText owner.value
        = .error (.persistence "A persisted identifier exceeds SQLite's text length limit.") :=
      if_pos h
    unfold notNewer
    rw [hbind]
    rfl
  have hrun : (replaceIfNewer owner context).run.run ⟨d.tables, some d.tables⟩ = _ :=
    run_bind_error (run_notNewer hcheck)
  rw [run_upsertIfNewer (Option.isSome_iff_exists.2 ⟨m, hfind⟩), run_tryCatch_error hrun] at hok
  cases hok

section Samples

open Sample

/-- Tables without rows. -/
def emptyDatabase : MembershipDatabase where
  tables := {}
  declared := by
    constructor <;> exact ⟨List.nodup_nil, nofun⟩

/-- A context that is not of a version the repository writes. -/
def unreadDatabase : MembershipDatabase where
  tables := { contexts := [⟨alice.value, bytes "x", bytes "hierarchy"⟩] }
  declared := contextTable_admits {} _ ⟨alice.value, bytes "x", bytes "hierarchy"⟩
    emptyDatabase.declared rfl

/-- The name of a scope is a NUL. -/
def nulContext : AuthoritativeMembershipContext :=
  { context 1 (by decide) with
    snapshot := { snapshot 1 (by decide) with
      hierarchy := { hierarchy with
        scopes := [⟨.team, [0], 1, none⟩]
        scopes_valid := by decide }
      paths_valid := by decide } }

/-- A context with one member. -/
def ownedBy (p : PlayerId) : AuthoritativeMembershipContext :=
  { context 1 (by decide) with
    snapshot := { snapshot 1 (by decide) with
      memberships := [member p]
      players_unique := List.nodup_singleton _
      paths_valid := List.forall_mem_singleton.2
        ((snapshot 1 (by decide)).paths_valid (member alice) List.mem_cons_self)
      sorted := List.pairwise_singleton _ _ } }

/-- A name of one byte more than SQLite's texts may have. -/
def longPlayer : PlayerId := ⟨List.replicate (maximumTextLength + 1) 0x61, by simp⟩

theorem regular_context : Regular alice (context 1 (by decide)) where
  owned := by decide
  roleIds_unique := by decide
  transmit_unique := by decide
  receive_unique := by decide
  limits := by decide
  identifiers := by decide
  version := by decide
  priorities := by decide

theorem storable_context : Storable alice (context 1 (by decide)) where
  toRegular := regular_context
  scope_names := by decide
  lengths := by decide

theorem regular_nulContext : Regular alice nulContext where
  owned := by decide
  roleIds_unique := by decide
  transmit_unique := by decide
  receive_unique := by decide
  limits := by decide
  identifiers := by decide
  version := by decide
  priorities := by decide

theorem regular_ownedBy {p : PlayerId} (h : 0 ∉ p.value) : Regular p (ownedBy p) where
  owned := by
    have hmem : member p ∈ (ownedBy p).snapshot.memberships := List.mem_singleton_self _
    rw [((ownedBy p).snapshot.find_iff p).2 ⟨hmem, rfl⟩]
    rfl
  roleIds_unique := List.forall_mem_singleton.2 (List.nodup_singleton _)
  transmit_unique := regular_context.transmit_unique
  receive_unique := regular_context.receive_unique
  limits := regular_context.limits
  identifiers := by
    intro id hid
    rcases mem_identifiers.1 hid with rfl | hid | hid | hid | hid | hid | ⟨m, hm, hid⟩
    · exact h
    · exact regular_context.identifiers id (mem_identifiers.2 (.inr (.inl hid)))
    · exact regular_context.identifiers id (mem_identifiers.2 (.inr (.inr (.inl hid))))
    · exact regular_context.identifiers id (mem_identifiers.2 (.inr (.inr (.inr (.inl hid)))))
    · exact regular_context.identifiers id
        (mem_identifiers.2 (.inr (.inr (.inr (.inr (.inl hid))))))
    · exact regular_context.identifiers id
        (mem_identifiers.2 (.inr (.inr (.inr (.inr (.inr (.inl hid)))))))
    · obtain rfl := List.mem_singleton.1 hm
      rcases hid with rfl | ⟨roleId, hrole, rfl⟩
      · exact h
      · exact regular_context.identifiers _ (mem_identifiers.2
          (.inr (.inr (.inr (.inr (.inr (.inr ⟨member alice, List.mem_cons_self,
            .inr ⟨roleId, hrole, rfl⟩⟩)))))))
  version := regular_context.version
  priorities := regular_context.priorities

theorem upsertIfNewer_preserves_sample :
    Persisted alice (context 1 (by decide)) emptyDatabase.connection
      ((upsertIfNewer alice (context 1 (by decide))).run.run emptyDatabase.connection).2 := by
  have hpreserves := (upsertIfNewer_preserves emptyDatabase alice (context 1 (by decide))).2.2
    storable_context
  exact hpreserves.2 (hpreserves.1.2 fun row hrow => absurd hrow List.not_mem_nil)

/-- Three regular contexts that are not accepted: a scope's name is a NUL, what is stored is of no
version, an identifier is too long. -/
theorem upsertIfNewer_refuses : Refused emptyDatabase alice nulContext
    ∧ Refused unreadDatabase alice (context 1 (by decide))
    ∧ Refused emptyDatabase longPlayer (ownedBy longPlayer) := by
  refine ⟨⟨regular_nulContext, nofun, by decide +kernel⟩,
    ⟨regular_context, ?_, by decide +kernel⟩, ⟨regular_ownedBy ?_, nofun, fails_of_long _ _ ?_⟩⟩
  · rintro row hrow - stored hstored
    obtain rfl := List.mem_singleton.1 hrow
    cases hstored
  · intro hmem
    cases (List.mem_replicate.1 hmem).2
  · show maximumTextLength < (List.replicate (maximumTextLength + 1) (0x61 : UInt8)).length
    rw [List.length_replicate]
    exact Nat.lt_succ_self _

end Samples

end SqliteControlPlaneRepository

end VoxTree

import VoxTree.Administration
import VoxTree.Proofs.FailClosed
import VoxTree.Proofs.Routing

/-!
# Whom a start reaches after an edit

While every context lists as listening only players whose own context has them listen in the same
place (`Store.Agrees`), a start reaches only these. An edit keeps that if no other player's context
lists its subject as listening anywhere but where the edit leaves him.
-/

namespace VoxTree

open Machine Network Results

variable {ω ρ : Type}

/-! ## What the steps store -/

namespace TransmissionApplicationService

/-- A started transmission reaches whom the sender's context resolves to. -/
theorem start_resolves {observer : LifecycleObserver ω} {s : Store}
    {command : StartTransmissionCommand} {now : TimePoint} {allowed : Bool} {id : TransmissionId}
    {w : ω} {t : ActiveTransmission}
    (h : (start observer s command now allowed id w).1 = .ok t) :
    ∃ context version, s.memberships[t.authorization.senderPlayerId]? = some context
      ∧ RecipientResolver.resolve context.snapshot context.rolePolicy
          ⟨t.authorization.senderPlayerId, t.authorization.scope, version⟩
        = .ok t.authorization.recipients := by
  unfold start at h
  split at h
  · cases h
  split at h
  · cases h
  rename_i transmission hauthorized
  have hactivated : (s.activate observer transmission command.sessionId command.deviceId now w).1
      = .ok t := by
    rcases hactivate : (s.activate observer transmission command.sessionId command.deviceId now
      w).1 with e | t' <;> simp only [hactivate, Except.mapError] at h
    · cases h
    · exact congrArg Except.ok (Except.ok.inj h)
  obtain ⟨rfl, -⟩ := Store.checkActivation_ok (activate_ok hactivated)
  unfold authorizeStart at hauthorized
  split at hauthorized
  · cases hauthorized
  split at hauthorized
  · cases hauthorized
  rename_i context hcontext
  split at hauthorized
  · cases hauthorized
  rename_i recipients hresolve
  rw [← Except.ok.inj hauthorized]
  exact ⟨context, command.membershipVersion, hcontext, hresolve⟩

end TransmissionApplicationService

namespace ControlPlane

variable {plane : ControlPlane ω ρ} {s : ControlPlaneState ω ρ} {now : TimePoint}

theorem startAnswer_resolves {command : StartTransmissionCommand} {t : ActiveTransmission}
    (h : plane.startAnswer s command now = .ok (.ok t)) :
    ∃ context version, s.store.memberships[t.authorization.senderPlayerId]? = some context
      ∧ RecipientResolver.resolve context.snapshot context.rolePolicy
          ⟨t.authorization.senderPlayerId, t.authorization.scope, version⟩
        = .ok t.authorization.recipients := by
  have hensures : Ensures (plane.transmissions.start command now) s fun r _ =>
      ∀ t, r = .ok (.ok t) → ∃ context version,
        s.store.memberships[t.authorization.senderPlayerId]? = some context
          ∧ RecipientResolver.resolve context.snapshot context.rolePolicy
              ⟨t.authorization.senderPlayerId, t.authorization.scope, version⟩
            = .ok t.authorization.recipients := by
    refine (allowed_ensures .start command.sessionId command.deviceId).bind
      (fun e s' _ t ht => by cases ht) ?_
    rintro allowed s' ⟨haudited, -⟩
    refine (auditing_ensures _).mono ?_
    rintro r s'' ⟨rfl, -, -⟩ t ht
    have hstart := TransmissionApplicationService.start_resolves (Except.ok.inj ht)
    rw [haudited] at hstart
    exact hstart
  exact hensures t h

theorem start_memberships (command : StartTransmissionCommand) :
    Ensures (plane.transmissions.start command now) s fun _ s' =>
      s'.store.memberships = s.store.memberships := by
  refine (start_ensures command).mono ?_
  rintro r s' (⟨hstore, -⟩ | ⟨t, -, hstore, -⟩) <;> rw [hstore]
  rfl

/-- What a replacement stores for its subject: his context with his own membership replaced by what
the body says, or nothing new. -/
structure Replaced (s : Store) (subject : PlayerId) (body : JsonObject)
    (memberships : Std.ExtTreeMap PlayerId AuthoritativeMembershipContext) : Prop where
  stored : ∃ current version snapshot replacement,
    s.memberships[subject]? = some current
    ∧ (∃ existing ∈ current.snapshot.memberships, existing.playerId = subject)
    ∧ replacement.playerId = subject
    ∧ replacedSnapshot version current.snapshot replacement = .ok snapshot
    ∧ memberships = s.memberships.insert subject ⟨snapshot, current.rolePolicy⟩
    ∧ stringField body (bytes "group_id") = some replacement.groupId.value
    ∧ stringField body (bytes "specialization_id") = some replacement.specializationId.value
    ∧ stringField body (bytes "team_id") = some replacement.teamId.value
    ∧ booleanField body (bytes "connected") = some replacement.connected
    ∧ booleanField body (bytes "can_receive_voice") = some replacement.canReceiveVoice

theorem replaceMembershipResponse_memberships (authenticated : RequestSession)
    (subject : PlayerId) (body : JsonObject) :
    Ensures (replaceMembershipResponse authenticated subject body plane.administration now) s
      fun _ s' => s'.store.memberships = s.store.memberships
        ∨ Replaced s.store subject body s'.store.memberships := by
  unfold replaceMembershipResponse
  split
  · exact .pure (.inl rfl)
  split
  · rename_i version group specialization team roles connected canReceive transmitMuted hversion
      hgroup hspecialization hteam hroles hconnected hreceive hmuted
    refine (reading_ensures _).bind (fun e s' h => .inl (by rw [h.2])) ?_
    rintro current s' ⟨hcurrent, rfl⟩
    rcases current with _ | current
    · exact .pure (.inl rfl)
    dsimp only
    split
    · exact .pure (.inl rfl)
    rename_i existing hexisting
    refine (identifier_ensures _).bind (fun e s'' h => .inl (by rw [h.1])) ?_
    rintro groupId s'' ⟨rfl, hgroupId⟩
    refine (identifier_ensures _).bind (fun e s' h => .inl (by rw [h.1])) ?_
    rintro specializationId s' ⟨rfl, hspecializationId⟩
    refine (identifier_ensures _).bind (fun e s'' h => .inl (by rw [h.1])) ?_
    rintro teamId s'' ⟨rfl, hteamId⟩
    split
    · exact .pure (.inl rfl)
    rename_i snapshot hsnapshot
    refine Ensures.tryCatch (R := fun _ s' => s'.store.memberships = s''.store.memberships
      ∨ Replaced s''.store subject body s'.store.memberships) ?_ (fun _ _ h => h) ?_
    · refine (replaceMembership_ensures _ _ _).bind ?_ ?_
      · rintro e s' ⟨-, ⟨hstore, -⟩ | ⟨ended, he, -⟩⟩
        · exact .inl (by rw [hstore])
        · cases he
      · rintro r s' ⟨-, ⟨hstore, e, he⟩ | ⟨ended, hended, hstore⟩⟩
        · obtain rfl := Except.ok.inj he
          exact .pure (.inl (by rw [hstore]))
        · obtain rfl := Except.ok.inj hended
          refine .pure (.inr ⟨current, version, snapshot, _, (Except.ok.inj hcurrent).symm, ?_, rfl,
            hsnapshot, congrArg Store.memberships hstore, ?_, ?_, ?_, hconnected, hreceive⟩)
          · exact ⟨existing, List.mem_of_find?_eq_some hexisting, by
              simpa using List.find?_some hexisting⟩
          · rw [hgroup, hgroupId _ rfl]
          · rw [hspecialization, hspecializationId _ rfl]
          · rw [hteam, hteamId _ rfl]
    · rintro e s' h
      cases e with
      | invalidArgument => exact .pure h
      | other => exact .throw h
  · exact .pure (.inl rfl)

end ControlPlane

/-! ## What the contexts agree about -/

namespace Store

variable {s s' : Store}

/-- The members of a replaced snapshot are the replacement and the others. -/
theorem mem_replacedSnapshot {version : ℕ} {snapshot snapshot' : MembershipSnapshot}
    {replacement : VoiceMembership}
    (h : replacedSnapshot version snapshot replacement = .ok snapshot')
    (hlisted : ∃ m ∈ snapshot.memberships, m.playerId = replacement.playerId)
    (m : VoiceMembership) :
    m ∈ snapshot'.memberships
      ↔ m = replacement ∨ m ∈ snapshot.memberships ∧ m.playerId ≠ replacement.playerId := by
  obtain ⟨hierarchy, -, hmake⟩ := Results.ok_bind h
  obtain ⟨-, -, hperm⟩ := MembershipSnapshot.make_ok hmake
  rw [hperm.mem_iff, List.mem_map]
  constructor
  · rintro ⟨m', hm', rfl⟩
    split_ifs with hplayer
    · exact .inl rfl
    · exact .inr ⟨hm', hplayer⟩
  · rintro (rfl | ⟨hm, hplayer⟩)
    · obtain ⟨m', hm', hplayer⟩ := hlisted
      exact ⟨m', hm', if_pos hplayer⟩
    · exact ⟨m, hm, if_neg hplayer⟩

/-- A player's own entry in his own context confirms itself. -/
theorem confirms_own {context : AuthoritativeMembershipContext} {m : VoiceMembership}
    (hcontext : s.memberships[m.playerId]? = some context) (hm : m ∈ context.snapshot.memberships)
    (hlistening : m.Listening) : s.Confirms m :=
  ⟨context, m, hcontext, (context.snapshot.find_iff _).2 ⟨hm, rfl⟩, hlistening, rfl, rfl, rfl⟩

/-- What confirms a player is his own context. -/
theorem Confirms.of_eq {m : VoiceMembership} (h : s.Confirms m)
    (heq : s'.memberships[m.playerId]? = s.memberships[m.playerId]?) : s'.Confirms m := by
  obtain ⟨context, own, hcontext, hfind, hrest⟩ := h
  exact ⟨context, own, heq.trans hcontext, hfind, hrest⟩

theorem Agrees.of_memberships (h : s.Agrees) (heq : s'.memberships = s.memberships) : s'.Agrees :=
  fun owner context m hcontext hm hlistening =>
    (h owner context m (heq ▸ hcontext) hm hlistening).of_eq (by rw [heq])

/-- A start in a store whose contexts agree reaches only players placed in the sender's node. -/
theorem Agrees.placed (h : s.Agrees) {t : AuthorizedTransmission}
    {context : AuthoritativeMembershipContext} {version : ℕ}
    (hcontext : s.memberships[t.senderPlayerId]? = some context)
    (hresolve : RecipientResolver.resolve context.snapshot context.rolePolicy
      ⟨t.senderPlayerId, t.scope, version⟩ = .ok t.recipients) :
    ∀ p ∈ t.recipients, s.Placed t p := by
  intro p hp
  obtain ⟨-, sender, hsender, hplayer, -, hrecipients⟩ :=
    RecipientResolver.resolve_iff.1 hresolve
  rw [hrecipients, RecipientResolver.mem_recipientsOf hsender] at hp
  obtain ⟨candidate, hcandidate, rfl, hhears⟩ := hp
  obtain ⟨own, ownMember, hown, hfind, hlistening, hgroup, hspecialization, hteam⟩ :=
    h _ _ _ hcontext hcandidate ⟨hhears.connected, hhears.can_receive⟩
  refine ⟨own, ownMember, context, sender, hown, hfind, hlistening, hcontext,
    (context.snapshot.find_iff _).2 ⟨hsender, hplayer⟩, ?_⟩
  rw [← hhears.same_node]
  cases hscope : t.scope <;> simp [scopeNodeId, hgroup, hspecialization, hteam]

/-- The contexts agree after a replacement that keeps what the others say of its subject. -/
theorem Agrees.replaced (h : s.Agrees) {subject : PlayerId} {body : JsonObject}
    (hreplaced : ControlPlane.Replaced s subject body s'.memberships)
    (hkept : ∀ m, s.ListedElsewhere subject m → KeepsListening body m) : s'.Agrees := by
  obtain ⟨current, version, snapshot, replacement, hcurrent, hlisted, rfl, hsnapshot, hstored,
    hgroup, hspecialization, hteam, hconnected, hreceive⟩ := hreplaced.stored
  have hmember := mem_replacedSnapshot hsnapshot hlisted
  have hnew : s'.memberships[replacement.playerId]? = some ⟨snapshot, current.rolePolicy⟩ := by
    rw [hstored, Std.ExtTreeMap.getElem?_insert_self]
  have hothers : ∀ {p : PlayerId}, p ≠ replacement.playerId →
      s'.memberships[p]? = s.memberships[p]? := by
    intro p hp
    rw [hstored, Std.ExtTreeMap.getElem?_insert, if_neg]
    exact fun hcmp => hp (Std.LawfulEqOrd.eq_of_compare hcmp).symm
  have hself : ∀ m : VoiceMembership, m.playerId = replacement.playerId →
      replacement.Listening → replacement.SamePath m → s'.Confirms m := by
    intro m hm hlistening hpath
    exact ⟨_, replacement, hm ▸ hnew, (snapshot.find_iff _).2 ⟨(hmember _).2 (.inl rfl), hm.symm⟩,
      hlistening, hpath⟩
  intro owner context m hcontext hm hlistening
  by_cases howner : owner = replacement.playerId
  · subst howner
    obtain rfl := Option.some.inj (hnew.symm.trans hcontext)
    rcases (hmember m).1 hm with rfl | ⟨hm, hplayer⟩
    · exact confirms_own hnew hm hlistening
    · exact (h _ _ m hcurrent hm hlistening).of_eq (hothers hplayer)
  · rw [hothers howner] at hcontext
    by_cases hplayer : m.playerId = replacement.playerId
    · have hkeeps := hkept m ⟨hplayer, hlistening, owner, context, howner, hcontext, hm⟩
      refine hself m hplayer ⟨?_, ?_⟩ ⟨?_, ?_, ?_⟩
      · exact Option.some.inj (hconnected.symm.trans hkeeps.connected)
      · exact Option.some.inj (hreceive.symm.trans hkeeps.can_receive)
      · exact StrongId.ext (Option.some.inj (hgroup.symm.trans hkeeps.group))
      · exact StrongId.ext (Option.some.inj (hspecialization.symm.trans hkeeps.specialization))
      · exact StrongId.ext (Option.some.inj (hteam.symm.trans hkeeps.team))
    · exact (h owner context m hcontext hm hlistening).of_eq (hothers hplayer)

/-- The contexts agree after a removal of somebody nobody else lists as listening. -/
theorem Agrees.removed (h : s.Agrees) {subject : PlayerId}
    (herased : s'.memberships = s.memberships.erase subject)
    (hkept : ∀ m, ¬s.ListedElsewhere subject m) : s'.Agrees := by
  have hothers : ∀ {p : PlayerId}, p ≠ subject → s'.memberships[p]? = s.memberships[p]? := by
    intro p hp
    rw [herased, Std.ExtTreeMap.getElem?_erase, if_neg]
    exact fun hcmp => hp (Std.LawfulEqOrd.eq_of_compare hcmp).symm
  intro owner context m hcontext hm hlistening
  by_cases howner : owner = subject
  · subst howner
    rw [herased, Std.ExtTreeMap.getElem?_erase_self] at hcontext
    cases hcontext
  · rw [hothers howner] at hcontext
    by_cases hplayer : m.playerId = subject
    · exact absurd ⟨hplayer, hlistening, owner, context, howner, hcontext, hm⟩ (hkept m)
    · exact (h owner context m hcontext hm hlistening).of_eq (hothers hplayer)

end Store

namespace ControlPlane

variable {plane : ControlPlane ω ρ} {s s' s₀ : ControlPlaneState ω ρ}

theorem administer_agrees {a : AdministrationStep} (h : s.store.Agrees)
    (hkept : ListenersKept s a) (hstep : plane.administer s a = some s') : s'.store.Agrees := by
  cases a with
  | replace authenticated subject body now =>
    obtain rfl := Option.some.inj hstep
    rcases replaceMembershipResponse_memberships authenticated subject body with hsame | hreplaced
    · exact h.of_memberships hsame
    · exact h.replaced hreplaced hkept
  | remove subject now correlationId =>
    obtain rfl := Option.some.inj hstep
    obtain ⟨-, -, hstore⟩ := removeMembership_ensures subject correlationId
    exact h.removed (congrArg Store.memberships hstore) hkept
  | start command now =>
    obtain rfl := Option.some.inj hstep
    exact h.of_memberships (start_memberships command)

/-- From contexts that agree, and as long as every edit leaves its subject listening wherever
another player's context lists him as listening, every accepted start reaches only players whose
own context places them in the sender's node and has them listen there. -/
theorem recipients_placed {as : List AdministrationStep}
    (hrun : Runs plane.administer ListenersKept s₀ as s) (h₀ : s₀.store.Agrees)
    {command : StartTransmissionCommand} {now : TimePoint} {t : ActiveTransmission}
    (hstart : plane.startAnswer s command now = .ok (.ok t)) :
    ∀ p ∈ t.authorization.recipients, s.store.Placed t.authorization p := by
  have hagrees : s.store.Agrees :=
    hrun.invariant (fun _ _ _ h hkept hstep => administer_agrees h hkept hstep) h₀
  obtain ⟨context, version, hcontext, hresolve⟩ := startAnswer_resolves hstart
  exact hagrees.placed hcontext hresolve

end ControlPlane

namespace Sample

def dora : PlayerId := ⟨bytes "dora", by decide⟩

/-- `dora` alone. -/
def doraSnapshot : MembershipSnapshot where
  version := 1
  hierarchy := hierarchy
  memberships := [member dora]
  version_pos := Nat.one_pos
  players_unique := by decide
  paths_valid := by decide
  sorted := by decide

def doraContext : AuthoritativeMembershipContext := ⟨doraSnapshot, rolePolicy⟩

/-- `alice` is logged in, she and `bob` have the same context, and `dora` has one of her own. -/
def teamStore : Store where
  sessions := Std.ExtTreeMap.insert ∅ session authenticated
  memberships :=
    ((Std.ExtTreeMap.insert ∅ alice (context 1 Nat.one_pos)).insert bob
      (context 1 Nat.one_pos)).insert dora doraContext

def teamState : ControlPlaneState (List LifecycleEvent) Unit where
  audited := ⟨teamStore, [], [], 0⟩
  outside := ()

def startTeam : StartTransmissionCommand where
  sessionId := session
  deviceId := device
  clientTransmissionId := clientTransmission
  scope := .team
  membershipVersion := 1
  correlationId := correlation

/-- What the start of `alice` makes active. -/
def startedTeam : ActiveTransmission := entryOf (numbered 0)

theorem teamStore_context {owner : PlayerId} {c : AuthoritativeMembershipContext}
    (h : teamStore.memberships[owner]? = some c) :
    c = context 1 Nat.one_pos ∨ owner = dora ∧ c = doraContext := by
  unfold teamStore at h
  rw [Std.ExtTreeMap.getElem?_insert, Std.ExtTreeMap.getElem?_insert,
    Std.ExtTreeMap.getElem?_insert] at h
  split_ifs at h with hdora
  · exact .inr ⟨(Std.LawfulEqOrd.eq_of_compare hdora).symm, (Option.some.inj h).symm⟩
  · exact .inl (Option.some.inj h).symm
  · exact .inl (Option.some.inj h).symm
  · simp at h

theorem teamStore_agrees : teamStore.Agrees := by
  intro owner c m hcontext hm hlistening
  have halice : teamStore.memberships[alice]? = some (context 1 Nat.one_pos) := by rfl
  have hbob : teamStore.memberships[bob]? = some (context 1 Nat.one_pos) := by rfl
  have hdora : teamStore.memberships[dora]? = some doraContext := by rfl
  rcases teamStore_context hcontext with rfl | ⟨-, rfl⟩
  · have hm : m = member alice ∨ m = member bob := by simpa [context, snapshot] using hm
    rcases hm with rfl | rfl
    · exact Store.confirms_own halice (by simp [context, snapshot]) hlistening
    · exact Store.confirms_own hbob (by simp [context, snapshot]) hlistening
  · obtain rfl : m = member dora := by simpa [doraContext, doraSnapshot] using hm
    exact Store.confirms_own hdora (by simp [doraContext, doraSnapshot]) hlistening

end Sample

namespace ControlPlane

open Sample

/-- `dora`, whom nobody else lists, is removed, and `alice` reaches her team. -/
theorem recipients_placed_team : ∃ s,
    Runs alicePlane.administer ListenersKept teamState [.remove dora 0 correlation] s
      ∧ teamState.store.memberships[dora]?.isSome ∧ s.store.memberships[dora]? = none
      ∧ ∀ p ∈ startedTeam.authorization.recipients, s.store.Placed startedTeam.authorization p := by
  have hkept : ListenersKept teamState (.remove dora 0 correlation) := by
    rintro m ⟨hplayer, -, owner, c, howner, hcontext, hm⟩
    obtain rfl := (teamStore_context hcontext).resolve_right fun hdora => howner hdora.1
    have hm : m = member alice ∨ m = member bob := by simpa [context, snapshot] using hm
    rcases hm with rfl | rfl <;> exact absurd hplayer (by decide)
  have hstart : alicePlane.startAnswer ((alicePlane.administration.removeMembership dora 0
      correlation).run.run teamState).2 startTeam 0 = .ok (.ok startedTeam) := by rfl
  exact ⟨_, .cons hkept rfl (.nil _), by rfl, by rfl,
    recipients_placed (.cons hkept rfl (.nil _)) teamStore_agrees hstart⟩

/-- `bob` is removed, which leaves him in the context of `alice`: her next start reaches him. -/
theorem removed_still_reached : ∃ s, teamState.store.Agrees
    ∧ Runs alicePlane.administer Free teamState [.remove bob 0 correlation] s
    ∧ alicePlane.startAnswer s startTeam 0 = .ok (.ok startedTeam)
    ∧ bob ∈ startedTeam.authorization.recipients ∧ s.store.memberships[bob]? = none
    ∧ ¬s.store.Placed startedTeam.authorization bob := by
  have hnone : ((alicePlane.administration.removeMembership bob 0 correlation).run.run
      teamState).2.store.memberships[bob]? = none := by rfl
  refine ⟨_, teamStore_agrees, .cons trivial rfl (.nil _), by rfl, by decide, hnone, ?_⟩
  rintro ⟨c, -, -, -, hcontext, -⟩
  rw [hnone] at hcontext
  cases hcontext

end ControlPlane

end VoxTree

import VoxTree.Proofs.ControlPlaneHttp
import VoxTree.Proofs.DirectoryKept
import VoxTree.Proofs.FailClosed

/-!
# Revalidating the directory

An entity tag names the version of a directory and not its group. A read that is answered with 304
is therefore about the directory the tag was given out with exactly where the actor is still in
the group he was in, and the two contents do not divide the same fields differently
(`directory_revalidation_iff`).
-/

namespace VoxTree

open Results Network DirectoryApplicationService

/-! ## Two reads of one service -/

/-- The service after some of its calls. -/
def DirectoryApplicationService.Reaches (d d' : DirectoryApplicationService) : Prop :=
  ∃ ops : List DirectoryOp, d' = ops.foldl DirectoryOp.call d

namespace DirectoryApplicationService.Reaches

variable {d d' d'' : DirectoryApplicationService}

theorem refl : d.Reaches d := ⟨[], rfl⟩

theorem trans (h : d.Reaches d') (h' : d'.Reaches d'') : d.Reaches d'' := by
  obtain ⟨ops, rfl⟩ := h
  obtain ⟨ops', rfl⟩ := h'
  exact ⟨ops ++ ops', by rw [List.foldl_append]⟩

theorem call (h : d.Reaches d') (op : DirectoryOp) : d.Reaches (op.call d') :=
  h.trans ⟨[op], rfl⟩

end DirectoryApplicationService.Reaches

theorem directoryLog_append : ∀ (ops ops' : List DirectoryOp) (d : DirectoryApplicationService),
    directoryLog d (ops ++ ops')
      = directoryLog d ops ++ directoryLog (ops.foldl DirectoryOp.call d) ops'
  | [], ops', d => rfl
  | op :: ops, ops', d => by
    rw [List.cons_append, directoryLog, directoryLog, directoryLog_append ops, List.append_assoc,
      List.foldl_cons]

/-- Equal versions with the same fields, or versions that have increased. -/
def TellsFields (a b : DirectorySnapshot) : Prop :=
  a.version = b.version ∧ a.content.fields = b.content.fields ∨ a.version < b.version

theorem VersionStep.tellsFields {a b : DirectorySnapshot} (h : VersionStep a b) :
    TellsFields a b := by
  rcases Nat.eq_or_lt_of_le h.version_le with hversion | hversion
  · exact .inl ⟨hversion, h.version_eq_iff.1 hversion⟩
  · exact .inr hversion

instance : Trans TellsFields TellsFields TellsFields where
  trans := by
    rintro a b c (⟨hv, hf⟩ | hv) (⟨hv', hf'⟩ | hv')
    · exact .inl ⟨hv.trans hv', hf.trans hf'⟩
    · exact .inr (by omega)
    · exact .inr (by omega)
    · exact .inr (by omega)

/-- Of two reads of one service, with whatever calls in between, that are given one version: they
show the same group and content exactly if they show the same group, and contents that do not
divide the same fields differently. -/
theorem reads_iff {d₁ d₂ : DirectoryApplicationService} {memberships₁ memberships₂ : Memberships}
    {actor₁ actor₂ : PlayerId} {a b : DirectorySnapshot} (hstart : Reaches {} d₁)
    (ha : (DirectoryOp.directoryFor memberships₁ actor₁).directoryAnswer d₁ = some a)
    (hbetween : Reaches ((DirectoryOp.directoryFor memberships₁ actor₁).call d₁) d₂)
    (hb : (DirectoryOp.directoryFor memberships₂ actor₂).directoryAnswer d₂ = some b)
    (hversion : a.version = b.version) :
    (a.groupId = b.groupId ∧ a.SameContent b)
      ↔ (a.groupId = b.groupId ∧ a.content.DividedAlike b.content) := by
  obtain ⟨ops₁, rfl⟩ := hstart
  obtain ⟨ops₂, rfl⟩ := hbetween
  set op₁ := DirectoryOp.directoryFor memberships₁ actor₁
  set op₂ := DirectoryOp.directoryFor memberships₂ actor₂
  refine and_congr_right fun hgroup => ?_
  have hlog : directoryLog {} (ops₁ ++ op₁ :: (ops₂ ++ [op₂]))
      = directoryLog {} ops₁
        ++ a :: (directoryLog (op₁.call (ops₁.foldl DirectoryOp.call {})) ops₂ ++ [b]) := by
    rw [directoryLog_append, directoryLog, ha, directoryLog_append, directoryLog, hb]
    rfl
  have hinv := readsInv_directoryLog b.groupId (ops₁ ++ op₁ :: (ops₂ ++ [op₂]))
  rw [hlog] at hinv
  have hchain := hinv.chain.imp fun _ _ h => VersionStep.tellsFields h
  simp only [List.filter_append, List.filter_cons, hgroup, decide_true, if_true,
    List.filter_nil] at hchain
  have hpair : TellsFields a b := by
    have hafter := (List.pairwise_append.1 (List.isChain_iff_pairwise.1 hchain)).2.1
    exact (List.pairwise_cons.1 hafter).1 b (by simp)
  have hfields : a.content.fields = b.content.fields := by
    rcases hpair with ⟨-, hfields⟩ | hlt
    · exact hfields
    · omega
  have hnamed : ∀ c ∈ [a, b], ∀ node ∈ c.nodes, NamedParent node := fun c hc =>
    hinv.named c (by simp at hc; rcases hc with rfl | rfl <;> simp)
  constructor
  · intro hsame _
    exact dividedAlike_of_sameContent hsame
  · intro hdivided
    exact sameContent_of_fields (hnamed a (by simp)) (hnamed b (by simp)) hfields (hdivided hfields)

variable {ω ρ α β : Type}

/-! ## What is asked of a read -/

/-- The request without its `If-None-Match`. -/
def HttpRequest.unconditional (request : HttpRequest) : HttpRequest :=
  { request with headers := request.headers.erase (bytes "if-none-match") }

namespace ControlPlaneState

variable (s : ControlPlaneState ω ρ)

/-- The player whose session the request is made in. -/
def requestPlayer (request : HttpRequest) (now : TimePoint) : Option PlayerId :=
  match ((authenticateRequestSession request now ControlPlane.sessions).run.run s).1 with
  | .ok (.ok authenticated) => some authenticated.session.playerId
  | _ => none

/-- The request is a `GET` of the directory by the player. -/
structure Gets (request : HttpRequest) (now : TimePoint) (actor : PlayerId) : Prop where
  method : request.method = bytes "GET"
  target : request.target = bytes "/api/v1/directory"
  player : s.requestPlayer request now = some actor

/-- What a read of the directory gives the player. -/
def directoryShown (actor : PlayerId) : Option DirectorySnapshot :=
  (DirectoryOp.directoryFor s.memberships actor).directoryAnswer s.directory

/-- The group of the player with the content he is to see of it. -/
def visibleTo (actor : PlayerId) : Option (GroupId × DirectoryContent) :=
  (DirectoryOp.directoryFor s.memberships actor).visibleContent s.directory

end ControlPlaneState

/-- The player is in one group in both states, and what he is to see of it is not the same fields,
divided differently. -/
def SameView (s s' : ControlPlaneState ω ρ) (actor : PlayerId) : Prop :=
  ∀ v ∈ s.visibleTo actor, ∀ v' ∈ s'.visibleTo actor, v.1 = v'.1 ∧ v.2.DividedAlike v'.2

namespace ControlPlane

/-! ## What a request does to the directory -/

/-- The call uses the directory through its operations only. -/
def Serves (m : Service (ControlPlaneState ω ρ) α) : Prop :=
  ∀ s, Ensures m s fun _ s' => s.directory.Reaches s'.directory

namespace Serves

theorem pure (a : α) : Serves (pure a : Service (ControlPlaneState ω ρ) α) := fun _ => .pure .refl

theorem throw (e : ServiceException) :
    Serves (throw e : Service (ControlPlaneState ω ρ) α) := fun _ => .throw .refl

theorem bind {m : Service (ControlPlaneState ω ρ) β} {f : β → Service (ControlPlaneState ω ρ) α}
    (hm : Serves m) (hf : ∀ b, Serves (f b)) : Serves (m >>= f) := fun s =>
  (hm s).keeps fun b s' h => (hf b s').mono fun _ _ h' => h.trans h'

theorem tryCatch {m : Service (ControlPlaneState ω ρ) α}
    {handler : ServiceException → Service (ControlPlaneState ω ρ) α} (hm : Serves m)
    (hhandler : ∀ e, Serves (handler e)) : Serves (tryCatch m handler) := fun s =>
  (hm s).tryCatch (fun _ _ h => h) fun e s' h => (hhandler e s').mono fun _ _ h' => h.trans h'

theorem reading (f : ControlPlaneState ω ρ → Except ServiceException α) : Serves (reading f) :=
  fun _ => .refl

theorem outside (call : Service ρ α) :
    Serves (outside call : Service (ControlPlaneState ω ρ) α) := fun _ => .refl

theorem auditing (f : AuditedStore ω → α × AuditedStore ω) : Serves (auditing (ρ := ρ) f) :=
  fun _ => .refl

theorem identifier {tag : IdTag} (value : Bytes) :
    Serves (identifier value : Service (ControlPlaneState ω ρ) (StrongId tag)) := by
  unfold Network.identifier
  split
  · exact .pure _
  · exact .throw _

end Serves

variable {plane : ControlPlane ω ρ} (request : HttpRequest) (now : TimePoint)
  (authenticated : RequestSession)

theorem serves_authenticateRequestSession :
    Serves (authenticateRequestSession request now
      (sessions : SessionRepository (ControlPlaneState ω ρ))) := by
  unfold authenticateRequestSession
  split
  · exact .pure _
  dsimp only
  split
  · exact .pure _
  refine .bind (.identifier _) fun sessionId => .bind (.identifier _) fun deviceId =>
    .bind (.identifier _) fun correlationId => .bind (.reading _) fun session => ?_
  split
  · exact .pure _
  split
  · exact .pure _
  split
  · exact .pure _
  · exact .pure _

theorem serves_allowed (action : TransmissionRateLimitAction) (sessionId : SessionId)
    (deviceId : DeviceId) : Serves (plane.allowed action sessionId deviceId now) := by
  refine .bind (.reading _) fun player => ?_
  split
  · exact .pure _
  · exact .outside _

theorem serves_createSession : Serves (plane.adapter.createSession request now) := by
  unfold ControlPlaneHttpAdapter.createSession
  split
  · exact .pure _
  dsimp only
  split
  · exact .pure _
  split
  · exact .pure _
  refine .bind (.identifier _) fun deviceId => .bind (.identifier _) fun correlationId =>
    .bind ?_ fun result => ?_
  · -- the session is issued after the identity provider was asked
    refine .bind (.outside _) fun identity => ?_
    split
    · exact .pure _
    · exact .bind (fun _ => .refl) fun sessionId => .pure _
  split
  · exact .pure _
  split
  · exact .pure _
  · exact .bind (.auditing _) fun _ => .pure _

theorem serves_directoryResponse (actor : PlayerId) (count : Store → ρ → PlayerId → ℕ) :
    Serves (directoryResponse request actor (directoryService (ω := ω) count)) := by
  have hread : Serves ((directoryService (ω := ω) count).directoryFor actor) := fun s =>
    Reaches.call .refl (.directoryFor s.memberships actor)
  refine .bind hread fun result => ?_
  split
  · exact .pure _
  · exact .pure _
  dsimp only
  split
  · exact .pure _
  · exact .pure _

theorem serves_presenceResponse (actor : PlayerId) (afterVersion : Option ℕ)
    (count : Store → ρ → PlayerId → ℕ) :
    Serves (presenceResponse actor afterVersion (directoryService (ω := ω) count) now) := by
  have hread : Serves ((directoryService (ω := ω) count).presenceFor actor afterVersion now) :=
    fun s => Reaches.call .refl (.presenceFor s.memberships (count s.store s.outside) actor
      afterVersion now)
  refine .bind hread fun result => ?_
  split
  · exact .pure _
  · exact .pure _
  · exact .pure _

theorem serves_membershipResponse (session : AuthenticatedSession) :
    Serves (membershipResponse session
      (membershipProvider : MembershipProvider (ControlPlaneState ω ρ))) := by
  refine .bind (.reading _) fun context => ?_
  split
  · exact .pure _
  split
  · exact .pure _
  · exact .pure _

theorem serves_startTransmissionResponse (body : JsonObject) :
    Serves (startTransmissionResponse authenticated body plane.transmissions now) := by
  unfold startTransmissionResponse
  split
  · exact .pure _
  split
  · refine .bind (.identifier _) fun clientTransmissionId =>
      .bind (.bind (serves_allowed now .start _ _) fun allowed => .auditing _) fun result => ?_
    split
    · exact .pure _
    · exact .pure _
  · exact .pure _

theorem serves_endTransmissionResponse (transmissionId : Bytes) :
    Serves (endTransmissionResponse authenticated transmissionId plane.transmissions now) := by
  refine .bind (.identifier _) fun id =>
    .bind (.bind (serves_allowed now .end _ _) fun allowed => .auditing _) fun result => ?_
  split
  · exact .pure _
  · exact .pure _

theorem serves_moderateTransmissionResponse (transmissionId : Bytes) :
    Serves (moderateTransmissionResponse authenticated transmissionId plane.transmissions now) := by
  refine .bind (.identifier _) fun id =>
    .bind (.bind (.reading _) fun allowed => .auditing _) fun result => ?_
  split
  · exact .pure _
  · exact .pure _

theorem serves_replaceMembershipResponse (subject : PlayerId) (body : JsonObject) :
    Serves (replaceMembershipResponse authenticated subject body plane.administration now) := by
  unfold replaceMembershipResponse
  split
  · exact .pure _
  split
  · refine .bind (.reading _) fun current => ?_
    split
    · exact .pure _
    split
    · exact .pure _
    refine .bind (.identifier _) fun groupId => .bind (.identifier _) fun specializationId =>
      .bind (.identifier _) fun teamId => ?_
    dsimp only
    split
    · exact .pure _
    refine .tryCatch (.bind (.auditing _) fun result => ?_) fun e => ?_
    · split
      · exact .pure _
      · exact .pure _
    · cases e with
      | invalidArgument => exact .pure _
      | other => exact .throw _
  · exact .pure _

/-! ## Routes -/

theorem serves_administerMembership (subjectValue : Bytes) :
    Serves (plane.adapter.administerMembership request now authenticated subjectValue) := by
  unfold ControlPlaneHttpAdapter.administerMembership
  split
  · exact .pure _
  split
  · rename_i administration authorizer hadministration hauthorizer
    obtain ⟨a, -, rfl⟩ := Option.map_eq_some_iff.1 hauthorizer
    obtain rfl : plane.administration = administration := by
      unfold adapter at hadministration
      dsimp only at hadministration
      split_ifs at hadministration
      exact Option.some.inj hadministration
    refine .bind (.identifier _) fun subject => ?_
    dsimp only
    split
    · refine .bind (.reading _) fun allowed => ?_
      split
      · exact .pure _
      · exact serves_membershipResponse _
    split
    · refine .bind (.reading _) fun allowed => ?_
      split
      · exact .pure _
      refine .bind (.reading _) fun current => ?_
      split
      · exact .pure _
      · exact .bind (.auditing _) fun _ => .pure _
    split
    · refine .bind (.reading _) fun allowed => ?_
      split
      · exact .pure _
      split
      · exact .pure _
      · exact serves_replaceMembershipResponse now authenticated subject _
    · exact .pure _
  · exact .pure _

theorem serves_readDirectory : Serves (plane.adapter.readDirectory request authenticated) := by
  unfold ControlPlaneHttpAdapter.readDirectory
  split
  · exact .pure _
  split
  · exact .pure _
  · rename_i directory hdirectory
    obtain ⟨count, -, rfl⟩ := Option.map_eq_some_iff.1 hdirectory
    exact serves_directoryResponse request _ count

theorem serves_readPresence : Serves (plane.adapter.readPresence request now authenticated) := by
  unfold ControlPlaneHttpAdapter.readPresence
  split
  · exact .pure _
  split
  · exact .pure _
  split
  · exact .pure _
  split
  · exact .pure _
  · rename_i directory hdirectory
    obtain ⟨count, -, rfl⟩ := Option.map_eq_some_iff.1 hdirectory
    exact serves_presenceResponse now _ _ count

theorem serves_issueGrants : Serves (plane.adapter.issueGrants request now authenticated) := by
  unfold ControlPlaneHttpAdapter.issueGrants
  split
  · exact .pure _
  split
  · rename_i derive issue _ _ hderive hissue _
    obtain ⟨policy, -, rfl⟩ := Option.map_eq_some_iff.1 hderive
    obtain ⟨issuer, -, rfl⟩ := Option.map_eq_some_iff.1 hissue
    refine .bind (.reading _) fun result => ?_
    split
    · exact .pure _
    refine .bind (.reading _) fun grants => ?_
    split
    · exact .pure _
    · exact .pure _
  · exact .pure _

theorem serves_transmissionRoute (transmissionId : Bytes) :
    Serves (plane.adapter.transmissionRoute request now authenticated transmissionId) := by
  unfold ControlPlaneHttpAdapter.transmissionRoute
  split
  · dsimp only
    split
    · exact .pure _
    · exact serves_moderateTransmissionResponse now authenticated _
  split
  · exact serves_endTransmissionResponse now authenticated _
  · exact .pure _

theorem serves_sessionRoutes :
    Serves (plane.adapter.sessionRoutes request now authenticated) := by
  unfold ControlPlaneHttpAdapter.sessionRoutes
  split
  · exact serves_readDirectory request authenticated
  split
  · exact serves_readPresence request now authenticated
  split
  · exact serves_administerMembership request now authenticated _
  split
  · split
    · exact .pure _
    · exact serves_membershipResponse _
  split
  · exact serves_issueGrants request now authenticated
  split
  · split
    · exact .pure _
    · exact serves_startTransmissionResponse now authenticated _
  split
  · exact serves_transmissionRoute request now authenticated _
  · exact .pure _

/-- Whatever is requested, the directory goes through operations of its service. -/
theorem handle_directory (s : ControlPlaneState ω ρ) :
    s.directory.Reaches (plane.adapter.handle request now s).2.directory := by
  have hanswer : Serves (plane.adapter.answer request now) := by
    unfold ControlPlaneHttpAdapter.answer
    split
    · split
      · exact .pure _
      · exact .pure _
    split
    · exact serves_createSession request now
    refine .bind (serves_authenticateRequestSession request now) fun result => ?_
    split
    · exact .pure _
    · exact serves_sessionRoutes request now _
  have hs : s.directory.Reaches ((plane.adapter.answer request now).run.run s).2.directory :=
    hanswer s
  unfold ControlPlaneHttpAdapter.handle
  split <;> simp_all

/-! ## Runs -/

/-- The process goes on. -/
def Continues : ControlPlaneStep ω ρ → Prop
  | .restart _ _ => False
  | _ => True

theorem next_directory (s : ControlPlaneState ω ρ) {step : ControlPlaneStep ω ρ}
    (h : Continues step) : s.directory.Reaches (plane.next s step).directory := by
  cases step with
  | request request now => exact handle_directory request now s
  | operation op =>
    have hsame : (plane.next s (.operation op)).directory = s.directory := by cases op <;> rfl
    rw [hsame]
    exact .refl
  | directory op => exact Reaches.refl.call op
  | outside outside => exact .refl
  | restart observer outside => exact h.elim

theorem steps_directory : ∀ (steps : List (ControlPlaneStep ω ρ)) (s : ControlPlaneState ω ρ),
    (∀ step ∈ steps, Continues step) →
      s.directory.Reaches (steps.foldl plane.next s).directory
  | [], _, _ => .refl
  | step :: steps, s, h =>
    (next_directory s (h step (by simp))).trans
      (steps_directory steps (plane.next s step) fun step' hstep => h step' (by simp [hstep]))

/-- The directory of a control plane is one its service can be in. -/
theorem run_directory (observer : ω) (outside : ρ) (steps : List (ControlPlaneStep ω ρ)) :
    Reaches {} (plane.run observer outside steps).directory := by
  induction steps using List.reverseRecOn with
  | nil => exact .refl
  | append_singleton steps step ih =>
    rw [run, List.foldl_append, ← run]
    by_cases hstep : Continues step
    · exact ih.trans (next_directory _ hstep)
    · cases step with
      | restart observer outside => exact .refl
      | _ => exact absurd trivial hstep

/-! ## Reads of the directory -/

section Reads

variable {s : ControlPlaneState ω ρ} {request now} {actor : PlayerId}

theorem header_unconditional {name : String}
    (h : asciiLower (bytes name) ≠ bytes "if-none-match") :
    request.unconditional.header name = request.header name := by
  unfold HttpRequest.header HttpRequest.unconditional
  rw [Std.ExtTreeMap.getElem?_erase, if_neg]
  intro heq
  exact h (Std.LawfulEqCmp.eq_of_compare heq).symm

theorem gets_unconditional (h : s.Gets request now actor) :
    s.Gets request.unconditional now actor := by
  refine ⟨h.method, h.target, ?_⟩
  rw [← h.player]
  unfold ControlPlaneState.requestPlayer authenticateRequestSession authorizationValue
  rw [header_unconditional (by decide), header_unconditional (by decide),
    header_unconditional (by decide)]

theorem header_unconditional_self : request.unconditional.header "if-none-match" = [] := by
  have hname : asciiLower (bytes "if-none-match") = bytes "if-none-match" := by decide
  unfold HttpRequest.header HttpRequest.unconditional
  rw [hname, Std.ExtTreeMap.getElem?_erase_self]
  rfl

variable (plane) in
/-- Behind the check of the session, the read is the actor's. -/
theorem answer_gets (h : s.Gets request now actor) : ∃ authenticated : RequestSession,
    authenticated.session.playerId = actor
      ∧ (plane.adapter.answer request now).run.run s
        = (plane.adapter.readDirectory request authenticated).run.run s := by
  have hplayer := h.player
  have hkept := (authenticateRequestSession_ensures (s := s) request now).1
  unfold ControlPlaneState.requestPlayer at hplayer
  rcases hrun : (authenticateRequestSession request now
    (sessions : SessionRepository (ControlPlaneState ω ρ))).run.run s with ⟨r, s'⟩
  rw [hrun] at hplayer hkept
  obtain rfl : s' = s := hkept
  rcases r with e | (response | authenticated)
  · cases hplayer
  · cases hplayer
  refine ⟨authenticated, Option.some.inj hplayer, ?_⟩
  have hhealth : request.target ≠ bytes "/api/v1/health" := by
    rw [h.target]
    exact bytes_injective.ne (by simp)
  have hsessions : request.target ≠ bytes "/api/v1/sessions" := by
    rw [h.target]
    exact bytes_injective.ne (by simp)
  unfold ControlPlaneHttpAdapter.answer
  rw [if_neg fun hand => hhealth hand.1, if_neg fun hand => hsessions hand.1]
  refine (run_bind_ok hrun).trans ?_
  dsimp only
  unfold ControlPlaneHttpAdapter.sessionRoutes
  rw [if_pos ⟨h.target, h.method⟩]

/-- What a read of the directory by the actor ends in. -/
theorem directoryResponse_run (count : Store → ρ → PlayerId → ℕ) :
    (directoryResponse request actor (directoryService (ω := ω) count)).run.run s
      = (match (s.directory.directoryFor s.memberships actor).1 with
        | .error e => .error e
        | .ok (.error .directoryUnavailable) => .ok directoryUnavailable
        | .ok (.error .directoryLimitExceeded) =>
          .ok (errorResponse 413 (bytes "directory_limit_exceeded")
            "The visible directory exceeds the participant limit.")
        | .ok (.ok a) =>
          .ok (if request.header "if-none-match" = entityTag a.version then
            notModifiedResponse (entityTag a.version) else directoryAnswered a),
        { s with directory := (s.directory.directoryFor s.memberships actor).2 }) := by
  have hread : ((directoryService (ω := ω) count).directoryFor actor).run.run s
      = ((s.directory.directoryFor s.memberships actor).1,
        { s with directory := (s.directory.directoryFor s.memberships actor).2 }) := rfl
  unfold directoryResponse
  rcases hr : (s.directory.directoryFor s.memberships actor).1 with e | ((_ | _) | a) <;>
    rw [hr] at hread
  · rw [run_bind_error hread]
  · rw [run_bind_ok hread]
    rfl
  · rw [run_bind_ok hread]
    rfl
  · rw [run_bind_ok hread]
    dsimp only
    split <;> rfl

theorem directoryShown_eq_some {a : DirectorySnapshot} :
    s.directoryShown actor = some a
      ↔ (s.directory.directoryFor s.memberships actor).1 = .ok (.ok a) := by
  unfold ControlPlaneState.directoryShown DirectoryOp.directoryAnswer
  dsimp only
  rcases (s.directory.directoryFor s.memberships actor).1 with e | (e | b) <;> simp

/-- A read that is answered with 200 or 304 has a directory to show. -/
theorem shown_of_status (h : s.Gets request now actor)
    (hstatus : (plane.adapter.handle request now s).1.statusCode = 200
      ∨ (plane.adapter.handle request now s).1.statusCode = 304) :
    request.body = [] ∧ (∃ count, plane.transportPresence = some count)
      ∧ ∃ a, s.directoryShown actor = some a := by
  obtain ⟨authenticated, rfl, hanswer⟩ := answer_gets plane h
  unfold ControlPlaneHttpAdapter.handle at hstatus
  rw [hanswer] at hstatus
  unfold ControlPlaneHttpAdapter.readDirectory at hstatus
  by_cases hbody : request.body = []
  · rw [if_neg (not_not.2 hbody)] at hstatus
    rcases hpresence : plane.transportPresence with _ | count
    · have hnone : plane.adapter.directory = none := by simp [adapter, hpresence]
      rw [hnone] at hstatus
      rcases hstatus with hstatus | hstatus <;> cases hstatus
    · have hsome : plane.adapter.directory = some (directoryService count) := by
        simp [adapter, hpresence]
      rw [hsome] at hstatus
      simp only [directoryResponse_run] at hstatus
      refine ⟨hbody, ⟨count, rfl⟩, ?_⟩
      rcases hr : (s.directory.directoryFor s.memberships authenticated.session.playerId).1 with
        (_ | _) | ((_ | _) | a)
      · rw [hr] at hstatus
        rcases hstatus with hstatus | hstatus <;> cases hstatus
      · rw [hr] at hstatus
        rcases hstatus with hstatus | hstatus <;> cases hstatus
      · rw [hr] at hstatus
        rcases hstatus with hstatus | hstatus <;> cases hstatus
      · rw [hr] at hstatus
        rcases hstatus with hstatus | hstatus <;> cases hstatus
      · exact ⟨a, directoryShown_eq_some.2 hr⟩
  · rw [if_pos hbody] at hstatus
    rcases hstatus with hstatus | hstatus <;> cases hstatus

/-- A read that has a directory to show compares its version with the entity tag. -/
theorem handle_shown (h : s.Gets request now actor) (hbody : request.body = [])
    (hpresence : ∃ count, plane.transportPresence = some count) {a : DirectorySnapshot}
    (hshown : s.directoryShown actor = some a) :
    plane.adapter.handle request now s
      = (if request.header "if-none-match" = entityTag a.version then
          notModifiedResponse (entityTag a.version) else directoryAnswered a,
        { s with
          directory := (DirectoryOp.directoryFor s.memberships actor).call s.directory }) := by
  obtain ⟨authenticated, rfl, hanswer⟩ := answer_gets plane h
  obtain ⟨count, hcount⟩ := hpresence
  have hsome : plane.adapter.directory = some (directoryService count) := by
    simp [adapter, hcount]
  unfold ControlPlaneHttpAdapter.handle
  rw [hanswer]
  unfold ControlPlaneHttpAdapter.readDirectory
  rw [if_neg (not_not.2 hbody), hsome]
  simp only [directoryResponse_run]
  rw [directoryShown_eq_some.1 hshown]
  rfl

variable (plane) in
theorem handle_unasked (h : s.Gets request now actor) (hbody : request.body = [])
    (hpresence : ∃ count, plane.transportPresence = some count) {a : DirectorySnapshot}
    (hshown : s.directoryShown actor = some a) (hnone : request.header "if-none-match" = []) :
    (plane.adapter.handle request now s).1 = directoryAnswered a := by
  have hempty : ([] : Bytes) ≠ entityTag a.version := fun h => by cases h
  rw [handle_shown h hbody hpresence hshown, hnone, if_neg hempty]

theorem visibleTo_of_shown {a : DirectorySnapshot} (h : s.directoryShown actor = some a) :
    s.visibleTo actor = some (a.groupId, a.content) := by
  rcases directoryFor_cases s.directory s.memberships actor with
    ⟨-, hnone, -⟩ | ⟨b, -, hvisible, hb, -⟩
  · cases hnone.symm.trans h
  · obtain rfl := Option.some.inj (hb.symm.trans h)
    exact hvisible

theorem notModified_statusCode (etag : Bytes) : (notModifiedResponse etag).statusCode ≠ 200 := by
  show (304 : Int) ≠ 200
  omega

end Reads

/-- A read by the actor is answered with a directory and its entity tag. Later, with whatever
requests, membership changes and directory changes in between, the actor reads again with that
entity tag and is answered with 304. Then an unconditional read would give him the directory of
the first answer, in group, nodes, public roles and participants, if and only if he is in the same
group as at the first read and is not to see the same fields divided differently. -/
theorem directory_revalidation_iff (plane : ControlPlane ω ρ) (observer : ω) (outside : ρ)
    (steps later : List (ControlPlaneStep ω ρ)) (hlater : ∀ step ∈ later, Continues step)
    {actor : PlayerId} {first second : HttpRequest} {firstNow secondNow : TimePoint}
    {etag : Bytes} :
    let s := plane.run observer outside steps
    let s' := later.foldl plane.next (plane.next s (.request first firstNow))
    let answer := (plane.adapter.handle first firstNow s).1
    s.Gets first firstNow actor → answer.statusCode = 200 →
    answer.headers[bytes "etag"]? = some etag → s'.Gets second secondNow actor →
    second.header "if-none-match" = etag →
    (plane.adapter.handle second secondNow s').1.statusCode = 304 →
    ∃ a b, answer = directoryAnswered a ∧ s.directoryShown actor = some a
      ∧ (plane.adapter.handle second.unconditional secondNow s').1 = directoryAnswered b
      ∧ s'.directoryShown actor = some b
      ∧ ((a.groupId = b.groupId ∧ a.SameContent b) ↔ SameView s s' actor) := by
  intro s s' answer hfirst hok htag hsecond hcondition hnotModified
  obtain ⟨hbody, hpresence, a, ha⟩ := shown_of_status hfirst (.inl hok)
  obtain ⟨hbody', -, b, hb⟩ := shown_of_status hsecond (.inr hnotModified)
  have hanswer := handle_shown hfirst hbody hpresence ha
  have hanswer' := handle_shown hsecond hbody' hpresence hb
  have ha' : answer = directoryAnswered a := by
    have hcases := congrArg Prod.fst hanswer
    dsimp only at hcases
    split_ifs at hcases
    · exact absurd ((congrArg HttpResponse.statusCode hcases).symm.trans hok)
        (notModified_statusCode _)
    · exact hcases
  -- the entity tags of the two reads are one, so their versions are
  have hversion : a.version = b.version := by
    rw [ha', directoryAnswered_etag] at htag
    have hb' := congrArg Prod.fst hanswer'
    dsimp only at hb'
    split_ifs at hb' with hsame
    · exact DirectorySync.entityTag_injective (Option.some.inj (htag.trans (congrArg some
        (hcondition.symm.trans hsame))))
    · rw [hb', directoryAnswered_statusCode] at hnotModified
      cases hnotModified
  refine ⟨a, b, ha', ha, ?_, hb, ?_⟩
  · exact handle_unasked plane (gets_unconditional hsecond) hbody' hpresence hb
      header_unconditional_self
  · have hbetween : Reaches ((DirectoryOp.directoryFor s.memberships actor).call s.directory)
        s'.directory := by
      have hnext : (plane.next s (.request first firstNow)).directory
          = (DirectoryOp.directoryFor s.memberships actor).call s.directory :=
        congrArg (fun r => r.2.directory) hanswer
      rw [← hnext]
      exact steps_directory later _ hlater
    rw [reads_iff (run_directory observer outside steps) ha hbetween hb hversion]
    have hv := visibleTo_of_shown ha
    have hv' := visibleTo_of_shown hb
    constructor
    · rintro hsame v hvv v' hvv'
      obtain rfl := Option.some.inj (hv.symm.trans hvv)
      obtain rfl := Option.some.inj (hv'.symm.trans hvv')
      exact hsame
    · exact fun hsame => hsame _ hv _ hv'

end ControlPlane

namespace Sample

def otherGroup : GroupId := ⟨bytes "other", by decide⟩

def otherSpecialization : SpecializationId := ⟨bytes "others", by decide⟩

def otherTeam : TeamId := ⟨bytes "mates", by decide⟩

/-- The hierarchy with a second group. -/
def groupedHierarchy : Hierarchy where
  id := hierarchy.id
  scopes := hierarchy.scopes
  groups := hierarchy.groups ++ [⟨otherGroup, bytes "Other", true⟩]
  specializations := hierarchy.specializations
    ++ [⟨otherSpecialization, otherGroup, bytes "Others"⟩]
  teams := hierarchy.teams ++ [⟨otherTeam, otherSpecialization, bytes "Mates"⟩]
  groups_unique := by decide
  specializations_unique := by decide
  teams_unique := by decide
  scopes_valid := by decide
  specializations_owned := by decide
  teams_owned := by decide

def memberOf (other : Bool) : VoiceMembership :=
  if other then
    { member alice with
      groupId := otherGroup
      specializationId := otherSpecialization
      teamId := otherTeam }
  else member alice

/-- `alice` alone, in the other group or in hers. -/
def placed (version : ℕ) (h : 0 < version) (other : Bool) : AuthoritativeMembershipContext where
  snapshot :=
    ⟨version, groupedHierarchy, [memberOf other], h, List.nodup_singleton _,
      by cases other <;> decide, List.pairwise_singleton _ _⟩
  rolePolicy := rolePolicy

def directoryPlane : ControlPlane (List LifecycleEvent) Unit :=
  { alicePlane with transportPresence := some fun _ _ _ => 0 }

def readDirectory (etag : Option String) : HttpRequest :=
  let request := requestWith "GET" "/api/v1/directory" "Session t" ""
  { request with headers := etag.elim request.headers fun value =>
      request.headers.insert (bytes "if-none-match") (bytes value) }

/-- `alice` has a profile of version 2, logs in and is placed in her group. -/
def placedSteps : List (ControlPlaneStep (List LifecycleEvent) Unit) :=
  [.directory (.upsertProfile ⟨alice, bytes "Alice", 2⟩),
    .request (requestWith "POST" "/api/v1/sessions" "Bearer x" "") 0,
    .operation (.updateMembership alice (placed 1 Nat.one_pos false) 0 correlation
      .membershipChanged)]

/-- Where the second context places `alice`. -/
def moveSteps (other : Bool) : List (ControlPlaneStep (List LifecycleEvent) Unit) :=
  [.operation (.updateMembership alice (placed 2 Nat.two_pos other) 0 correlation
    .membershipChanged)]

def firstRead : ControlPlaneState (List LifecycleEvent) Unit := directoryPlane.run [] () placedSteps

def secondRead (other : Bool) : ControlPlaneState (List LifecycleEvent) Unit :=
  (moveSteps other).foldl directoryPlane.next
    (directoryPlane.next firstRead (.request (readDirectory none) 0))

/-- Wherever she is placed, the second read is answered with 304. -/
theorem placed_reads : ∀ other,
    firstRead.requestPlayer (readDirectory none) 0 = some alice
      ∧ (directoryPlane.adapter.handle (readDirectory none) 0 firstRead).1.statusCode = 200
      ∧ (directoryPlane.adapter.handle (readDirectory none) 0 firstRead).1.headers[bytes "etag"]?
        = some (bytes "\"directory-2\"")
      ∧ (secondRead other).requestPlayer (readDirectory (some "\"directory-2\"")) 0 = some alice
      ∧ (readDirectory (some "\"directory-2\"")).header "if-none-match" = bytes "\"directory-2\""
      ∧ (directoryPlane.adapter.handle (readDirectory (some "\"directory-2\"")) 0
        (secondRead other)).1.statusCode = 304 := by
  decide +kernel

theorem placed_groups :
    (firstRead.directoryShown alice).map DirectorySnapshot.groupId = some group
      ∧ ((secondRead true).directoryShown alice).map DirectorySnapshot.groupId = some otherGroup := by
  decide +kernel

end Sample

namespace ControlPlane

open Sample

/-- `alice` stays in her group between the reads, and the second is answered with 304. -/
theorem directory_revalidation_stayed : ∃ a b,
    (directoryPlane.adapter.handle (readDirectory none) 0 firstRead).1 = directoryAnswered a
      ∧ firstRead.directoryShown alice = some a
      ∧ (directoryPlane.adapter.handle (readDirectory (some "\"directory-2\"")).unconditional 0
        (secondRead false)).1 = directoryAnswered b
      ∧ (secondRead false).directoryShown alice = some b
      ∧ ((a.groupId = b.groupId ∧ a.SameContent b)
        ↔ SameView firstRead (secondRead false) alice) := by
  obtain ⟨hplayer, hok, htag, hplayer', hcondition, hnotModified⟩ := placed_reads false
  have hlater : ∀ step ∈ moveSteps false, Continues step := by simp [moveSteps, Continues]
  have hgets : firstRead.Gets (readDirectory none) 0 alice := ⟨rfl, rfl, hplayer⟩
  have hgets' : (secondRead false).Gets (readDirectory (some "\"directory-2\"")) 0 alice :=
    ⟨rfl, rfl, hplayer'⟩
  unfold secondRead firstRead at *
  exact directory_revalidation_iff directoryPlane [] () placedSteps (moveSteps false) hlater hgets
    hok htag hgets' hcondition hnotModified

/-- `alice` is moved to another group between the reads, whose version is the one of hers: the
second read is answered with 304, and an unconditional one with the other group. -/
theorem directory_revalidation_moved : ∃ a b,
    firstRead.Gets (readDirectory none) 0 alice
      ∧ (directoryPlane.adapter.handle (readDirectory none) 0 firstRead).1 = directoryAnswered a
      ∧ (directoryAnswered a).headers[bytes "etag"]? = some (bytes "\"directory-2\"")
      ∧ (secondRead true).Gets (readDirectory (some "\"directory-2\"")) 0 alice
      ∧ (readDirectory (some "\"directory-2\"")).header "if-none-match" = bytes "\"directory-2\""
      ∧ (directoryPlane.adapter.handle (readDirectory (some "\"directory-2\"")) 0
        (secondRead true)).1.statusCode = 304
      ∧ (directoryPlane.adapter.handle (readDirectory (some "\"directory-2\"")).unconditional 0
        (secondRead true)).1 = directoryAnswered b
      ∧ a.groupId = group ∧ b.groupId = otherGroup := by
  obtain ⟨hplayer, hok, htag, hplayer', hcondition, hnotModified⟩ := placed_reads true
  have hgets : firstRead.Gets (readDirectory none) 0 alice := ⟨rfl, rfl, hplayer⟩
  have hgets' : (secondRead true).Gets (readDirectory (some "\"directory-2\"")) 0 alice :=
    ⟨rfl, rfl, hplayer'⟩
  obtain ⟨ha, hb⟩ := placed_groups
  obtain ⟨a, hshown, hgroup⟩ := Option.map_eq_some_iff.1 ha
  obtain ⟨b, hshown', hgroup'⟩ := Option.map_eq_some_iff.1 hb
  have hanswer := handle_unasked directoryPlane hgets rfl ⟨_, rfl⟩ hshown rfl
  refine ⟨a, b, hgets, hanswer, ?_, hgets', hcondition, hnotModified, ?_, hgroup, hgroup'⟩
  · rw [← hanswer]
    exact htag
  · exact handle_unasked directoryPlane (gets_unconditional hgets') rfl ⟨_, rfl⟩ hshown'
      header_unconditional_self

end ControlPlane

end VoxTree

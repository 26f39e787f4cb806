import VoxTree.LocalPublication
import Mathlib.Data.List.Nodup

/-!
# Publication generations under all interleavings

The publication in progress is always that of the latest generation, and a track that was given to
the SDK is in it, is retired, or is unpublished by a thread as long as the room is open (`Accounted`).
Of the regions that work for a generation only two do not ask whether it is still the latest: the
last one of `startMicrophone` and the one in which a stop has waited in vain. Every other step is
orderly, and these are where they find no newer generation (`orderly_iff`).
-/

namespace VoxTree.LocalPublication

open Machine

/-! ## What is asked of a step -/

/-- The publication generation a thread works for. -/
def Phase.generation : Phase → Option ℕ
  | .prepare start | .attach start | .publish start | .published start | .poll start | .query start
  | .record start _ | .confirm start | .cancelled start | .reset start .. =>
    some start.generation
  | .stopAwaitId _ _ generation | .stopSettle _ _ generation | .stopFinish _ generation _ =>
    some generation
  | .stopUnpublish _ audio => some audio.generation
  | .callbackBegin confirmation | .callbackRegion confirmation | .callbackUnpublish confirmation =>
    some confirmation.track
  | _ => none

/-- The thread is in a call of `startMicrophone`. -/
def Phase.isStart : Phase → Bool
  | .startChecks _ | .startRoom _ | .startBegin .. | .prepare _ | .attach _ | .publish _
  | .published _ | .poll _ | .query _ | .record .. | .confirm _ | .cancelled _ | .reset .. => true
  | _ => false

/-- The track the thread is about to unpublish. -/
def Phase.unpublishes : Phase → Option LocalAudioTrack
  | .stopUnpublish _ audio => audio.track
  | .callbackUnpublish confirmation => some confirmation.track
  | _ => none

/-- The session id of the track was given to `unpublishTrack`. -/
def Unpublished (sdk : Sdk) (track : LocalAudioTrack) : Prop :=
  ∃ sid, sdk.sessionId track = some sid ∧ sid ∈ sdk.unpublished

/-- The room in which the track was published is current and has its local participant. -/
def Current (s : State) (track : LocalAudioTrack) : Prop :=
  s.sdk.localParticipant = true ∧ ∃ publishing, s.sdk.published track = some publishing
    ∧ s.transport.isCurrentRoomGeneration publishing.roomGeneration = true

structure OrderlyStep (s : State) (t : ℕ) (s' : State) : Prop where
  /-- A thread that works for another than the latest generation leaves the publication alone. -/
  generation : ∀ g, (s.threads t).generation = some g → g < s.transport.publicationGeneration →
    s'.transport.publicationState = s.transport.publicationState
      ∧ s'.transport.publishedAudio = s.transport.publishedAudio
  /-- A start succeeds only where its own generation is active and has a session id. -/
  success : (s.threads t).isStart = true → s'.threads t = returned .success →
    ∃ audio, (s.threads t).generation = some audio.generation
      ∧ s'.transport.publishedAudio = some audio ∧ s'.transport.publicationState = .active
      ∧ audio.publicationId ≠ []
  /-- A track that is confirmed after its generation was given up is unpublished, or a thread is
  about to. -/
  late : ∀ confirmation, s.threads t = .callbackRegion confirmation →
    s.transport.holds confirmation.track = false → Current s confirmation.track →
    Unpublished s'.sdk confirmation.track
      ∨ ∃ t', (s'.threads t').unpublishes = some confirmation.track
  unpublishes : ∀ track, (s.threads t).unpublishes = some track → Current s track →
    Unpublished s'.sdk track

structure Orderly (s : State) (a : Action) : Prop where
  /-- A thread that is about to unpublish can. -/
  ready : ∀ t track, (s.threads t).unpublishes = some track →
    ∃ answer, (step s (.resume t answer)).isSome = true
  step : ∀ t answer s', a = .resume t answer → step s a = some s' → OrderlyStep s t s'

/-- No start whose last wait is over and no stop whose wait for a session id is over finds a newer
generation that it would set idle. -/
def keepsNewer (s : State) : Action → Bool
  | .resume t _ =>
    match s.threads t with
    | .confirm start =>
      s.transport.publicationGeneration ≤ start.generation
        || s.transport.publicationState = .idle || s.transport.publicationState = .stopping
    | .stopAwaitId _ _ generation =>
      s.transport.publicationGeneration ≤ generation || s.transport.publicationState = .idle
    | _ => true
  | _ => true

/-! ## Transports and the SDK over time -/

/-- While its generation is current, the rooms have the scope. -/
def Transport.Open (c : Transport) (scope : VoiceScope) : Prop :=
  c.activeRoomGeneration ≠ 0 → (c.rooms scope).isSome = true

/-- What holds of the publication while it is the generation's. -/
def Transport.Keeps (c : Transport) (generation : ℕ) (P : PublishedAudio → Prop) : Prop :=
  ∀ audio, c.publishedAudio = some audio → audio.generation = generation → P audio

/-- What a publication does not lose. -/
structure PublishedAudio.Extends (audio audio' : PublishedAudio) : Prop where
  generation : audio'.generation = audio.generation
  scope : audio'.scope = audio.scope
  track : ∀ track, audio.track = some track → audio'.track = some track
  publicationId : audio.publicationId ≠ [] → audio'.publicationId ≠ []

theorem PublishedAudio.extends_refl (audio : PublishedAudio) : audio.Extends audio :=
  ⟨rfl, rfl, fun _ => id, id⟩

/-- A publication that is in progress afterwards was before, or is new. -/
structure Transport.Evolves (c c' : Transport) : Prop where
  generation : c.publicationGeneration ≤ c'.publicationGeneration
  held : ∀ audio', c'.publishedAudio = some audio' →
    audio'.generation ≤ c.publicationGeneration →
    ∃ audio, c.publishedAudio = some audio ∧ audio.Extends audio'
  active : c.activeRoomGeneration = 0 → c'.activeRoomGeneration = 0
  rooms : c'.activeRoomGeneration ≠ 0 → c'.rooms = c.rooms

theorem Transport.evolves_refl (c : Transport) : c.Evolves c :=
  ⟨Nat.le_refl _, fun audio h _ => ⟨audio, h, audio.extends_refl⟩, id, fun _ => rfl⟩

structure Sdk.Extends (sdk sdk' : Sdk) : Prop where
  sessionId : ∀ track sid, sdk.sessionId track = some sid → sdk'.sessionId track = some sid
  unpublished : sdk.unpublished ⊆ sdk'.unpublished
  localParticipant : sdk.localParticipant = false → sdk'.localParticipant = false

theorem Sdk.extends_refl (sdk : Sdk) : sdk.Extends sdk := ⟨fun _ _ => id, fun _ => id, id⟩

section Evolves

variable {c c' : Transport} {sdk sdk' : Sdk}

theorem Transport.Open.evolve {scope : VoiceScope} (h : c.Open scope) (he : c.Evolves c') :
    c'.Open scope := by
  intro hactive
  rw [he.rooms hactive]
  exact h fun hzero => hactive (he.active hzero)

theorem Transport.Keeps.evolve {generation : ℕ} {P : PublishedAudio → Prop}
    (h : c.Keeps generation P) (hle : generation ≤ c.publicationGeneration)
    (hP : ∀ audio audio' : PublishedAudio, audio.Extends audio' → P audio → P audio')
    (he : c.Evolves c') : c'.Keeps generation P := by
  intro audio' haudio' hgeneration
  obtain ⟨audio, haudio, hextends⟩ := he.held audio' haudio' (hgeneration ▸ hle)
  exact hP audio audio' hextends (h audio haudio (hextends.generation ▸ hgeneration))

theorem Unpublished.extend {track : LocalAudioTrack} (h : Unpublished sdk track)
    (he : sdk.Extends sdk') : Unpublished sdk' track := by
  obtain ⟨sid, hsession, hmem⟩ := h
  exact ⟨sid, he.sessionId _ _ hsession, he.unpublished hmem⟩

end Evolves

/-! ## The invariant -/

/-- The state after a step of the thread. -/
def State.moved (s : State) (t : ℕ) (transport : Transport) (sdk : Sdk) (phase : Phase) : State :=
  ⟨transport, sdk, Function.update s.threads t phase⟩

structure PublishedAudio.Carries (audio : PublishedAudio) (track : LocalAudioTrack)
    (scope : VoiceScope) : Prop where
  generation : audio.generation = track
  track : audio.track = some track
  scope : audio.scope = scope

/-- Where a track is whose publication the SDK may confirm. -/
inductive Accounted (s : State) (track : LocalAudioTrack) (scope : VoiceScope) : Prop
  | held (audio : PublishedAudio) :
      s.transport.publishedAudio = some audio → audio.Carries track scope → Accounted s track scope
  | retired (audio : PublishedAudio) : audio ∈ s.transport.retiredPublications →
      audio.Carries track scope → Accounted s track scope
  | unpublishing (t : ℕ) : (s.threads t).unpublishes = some track → Accounted s track scope
  | unpublished : Unpublished s.sdk track → Accounted s track scope
  | closed : s.transport.activeRoomGeneration = 0 → Accounted s track scope
  | lost : s.sdk.localParticipant = false → Accounted s track scope

/-- What holds in a call of `startMicrophone` with a generation. -/
structure StartInv (c : Transport) (start : Start) : Prop where
  generation : start.generation ≤ c.publicationGeneration
  room : c.Open start.scope
  scope : c.Keeps start.generation fun audio => audio.scope = start.scope

/-- And once the publication has its track. -/
structure AttachedInv (c : Transport) (start : Start) : Prop extends StartInv c start where
  track : c.Keeps start.generation fun audio => audio.track = some start.generation

/-- What holds of a publication that a stop has taken out. -/
structure TakenInv (c : Transport) (sdk : Sdk) (audio : PublishedAudio) : Prop where
  generation : audio.generation ≤ c.publicationGeneration
  track : audio.track = some audio.generation
  session : sdk.sessionId audio.generation = some audio.publicationId
  confirmed : audio.publicationId ≠ []
  room : c.Open audio.scope

/-- What holds of what the SDK reports. -/
structure ReportedInv (s : State) (confirmation : Confirmation) : Prop where
  session : s.sdk.sessionId confirmation.track = some confirmation.sid
  room : s.transport.Open confirmation.scope
  accounted : Accounted s confirmation.track confirmation.scope

def PhaseInv (s : State) : Phase → Prop
  | .startBegin scope _ => s.transport.Open scope
  | .prepare start | .attach start | .cancelled start | .reset start .. =>
    StartInv s.transport start
  | .publish start =>
    AttachedInv s.transport start ∧ Accounted s start.generation start.scope
  | .published start | .poll start | .query start | .confirm start =>
    AttachedInv s.transport start
  | .record start sid =>
    AttachedInv s.transport start ∧ s.sdk.sessionId start.generation = some sid
  | .stopAwaitId _ _ generation | .stopFinish _ generation _ =>
    generation ≤ s.transport.publicationGeneration
  | .stopSettle _ _ generation => generation ≤ s.transport.publicationGeneration
      ∧ s.transport.Keeps generation fun audio => audio.publicationId ≠ []
  | .stopUnpublish _ audio => TakenInv s.transport s.sdk audio
  | .disconnectRooms | .disconnectReset => s.transport.activeRoomGeneration = 0
  | .callbackBegin confirmation | .callbackRegion confirmation | .callbackUnpublish confirmation =>
    ReportedInv s confirmation
  | _ => True

/-- What holds of the publication in progress. -/
structure HeldInv (c : Transport) (sdk : Sdk) (audio : PublishedAudio) : Prop where
  generation : audio.generation = c.publicationGeneration
  track : ∀ track, audio.track = some track → track = audio.generation
  confirmed : audio.publicationId ≠ [] → audio.track = some audio.generation
    ∧ sdk.sessionId audio.generation = some audio.publicationId
  active : c.publicationState = .active → audio.publicationId ≠ []
  room : c.Open audio.scope

/-- What the SDK promises. -/
structure SdkInv (sdk : Sdk) : Prop where
  unique : (sdk.sessionIds.map Prod.snd).Nodup
  nonempty : ∀ track sid, sdk.sessionId track = some sid → sid ≠ []

structure Inv (s : State) : Prop where
  held : ∀ audio, s.transport.publishedAudio = some audio → HeldInv s.transport s.sdk audio
  retired : ∀ audio ∈ s.transport.retiredPublications, audio.track = some audio.generation
  sdk : SdkInv s.sdk
  published : ∀ track publishing, s.sdk.published track = some publishing →
    s.transport.Open publishing.scope ∧ Accounted s track publishing.scope
  phase : ∀ t, PhaseInv s (s.threads t)

theorem SdkInv.injective {sdk : Sdk} (h : SdkInv sdk) {track track' : LocalAudioTrack}
    {sid : Bytes} (htrack : sdk.sessionId track = some sid)
    (htrack' : sdk.sessionId track' = some sid) : track = track' := by
  have hmem : ∀ {track}, sdk.sessionId track = some sid → (track, sid) ∈ sdk.sessionIds := by
    intro track htrack
    obtain ⟨entry, hfind, rfl⟩ := Option.map_eq_some_iff.1 htrack
    have hentry : entry.1 = track := by simpa using List.find?_some hfind
    subst hentry
    exact List.mem_of_find?_eq_some hfind
  exact congrArg Prod.fst (List.inj_on_of_nodup_map h.unique (hmem htrack) (hmem htrack') rfl)

/-! ## What is kept -/

section Keep

variable {s s' : State} {t : ℕ} {c' : Transport} {sdk' : Sdk} {phase' : Phase}

@[simp] theorem moved_transport : (s.moved t c' sdk' phase').transport = c' := rfl

@[simp] theorem moved_sdk : (s.moved t c' sdk' phase').sdk = sdk' := rfl

@[simp] theorem moved_threads_self : (s.moved t c' sdk' phase').threads t = phase' :=
  Function.update_self _ _ _

theorem moved_threads_of_ne {t' : ℕ} (h : t' ≠ t) :
    (s.moved t c' sdk' phase').threads t' = s.threads t' :=
  Function.update_of_ne h _ _

theorem StartInv.evolve {c : Transport} {start : Start} (h : StartInv c start)
    (he : c.Evolves c') : StartInv c' start where
  generation := Nat.le_trans h.generation he.generation
  room := h.room.evolve he
  scope := h.scope.evolve h.generation (fun _ _ hextends hscope => hextends.scope.trans hscope) he

theorem AttachedInv.evolve {c : Transport} {start : Start} (h : AttachedInv c start)
    (he : c.Evolves c') : AttachedInv c' start where
  toStartInv := h.toStartInv.evolve he
  track := h.track.evolve h.generation (fun _ _ hextends htrack => hextends.track _ htrack) he

theorem TakenInv.evolve {c : Transport} {sdk : Sdk} {audio : PublishedAudio}
    (h : TakenInv c sdk audio) (he : c.Evolves c') (hsdk : sdk.Extends sdk') :
    TakenInv c' sdk' audio where
  generation := Nat.le_trans h.generation he.generation
  track := h.track
  session := hsdk.sessionId _ _ h.session
  confirmed := h.confirmed
  room := h.room.evolve he

/-- What holds of a phase is kept by the steps of other threads. -/
theorem PhaseInv.evolve {phase : Phase} (h : PhaseInv s phase)
    (he : s.transport.Evolves s'.transport) (hsdk : s.sdk.Extends s'.sdk)
    (haccounted : ∀ track scope, Accounted s track scope → Accounted s' track scope) :
    PhaseInv s' phase := by
  cases phase with
  | startBegin => exact Transport.Open.evolve h he
  | prepare => exact StartInv.evolve h he
  | attach => exact StartInv.evolve h he
  | cancelled => exact StartInv.evolve h he
  | reset => exact StartInv.evolve h he
  | publish => exact ⟨h.1.evolve he, haccounted _ _ h.2⟩
  | published => exact AttachedInv.evolve h he
  | poll => exact AttachedInv.evolve h he
  | query => exact AttachedInv.evolve h he
  | confirm => exact AttachedInv.evolve h he
  | record => exact ⟨h.1.evolve he, hsdk.sessionId _ _ h.2⟩
  | stopAwaitId => exact Nat.le_trans h he.generation
  | stopFinish => exact Nat.le_trans h he.generation
  | stopSettle =>
    exact ⟨Nat.le_trans h.1 he.generation, h.2.evolve h.1 (fun _ _ hextends => hextends.4) he⟩
  | stopUnpublish => exact TakenInv.evolve h he hsdk
  | disconnectRooms => exact he.active h
  | disconnectReset => exact he.active h
  | callbackBegin => exact ⟨hsdk.sessionId _ _ h.1, h.2.evolve he, haccounted _ _ h.3⟩
  | callbackRegion => exact ⟨hsdk.sessionId _ _ h.1, h.2.evolve he, haccounted _ _ h.3⟩
  | callbackUnpublish => exact ⟨hsdk.sessionId _ _ h.1, h.2.evolve he, haccounted _ _ h.3⟩
  | _ => exact trivial

/-- A track stays accounted for where the step finds another place for what it moves. -/
theorem Accounted.moved {track : LocalAudioTrack} {scope : VoiceScope}
    (h : Accounted s track scope) (hsdk : s.sdk.Extends sdk')
    (hactive : s.transport.activeRoomGeneration = 0 → c'.activeRoomGeneration = 0)
    (hheld : ∀ audio, s.transport.publishedAudio = some audio → audio.Carries track scope →
      Accounted (s.moved t c' sdk' phase') track scope)
    (hretired : ∀ audio ∈ s.transport.retiredPublications, audio.Carries track scope →
      Accounted (s.moved t c' sdk' phase') track scope)
    (hthread : (s.threads t).unpublishes = some track →
      Accounted (s.moved t c' sdk' phase') track scope) :
    Accounted (s.moved t c' sdk' phase') track scope := by
  cases h with
  | held audio haudio hcarries => exact hheld audio haudio hcarries
  | retired audio haudio hcarries => exact hretired audio haudio hcarries
  | unpublishing t' ht' =>
    rcases eq_or_ne t' t with rfl | hne
    · exact hthread ht'
    · exact .unpublishing t' (by rwa [moved_threads_of_ne hne])
  | unpublished hdone => exact .unpublished (hdone.extend hsdk)
  | closed hzero => exact .closed (hactive hzero)
  | lost hgone => exact .lost (hsdk.localParticipant hgone)

/-- What a step of a thread has to show. -/
structure Moves (s : State) (t : ℕ) (c' : Transport) (sdk' : Sdk) (phase' : Phase) : Prop where
  transport : s.transport.Evolves c'
  sdk : s.sdk.Extends sdk'
  accounted : ∀ track scope, Accounted s track scope →
    Accounted (s.moved t c' sdk' phase') track scope
  held : ∀ audio, c'.publishedAudio = some audio → HeldInv c' sdk' audio
  retired : ∀ audio ∈ c'.retiredPublications, audio.track = some audio.generation
  sdkInv : SdkInv sdk'
  published : ∀ track publishing, sdk'.published track = some publishing →
    c'.Open publishing.scope ∧ Accounted (s.moved t c' sdk' phase') track publishing.scope
  phase : PhaseInv (s.moved t c' sdk' phase') phase'

theorem Inv.move (h : Inv s) (hm : Moves s t c' sdk' phase') : Inv (s.moved t c' sdk' phase') where
  held := hm.held
  retired := hm.retired
  sdk := hm.sdkInv
  published := hm.published
  phase t' := by
    rcases eq_or_ne t' t with rfl | hne
    · rw [moved_threads_self]
      exact hm.phase
    · rw [moved_threads_of_ne hne]
      exact (h.phase t').evolve hm.transport hm.sdk hm.accounted

/-- The thread moves the publication. -/
theorem Inv.moves_publication (h : Inv s) (htransport : s.transport.Evolves c')
    (haccounted : ∀ track scope, Accounted s track scope →
      Accounted (s.moved t c' s.sdk phase') track scope)
    (hheld : ∀ audio, c'.publishedAudio = some audio → HeldInv c' s.sdk audio)
    (hretired : ∀ audio ∈ c'.retiredPublications, audio.track = some audio.generation)
    (hphase : PhaseInv (s.moved t c' s.sdk phase') phase') : Moves s t c' s.sdk phase' where
  transport := htransport
  sdk := s.sdk.extends_refl
  accounted := haccounted
  held := hheld
  retired := hretired
  sdkInv := h.sdk
  published track publishing hpublished := by
    obtain ⟨hroom, hplace⟩ := h.published track publishing hpublished
    exact ⟨hroom.evolve htransport, haccounted _ _ hplace⟩
  phase := hphase

/-- The thread leaves the publication where it is. -/
structure SamePublication (c c' : Transport) : Prop where
  publishedAudio : c'.publishedAudio = c.publishedAudio
  retiredPublications : c'.retiredPublications = c.retiredPublications
  publicationGeneration : c'.publicationGeneration = c.publicationGeneration
  publicationState : c'.publicationState = .active → c.publicationState = .active
  active : c.activeRoomGeneration = 0 → c'.activeRoomGeneration = 0
  rooms : c'.activeRoomGeneration ≠ 0 → c'.rooms = c.rooms

theorem samePublication_refl (c : Transport) : SamePublication c c :=
  ⟨rfl, rfl, rfl, id, id, fun _ => rfl⟩

theorem SamePublication.evolves {c : Transport} (h : SamePublication c c') : c.Evolves c' where
  generation := Nat.le_of_eq h.publicationGeneration.symm
  held audio haudio _ := ⟨audio, h.publishedAudio ▸ haudio, audio.extends_refl⟩
  active := h.active
  rooms := h.rooms

theorem HeldInv.same {c : Transport} {sdk : Sdk} {audio : PublishedAudio}
    (h : HeldInv c sdk audio) (hc : SamePublication c c') : HeldInv c' sdk audio where
  generation := h.generation.trans hc.publicationGeneration.symm
  track := h.track
  confirmed := h.confirmed
  active hactive := h.active (hc.publicationState hactive)
  room := h.room.evolve hc.evolves

theorem Inv.moves_same (h : Inv s) (hc : SamePublication s.transport c')
    (hunpublishes : (s.threads t).unpublishes = none)
    (hphase : (∀ track scope, Accounted s track scope →
      Accounted (s.moved t c' s.sdk phase') track scope) →
      PhaseInv (s.moved t c' s.sdk phase') phase') : Moves s t c' s.sdk phase' := by
  have haccounted : ∀ track scope, Accounted s track scope →
      Accounted (s.moved t c' s.sdk phase') track scope := by
    intro track scope hplace
    refine hplace.moved s.sdk.extends_refl hc.active (fun audio haudio hcarries => ?_)
      (fun audio haudio hcarries => ?_) fun hthread => ?_
    · exact .held audio (hc.publishedAudio.trans haudio) hcarries
    · exact .retired audio (hc.retiredPublications.symm ▸ haudio) hcarries
    · rw [hunpublishes] at hthread
      cases hthread
  refine h.moves_publication hc.evolves haccounted (fun audio haudio => ?_) (fun audio haudio => ?_)
    (hphase haccounted)
  · exact (h.held audio (hc.publishedAudio ▸ haudio)).same hc
  · exact h.retired audio (hc.retiredPublications ▸ haudio)

/-- The thread only goes on. -/
theorem Inv.moves_on (h : Inv s) (hunpublishes : (s.threads t).unpublishes = none)
    (hphase : PhaseInv s phase') : Moves s t s.transport s.sdk phase' :=
  h.moves_same (samePublication_refl _) hunpublishes fun haccounted =>
    hphase.evolve s.transport.evolves_refl s.sdk.extends_refl haccounted

/-! ## What moves the publication -/

theorem holds_iff {c : Transport} {generation : ℕ} :
    c.holds generation = true ↔ ∃ audio, c.publishedAudio = some audio
      ∧ audio.generation = generation := by
  simp [Transport.holds, Option.any_eq_true]

theorem Inv.latest (h : Inv s) {generation : ℕ}
    (hholds : s.transport.holds generation = true) :
    generation = s.transport.publicationGeneration := by
  obtain ⟨audio, haudio, rfl⟩ := holds_iff.1 hholds
  exact (h.held audio haudio).generation

theorem Inv.generation_of_holds (h : Inv s) {generation : ℕ}
    (hholds : s.transport.holds generation = true) {audio : PublishedAudio}
    (haudio : s.transport.publishedAudio = some audio) : audio.generation = generation :=
  (h.held audio haudio).generation.trans (h.latest hholds).symm

theorem retire_cases (c : Transport) (generation : ℕ) :
    c.retirePublicationLocked generation = c
      ∨ ∃ audio, c.publishedAudio = some audio ∧ audio.generation = generation
        ∧ c.retirePublicationLocked generation = { c with
          publishedAudio := none
          retiredPublications :=
            if audio.track.isSome then c.retiredPublications ++ [audio]
            else c.retiredPublications } := by
  unfold Transport.retirePublicationLocked
  rcases haudio : c.publishedAudio with _ | audio
  · exact .inl rfl
  · by_cases hgeneration : audio.generation = generation
    · exact .inr ⟨audio, rfl, hgeneration, if_neg (not_not.2 hgeneration)⟩
    · exact .inl (if_pos hgeneration)

/-- A publication that is given up without a confirmation is retired. -/
theorem Inv.moves_retire (h : Inv s) (generation : ℕ)
    (hunpublishes : (s.threads t).unpublishes = none)
    (hphase : PhaseInv (s.moved t (s.transport.retireToIdle generation) s.sdk phase') phase') :
    Moves s t (s.transport.retireToIdle generation) s.sdk phase' := by
  unfold Transport.retireToIdle at hphase ⊢
  rcases retire_cases s.transport generation with hkept | ⟨audio, haudio, -, hretired⟩
  · rw [hkept] at hphase ⊢
    exact h.moves_same ⟨rfl, rfl, rfl, nofun, id, fun _ => rfl⟩ hunpublishes fun _ => hphase
  rw [hretired] at hphase ⊢
  refine h.moves_publication ⟨Nat.le_refl _, nofun, id, fun _ => rfl⟩ (fun track scope hplace => ?_)
    nofun (fun audio' haudio' => ?_) hphase
  · refine hplace.moved s.sdk.extends_refl id (fun audio' haudio' hcarries => ?_)
      (fun audio' haudio' hcarries => ?_) fun hthread => ?_
    · obtain rfl := Option.some.inj (haudio.symm.trans haudio')
      exact .retired audio (by simp [hcarries.track]) hcarries
    · exact .retired audio' (by simp only [moved_transport]; split_ifs <;> simp [haudio']) hcarries
    · rw [hunpublishes] at hthread
      cases hthread
  · simp only at haudio'
    split_ifs at haudio' with htrack
    · rcases List.mem_append.1 haudio' with hold | hnew
      · exact h.retired audio' hold
      · obtain rfl := List.mem_singleton.1 hnew
        obtain ⟨track, htrack⟩ := Option.isSome_iff_exists.1 htrack
        rw [htrack, (h.held audio' haudio).track track htrack]
    · exact h.retired audio' haudio'

/-- The publication in progress is changed and stays in progress. -/
theorem Inv.moves_update (h : Inv s) {f : PublishedAudio → PublishedAudio}
    (hf : ∀ audio, s.transport.publishedAudio = some audio → audio.Extends (f audio))
    (hc : c'.publishedAudio = s.transport.publishedAudio.map f)
    (hgeneration : c'.publicationGeneration = s.transport.publicationGeneration)
    (hretired : c'.retiredPublications = s.transport.retiredPublications)
    (hactive : c'.activeRoomGeneration = s.transport.activeRoomGeneration)
    (hrooms : c'.rooms = s.transport.rooms)
    (hunpublishes : (s.threads t).unpublishes = none)
    (hheld : ∀ audio, s.transport.publishedAudio = some audio → HeldInv c' s.sdk (f audio))
    (hphase : s.transport.Evolves c' → PhaseInv (s.moved t c' s.sdk phase') phase') :
    Moves s t c' s.sdk phase' := by
  have hevolves : s.transport.Evolves c' := by
    refine ⟨Nat.le_of_eq hgeneration.symm, fun audio' haudio' _ => ?_, hactive.trans,
      fun _ => hrooms⟩
    rw [hc, Option.map_eq_some_iff] at haudio'
    obtain ⟨audio, haudio, rfl⟩ := haudio'
    exact ⟨audio, haudio, hf audio haudio⟩
  refine h.moves_publication hevolves (fun track scope hplace => ?_) (fun audio' haudio' => ?_)
    (fun audio haudio => h.retired audio (hretired ▸ haudio)) (hphase hevolves)
  · refine hplace.moved s.sdk.extends_refl hevolves.active (fun audio haudio hcarries => ?_)
      (fun audio haudio hcarries => ?_) fun hthread => ?_
    · have hextends := hf audio haudio
      refine .held (f audio) (by simp [hc, haudio]) ⟨?_, hextends.track _ hcarries.track, ?_⟩
      · rw [hextends.generation, hcarries.generation]
      · rw [hextends.scope, hcarries.scope]
    · exact .retired audio (hretired.symm ▸ haudio) hcarries
    · rw [hunpublishes] at hthread
      cases hthread
  · rw [hc, Option.map_eq_some_iff] at haudio'
    obtain ⟨audio, haudio, rfl⟩ := haudio'
    exact hheld audio haudio

/-- The session id of the publication in progress becomes known. -/
theorem Inv.moves_confirmed (h : Inv s) {sid : Bytes} (safeUnpublishAt : SteadyTime)
    (hsession : ∀ audio, s.transport.publishedAudio = some audio →
      audio.track = some audio.generation ∧ s.sdk.sessionId audio.generation = some sid)
    (hunpublishes : (s.threads t).unpublishes = none)
    (hphase : s.transport.Evolves (s.transport.confirmed sid safeUnpublishAt) →
      PhaseInv (s.moved t (s.transport.confirmed sid safeUnpublishAt) s.sdk phase') phase') :
    Moves s t (s.transport.confirmed sid safeUnpublishAt) s.sdk phase' := by
  have hsid : ∀ audio, s.transport.publishedAudio = some audio → sid ≠ [] :=
    fun audio haudio => h.sdk.nonempty _ _ (hsession audio haudio).2
  refine h.moves_update (f := fun audio => { audio with publicationId := sid, safeUnpublishAt })
    (fun audio haudio => ⟨rfl, rfl, fun _ => id, fun _ => hsid audio haudio⟩)
    rfl rfl rfl rfl rfl hunpublishes (fun audio haudio => ?_) hphase
  have hinv := h.held audio haudio
  exact ⟨hinv.generation, hinv.track, fun _ => hsession audio haudio, fun _ => hsid audio haudio,
    hinv.room⟩

/-- A stop takes the publication out to unpublish it. -/
theorem Inv.moves_take (h : Inv s) {c : Transport} (hc : SamePublication s.transport c)
    (hunpublishes : (s.threads t).unpublishes = none) (caller : Caller) (scope : VoiceScope)
    {generation : ℕ} (hconfirmed : ∀ audio, s.transport.publishedAudio = some audio →
      audio.generation = generation → audio.publicationId ≠ [])
    (hfree : ∀ s' result, PhaseInv s' (caller.afterStop result)) :
    Moves s t (take c caller scope generation).1 s.sdk (take c caller scope generation).2 := by
  unfold take
  rw [hc.publishedAudio]
  rcases haudio : s.transport.publishedAudio with _ | audio
  · exact h.moves_same hc hunpublishes fun _ => hfree _ _
  simp only
  split_ifs with hgeneration
  · have hinv := h.held audio haudio
    have hid := hconfirmed audio haudio hgeneration
    have hevolves : s.transport.Evolves
        { c with publishedAudio := none, publicationState := .stopping } :=
      ⟨hc.evolves.generation, nofun, hc.active, hc.rooms⟩
    refine h.moves_publication hevolves (fun track scope hplace => ?_) nofun
      (fun audio' haudio' => h.retired audio' (hc.retiredPublications ▸ haudio')) ?_
    · refine hplace.moved s.sdk.extends_refl hc.active (fun audio' haudio' hcarries => ?_)
        (fun audio' haudio' hcarries => ?_) fun hthread => ?_
      · obtain rfl := Option.some.inj (haudio.symm.trans haudio')
        exact .unpublishing t (by rw [moved_threads_self]; exact hcarries.track)
      · exact .retired audio' (hc.retiredPublications.symm ▸ haudio') hcarries
      · rw [hunpublishes] at hthread
        cases hthread
    · obtain ⟨htrack, hsession⟩ := hinv.confirmed hid
      exact ⟨hinv.generation ▸ hc.evolves.generation, htrack, hsession, hid,
        hinv.room.evolve hevolves⟩
  · exact h.moves_same hc hunpublishes fun _ => hfree _ _

theorem Inv.moves_settle (h : Inv s) {c : Transport} (hc : SamePublication s.transport c)
    (hunpublishes : (s.threads t).unpublishes = none) (caller : Caller) {audio : PublishedAudio}
    (haudio : s.transport.publishedAudio = some audio) (hconfirmed : audio.publicationId ≠ [])
    (now : SteadyTime) (hfree : ∀ s' result, PhaseInv s' (caller.afterStop result)) :
    Moves s t (settle c caller audio now).1 s.sdk (settle c caller audio now).2 := by
  have hsame : ∀ audio', s.transport.publishedAudio = some audio' →
      audio'.generation = audio.generation → audio'.publicationId ≠ [] := by
    intro audio' haudio' _
    obtain rfl := Option.some.inj (haudio.symm.trans haudio')
    exact hconfirmed
  unfold settle
  split_ifs
  · refine h.moves_same hc hunpublishes fun _ => ⟨?_, fun audio' haudio' hgeneration => ?_⟩
    · exact (h.held audio haudio).generation ▸ hc.evolves.generation
    · exact hsame audio' (hc.publishedAudio ▸ haudio') hgeneration
  · exact h.moves_take hc hunpublishes caller _ hsame hfree

/-- The thread gives a session id to `unpublishTrack`, or the SDK or the rooms are gone. -/
theorem Inv.moves_unpublish (h : Inv s) (unpublished : List Bytes)
    (hdone : ∀ track, (s.threads t).unpublishes = some track →
      Unpublished { s.sdk with unpublished := s.sdk.unpublished ++ unpublished } track
        ∨ s.transport.activeRoomGeneration = 0 ∨ s.sdk.localParticipant = false)
    (hphase : ∀ s' : State, s'.transport = s.transport → PhaseInv s' phase') :
    Moves s t s.transport { s.sdk with unpublished := s.sdk.unpublished ++ unpublished }
      phase' := by
  have hsdk : s.sdk.Extends { s.sdk with unpublished := s.sdk.unpublished ++ unpublished } :=
    ⟨fun _ _ => id, List.subset_append_left _ _, id⟩
  have haccounted : ∀ track scope, Accounted s track scope → Accounted (s.moved t s.transport
      { s.sdk with unpublished := s.sdk.unpublished ++ unpublished } phase') track scope := by
    intro track scope hplace
    refine hplace.moved hsdk id (fun audio haudio hcarries => .held audio haudio hcarries)
      (fun audio haudio hcarries => .retired audio haudio hcarries) fun hthread => ?_
    rcases hdone track hthread with hunpublished | hclosed | hlost
    · exact .unpublished hunpublished
    · exact .closed hclosed
    · exact .lost hlost
  refine ⟨s.transport.evolves_refl, hsdk, haccounted, fun audio haudio => ?_, h.retired,
    ⟨h.sdk.unique, h.sdk.nonempty⟩, fun track publishing hpublished => ?_, hphase _ rfl⟩
  · have hinv := h.held audio haudio
    exact ⟨hinv.generation, hinv.track, hinv.confirmed, hinv.active, hinv.room⟩
  · obtain ⟨hroom, hplace⟩ := h.published track publishing hpublished
    exact ⟨hroom, haccounted _ _ hplace⟩

theorem Inv.moves_gone (h : Inv s)
    (hgone : s.transport.activeRoomGeneration = 0 ∨ s.sdk.localParticipant = false)
    (hphase : ∀ s' : State, s'.transport = s.transport → PhaseInv s' phase') :
    Moves s t s.transport s.sdk phase' := by
  have hmoves : Moves s t s.transport { s.sdk with unpublished := s.sdk.unpublished ++ [] }
      phase' :=
    h.moves_unpublish [] (fun _ _ => .inr hgone) hphase
  rwa [List.append_nil] at hmoves

/-- A start gives its track to the SDK. -/
theorem Inv.moves_publish (h : Inv s) {start : Start} (hthread : s.threads t = .publish start)
    (hphase : ∀ s' : State, AttachedInv s'.transport start → PhaseInv s' phase') :
    Moves s t s.transport (s.sdk.publish start) phase' := by
  have hinv := h.phase t
  rw [hthread] at hinv
  obtain ⟨hattached, hplace⟩ := hinv
  have hsdk : s.sdk.Extends (s.sdk.publish start) := ⟨fun _ _ => id, fun _ => id, id⟩
  have haccounted : ∀ track scope, Accounted s track scope →
      Accounted (s.moved t s.transport (s.sdk.publish start) phase') track scope := by
    intro track scope hplace
    refine hplace.moved hsdk id (fun audio haudio hcarries => .held audio haudio hcarries)
      (fun audio haudio hcarries => .retired audio haudio hcarries) fun hunpublishes => ?_
    rw [hthread] at hunpublishes
    cases hunpublishes
  refine ⟨s.transport.evolves_refl, hsdk, haccounted, fun audio haudio => ?_, h.retired,
    ⟨h.sdk.unique, h.sdk.nonempty⟩, fun track publishing hpublished => ?_, hphase _ hattached⟩
  · have hinv := h.held audio haudio
    exact ⟨hinv.generation, hinv.track, hinv.confirmed, hinv.active, hinv.room⟩
  · simp only [Sdk.publish] at hpublished
    rcases eq_or_ne track start.generation with rfl | hne
    · rw [Function.update_self] at hpublished
      obtain rfl := Option.some.inj hpublished
      exact ⟨hattached.room, haccounted _ _ hplace⟩
    · rw [Function.update_of_ne hne] at hpublished
      obtain ⟨hroom, hplace⟩ := h.published track publishing hpublished
      exact ⟨hroom, haccounted _ _ hplace⟩

/-! ## The steps of the calls -/

/-- A start begins with a generation of its own. -/
theorem Inv.moves_begin (h : Inv s) {scope : VoiceScope} {roomGeneration : ℕ}
    (hthread : s.threads t = .startBegin scope roomGeneration)
    (hnone : s.transport.publishedAudio = none) :
    Moves s t { s.transport with
        publicationGeneration := s.transport.publicationGeneration + 1
        publicationState := .starting
        publishedAudio := some
          { scope, generation := s.transport.publicationGeneration + 1 } } s.sdk
      (.prepare ⟨scope, s.transport.publicationGeneration + 1, roomGeneration⟩) := by
  have hroom := h.phase t
  rw [hthread] at hroom
  have hevolves : s.transport.Evolves { s.transport with
      publicationGeneration := s.transport.publicationGeneration + 1
      publicationState := .starting
      publishedAudio := some
        { scope, generation := s.transport.publicationGeneration + 1 } } := by
    refine ⟨Nat.le_succ _, fun audio haudio hle => ?_, id, fun _ => rfl⟩
    obtain rfl := Option.some.inj haudio
    exact absurd hle (Nat.not_succ_le_self _)
  refine h.moves_publication hevolves (fun track scope hplace => ?_) (fun audio haudio => ?_)
    h.retired ⟨Nat.le_refl _, Transport.Open.evolve hroom hevolves, fun audio haudio _ => ?_⟩
  · refine hplace.moved s.sdk.extends_refl id (fun audio haudio => ?_)
      (fun audio haudio hcarries => .retired audio haudio hcarries) fun hunpublishes => ?_
    · rw [hnone] at haudio
      cases haudio
    · rw [hthread] at hunpublishes
      cases hunpublishes
  · obtain rfl := Option.some.inj haudio
    exact ⟨rfl, nofun, fun hid => absurd rfl hid, nofun, Transport.Open.evolve hroom hevolves⟩
  · obtain rfl := Option.some.inj haudio
    rfl

/-- A start that still holds the publication puts its track there. -/
theorem Inv.moves_attach (h : Inv s) {start : Start} (hthread : s.threads t = .attach start)
    (hholds : s.transport.holds start.generation = true) :
    Moves s t { s.transport with
        publishedAudio := s.transport.publishedAudio.map fun audio =>
          { audio with track := some start.generation } } s.sdk (.publish start) := by
  have hstart : StartInv s.transport start := by
    have hinv := h.phase t
    rwa [hthread] at hinv
  have hgeneration : ∀ audio, s.transport.publishedAudio = some audio →
      audio.generation = start.generation := fun audio => h.generation_of_holds hholds
  have hown : ∀ audio, s.transport.publishedAudio = some audio →
      ∀ track, audio.track = some track → some start.generation = some track := by
    intro audio haudio track htrack
    rw [← hgeneration audio haudio, (h.held audio haudio).track track htrack]
  refine h.moves_update (f := fun audio => { audio with track := some start.generation })
    (fun audio haudio => ⟨rfl, rfl, hown audio haudio, id⟩) rfl rfl rfl rfl rfl
    (by rw [hthread]; rfl) (fun audio haudio => ?_) fun hevolves => ?_
  · have hheld := h.held audio haudio
    have hsame : some start.generation = some audio.generation := by
      rw [hgeneration audio haudio]
    refine ⟨hheld.generation, fun track htrack => ?_, fun hid => ⟨hsame, ?_⟩, hheld.active,
      hheld.room⟩
    · exact Option.some.inj (htrack.symm.trans hsame)
    · exact (hheld.confirmed hid).2
  · refine ⟨⟨hstart.evolve hevolves, fun audio haudio _ => ?_⟩, ?_⟩
    · obtain ⟨before, -, rfl⟩ := Option.map_eq_some_iff.1 haudio
      rfl
    · obtain ⟨audio, haudio, hown⟩ := holds_iff.1 hholds
      refine .held { audio with track := some start.generation } (by simp [haudio])
        ⟨hown, rfl, hstart.scope audio haudio hown⟩

theorem Inv.startStep_moves (h : Inv s) {phase : Phase} {answer : Answer}
    (hthread : s.threads t = phase)
    (hstep : startStep s.transport s.sdk phase answer = some (c', sdk', phase')) :
    Moves s t c' sdk' phase' := by
  have hinv := h.phase t
  rw [hthread] at hinv
  have hquiet : phase.unpublishes = none → PhaseInv s phase' → Moves s t s.transport s.sdk phase' :=
    fun hunpublishes hphase => h.moves_on (by rw [hthread]; exact hunpublishes) hphase
  unfold startStep at hstep
  split at hstep
  · -- `startChecks`
    split_ifs at hstep <;> cases hstep <;> exact hquiet rfl trivial
  · -- `startRoom`
    rename_i scope connected
    rcases hroom : s.transport.rooms scope with _ | roomGeneration
    · simp only [hroom, Option.some.injEq, Prod.mk.injEq] at hstep
      obtain ⟨rfl, rfl, rfl⟩ := hstep
      exact hquiet rfl trivial
    · simp only [hroom] at hstep
      split_ifs at hstep <;> cases hstep
      · exact hquiet rfl fun _ => by rw [hroom]; rfl
      · exact hquiet rfl trivial
  · -- `startBegin`
    split_ifs at hstep with hbusy <;> cases hstep
    · exact hquiet rfl trivial
    · exact h.moves_begin hthread (by simpa using fun hsome => hbusy (.inr hsome))
  · cases hstep
    exact hquiet rfl hinv
  · cases hstep
    exact hquiet rfl hinv
  · split_ifs at hstep <;> cases hstep <;> exact hquiet rfl hinv
  · -- `attach`
    rename_i start
    split_ifs at hstep with hholds <;> cases hstep
    · exact h.moves_attach hthread hholds
    · exact hquiet rfl trivial
  · -- `publish`
    cases hstep
    exact h.moves_publish hthread fun _ => id
  · cases hstep
    exact h.moves_publish hthread fun _ hattached => hattached.toStartInv
  · -- `published`
    split_ifs at hstep <;> cases hstep
    · exact hquiet rfl hinv
    · exact hquiet rfl trivial
  · -- `poll`
    split_ifs at hstep <;> cases hstep <;> exact hquiet rfl hinv
  · cases hstep
    exact hquiet rfl hinv
  · -- `query`
    rename_i start visible
    rcases hsession : s.sdk.sessionId start.generation with _ | sid
    · simp only [hsession, Option.some.injEq, Prod.mk.injEq] at hstep
      obtain ⟨rfl, rfl, rfl⟩ := hstep
      exact hquiet rfl hinv
    · simp only [hsession, Option.some.injEq, Prod.mk.injEq] at hstep
      obtain ⟨rfl, rfl, rfl⟩ := hstep
      refine hquiet rfl ?_
      split_ifs
      · exact ⟨hinv, hsession⟩
      · exact hinv
  · cases hstep
    exact hquiet rfl (AttachedInv.toStartInv hinv)
  · -- `record`
    rename_i start sid now
    cases hstep
    obtain ⟨hattached, hsession⟩ := hinv
    split_ifs with hholds
    · refine h.moves_confirmed _ (fun audio haudio => ?_) (by rw [hthread]; rfl) fun hevolves =>
        hattached.evolve hevolves
      have hgeneration := h.generation_of_holds hholds haudio
      rw [hgeneration]
      exact ⟨hattached.track audio haudio hgeneration, hsession⟩
    · exact hquiet rfl hattached
  · -- `confirm`
    simp only at hstep
    split_ifs at hstep <;> cases hstep
    · exact hquiet rfl trivial
    · exact hquiet rfl (AttachedInv.toStartInv hinv)
    · exact h.moves_retire _ (by rw [hthread]; rfl) trivial
  · cases hstep
    exact hquiet rfl trivial
  · -- `reset`
    cases hstep
    unfold Transport.resetFailedPublication
    split_ifs
    · exact h.moves_retire _ (by rw [hthread]; rfl) trivial
    · exact hquiet rfl trivial
  · cases hstep

theorem phaseInv_afterStop (caller : Caller) (s : State) (result : VoiceTransportResult) :
    PhaseInv s (caller.afterStop result) := by
  cases caller with
  | stopMicrophone => exact trivial
  | disconnect => exact trivial

theorem samePublication_cancel (c : Transport) : SamePublication c c.cancel := by
  refine ⟨rfl, rfl, rfl, fun hactive => ?_, id, fun _ => rfl⟩
  unfold Transport.cancel at hactive
  simp only at hactive
  split_ifs at hactive
  exact hactive

/-- What a stop does not wait for is confirmed. -/
theorem Inv.confirmed_of_cancel (h : Inv s) {audio : PublishedAudio}
    (haudio : s.transport.publishedAudio = some audio)
    (hidle : s.transport.publicationState ≠ .idle)
    (hwait : ¬(s.transport.cancel.publicationState = .stopping ∧ audio.publicationId = [])) :
    audio.publicationId ≠ [] := by
  intro hid
  have hactive : s.transport.publicationState ≠ .active :=
    fun hactive => (h.held audio haudio).active hactive hid
  refine hwait ⟨?_, hid⟩
  unfold Transport.cancel
  rcases hstate : s.transport.publicationState <;> simp_all

theorem Moves.of_eq {r : Transport × Phase} (h : some r = some (c', phase'))
    (hm : Moves s t r.1 s.sdk r.2) : Moves s t c' s.sdk phase' := by
  obtain rfl := Option.some.inj h
  exact hm

theorem Inv.stopStep_moves (h : Inv s) {phase : Phase} {answer : Answer}
    (hthread : s.threads t = phase)
    (hstep : stopStep s.transport phase answer = some (c', phase')) :
    Moves s t c' s.sdk phase' := by
  have hinv := h.phase t
  rw [hthread] at hinv
  unfold stopStep at hstep
  split at hstep
  · -- `stopBegin`
    rename_i caller now
    have hunpublishes : (s.threads t).unpublishes = none := by rw [hthread]; rfl
    rcases haudio : s.transport.publishedAudio with _ | audio
    · simp only [haudio, Option.some.injEq, Prod.mk.injEq] at hstep
      obtain ⟨rfl, rfl⟩ := hstep
      exact h.moves_on hunpublishes (phaseInv_afterStop ..)
    simp only [haudio] at hstep
    have hsame := samePublication_cancel s.transport
    split_ifs at hstep with hidle hwait
    · cases hstep
      exact h.moves_on hunpublishes (phaseInv_afterStop ..)
    · cases hstep
      exact h.moves_same hsame hunpublishes fun _ =>
        Nat.le_of_eq (h.held audio haudio).generation
    · exact .of_eq hstep (h.moves_settle hsame hunpublishes caller haudio
        (h.confirmed_of_cancel haudio hidle hwait) now (phaseInv_afterStop caller))
  · -- `stopAwaitId`
    rename_i caller scope generation now
    have hunpublishes : (s.threads t).unpublishes = none := by rw [hthread]; rfl
    split at hstep
    · rename_i audio hfilter
      rw [Option.filter_eq_some_iff] at hfilter
      obtain ⟨haudio, hid⟩ := hfilter
      exact .of_eq hstep (h.moves_settle (samePublication_refl _) hunpublishes caller haudio
        (by simp at hid; exact hid.2) now (phaseInv_afterStop caller))
    · cases hstep
      exact h.moves_retire generation hunpublishes (phaseInv_afterStop ..)
  · -- `stopSettle`
    rename_i caller scope generation
    exact .of_eq hstep (h.moves_take (samePublication_refl _) (by rw [hthread]; rfl) caller scope
      hinv.2 (phaseInv_afterStop caller))
  · -- `stopFinish`
    rename_i caller generation result
    cases hstep
    refine h.moves_same ?_ (by rw [hthread]; rfl) fun _ => phaseInv_afterStop ..
    split_ifs
    · exact ⟨rfl, rfl, rfl, nofun, id, fun _ => rfl⟩
    · exact samePublication_refl _
  · cases hstep

/-- While the room is open, a stop gives the session id to `unpublishTrack`. -/
theorem unpublishStep_cases {c : Transport} {sdk : Sdk} {audio : PublishedAudio} {answer : Answer}
    {result : VoiceTransportResult} (htaken : TakenInv c sdk audio)
    (hstep : unpublishStep c sdk audio answer = some (sdk', result)) :
    sdk' = { sdk with unpublished := sdk.unpublished ++ [audio.publicationId] }
      ∨ sdk' = sdk ∧ (c.activeRoomGeneration = 0 ∨ sdk.localParticipant = false) := by
  unfold unpublishStep at hstep
  simp only at hstep
  split_ifs at hstep with hroom hparticipant hid
  · cases hstep
    refine .inr ⟨rfl, .inl ?_⟩
    by_contra hactive
    have hopen := htaken.room hactive
    rw [hroom] at hopen
    cases hopen
  · cases hstep
    exact .inr ⟨rfl, .inr (by simpa using hparticipant)⟩
  · exact absurd hid htaken.confirmed
  · split at hstep
    · cases hstep
      exact .inl rfl
    · cases hstep
      exact .inl rfl
    · cases hstep

theorem Inv.unpublishStep_moves (h : Inv s) {caller : Caller} {audio : PublishedAudio}
    {answer : Answer} {result : VoiceTransportResult}
    (hthread : s.threads t = .stopUnpublish caller audio)
    (hstep : unpublishStep s.transport s.sdk audio answer = some (sdk', result)) :
    Moves s t s.transport sdk' (.stopFinish caller audio.generation result) := by
  have hinv := h.phase t
  rw [hthread] at hinv
  have htaken : TakenInv s.transport s.sdk audio := hinv
  have hphase : ∀ s' : State, s'.transport = s.transport →
      PhaseInv s' (.stopFinish caller audio.generation result) := by
    intro s' hs'
    show audio.generation ≤ s'.transport.publicationGeneration
    rw [hs']
    exact htaken.generation
  have htrack : ∀ track, (s.threads t).unpublishes = some track → track = audio.generation := by
    intro track hunpublishes
    rw [hthread] at hunpublishes
    exact Option.some.inj (hunpublishes.symm.trans htaken.track)
  rcases unpublishStep_cases htaken hstep with rfl | ⟨rfl, hgone⟩
  · refine h.moves_unpublish _ (fun track hunpublishes => .inl ?_) hphase
    rw [htrack track hunpublishes]
    exact ⟨audio.publicationId, htaken.session, by simp⟩
  · exact h.moves_gone hgone hphase

theorem Inv.disconnectStep_moves (h : Inv s) {phase : Phase} {answer : Answer}
    (hthread : s.threads t = phase)
    (hstep : disconnectStep s.transport phase answer = some (c', phase')) :
    Moves s t c' s.sdk phase' := by
  have hinv := h.phase t
  rw [hthread] at hinv
  unfold disconnectStep at hstep
  split at hstep
  · -- `disconnectBegin`
    split_ifs at hstep <;> cases hstep <;> exact h.moves_on (by rw [hthread]; rfl) trivial
  · -- `disconnectState`
    cases hstep
    exact h.moves_same ⟨rfl, rfl, rfl, id, id, fun _ => rfl⟩ (by rw [hthread]; rfl) fun _ => trivial
  · -- `disconnectGeneration`
    cases hstep
    exact h.moves_same ⟨rfl, rfl, rfl, id, fun _ => rfl, fun hne => absurd rfl hne⟩
      (by rw [hthread]; rfl) fun _ => rfl
  · -- `disconnectRooms`
    cases hstep
    exact h.moves_same ⟨rfl, rfl, rfl, id, id, fun hne => absurd hinv hne⟩ (by rw [hthread]; rfl)
      fun _ => hinv
  · -- `disconnectReset`
    cases hstep
    exact h.moves_publication ⟨Nat.le_refl _, nofun, id, fun _ => rfl⟩ (fun _ _ _ => .closed hinv)
      nofun nofun trivial
  · cases hstep

/-! ## The callback -/

/-- What the SDK reports matches the track and no other. -/
theorem Inv.matches_track (h : Inv s) {confirmation : Confirmation} {audio : PublishedAudio}
    (hsession : s.sdk.sessionId confirmation.track = some confirmation.sid)
    (hmatches : matchesPublication s.sdk confirmation audio = true) :
    audio.track = some confirmation.track := by
  unfold matchesPublication at hmatches
  simp only [Bool.and_eq_true, decide_eq_true_eq, Option.any_eq_true, Bool.or_eq_true] at hmatches
  obtain ⟨-, track, htrack, heq | hsame⟩ := hmatches
  · rw [htrack, heq]
  · rw [htrack, h.sdk.injective hsame hsession]

theorem matches_of_carries {sdk : Sdk} {confirmation : Confirmation} {audio : PublishedAudio}
    (h : audio.Carries confirmation.track confirmation.scope) :
    matchesPublication sdk confirmation audio = true := by
  unfold matchesPublication
  simp [h.scope, h.track]

/-- A callback takes what it confirms out of the retired publications and unpublishes it. -/
theorem Inv.moves_erase (h : Inv s) {confirmation : Confirmation}
    (hthread : s.threads t = .callbackRegion confirmation) :
    Moves s t { s.transport with
        retiredPublications := s.transport.retiredPublications.eraseP
          (matchesPublication s.sdk confirmation) } s.sdk (.callbackUnpublish confirmation) := by
  have hunpublishes : (s.threads t).unpublishes = none := by rw [hthread]; rfl
  have hreported : ReportedInv s confirmation := by
    have hinv := h.phase t
    rwa [hthread] at hinv
  refine h.moves_publication ⟨Nat.le_refl _, fun audio haudio _ => ⟨audio, haudio,
      audio.extends_refl⟩, id, fun _ => rfl⟩ (fun track scope hplace => ?_)
    (fun audio haudio => ?_) (fun audio haudio => ?_) ?_
  · refine hplace.moved s.sdk.extends_refl id
      (fun audio haudio hcarries => .held audio haudio hcarries)
      (fun audio haudio hcarries => ?_) fun hthread' => ?_
    · -- what is erased, the callback unpublishes
      by_cases hmatches : matchesPublication s.sdk confirmation audio = true
      · have hsame := h.matches_track hreported.session hmatches
        refine .unpublishing t ?_
        rw [moved_threads_self, ← hcarries.track, hsame]
        rfl
      · exact .retired audio ((List.mem_eraseP_of_neg hmatches).2 haudio) hcarries
    · rw [hunpublishes] at hthread'
      cases hthread'
  · have hheld := h.held audio haudio
    exact ⟨hheld.generation, hheld.track, hheld.confirmed, hheld.active, hheld.room⟩
  · exact h.retired audio (List.mem_of_mem_eraseP haudio)
  · refine ⟨hreported.session, hreported.room, .unpublishing t ?_⟩
    rw [moved_threads_self]
    rfl

theorem Inv.callbackStep_moves (h : Inv s) {phase : Phase} {answer : Answer}
    (hthread : s.threads t = phase)
    (hstep : callbackStep s.transport s.sdk phase answer = some (c', sdk', phase')) :
    Moves s t c' sdk' phase' := by
  have hinv := h.phase t
  rw [hthread] at hinv
  unfold callbackStep at hstep
  split at hstep
  · -- `callbackBegin`
    cases hstep
    refine h.moves_on (by rw [hthread]; rfl) ?_
    split_ifs
    · exact hinv
    · exact trivial
  · -- `callbackRegion`
    rename_i confirmation now
    have hunpublishes : (s.threads t).unpublishes = none := by rw [hthread]; rfl
    have hreported : ReportedInv s confirmation := hinv
    split_ifs at hstep with hheld hretired
    · cases hstep
      refine h.moves_confirmed _ (fun audio haudio => ?_) hunpublishes fun _ => trivial
      rw [haudio, Option.any_some] at hheld
      have htrack := h.matches_track hreported.session hheld
      have hown := (h.held audio haudio).track _ htrack
      rw [← hown]
      exact ⟨htrack, hreported.session⟩
    · cases hstep
      exact h.moves_erase hthread
    · cases hstep
      exact h.moves_on hunpublishes trivial
  · -- `callbackUnpublish`
    rename_i confirmation
    have hreported : ReportedInv s confirmation := hinv
    have htrack : ∀ track, (s.threads t).unpublishes = some track →
        track = confirmation.track := by
      intro track hunpublishes
      rw [hthread] at hunpublishes
      exact (Option.some.inj hunpublishes).symm
    split_ifs at hstep with hopen
    · cases hstep
      refine h.moves_unpublish _ (fun track hunpublishes => .inl ?_) fun _ _ => trivial
      rw [htrack track hunpublishes]
      exact ⟨confirmation.sid, hreported.session, by simp⟩
    · cases hstep
      refine h.moves_gone ?_ fun _ _ => trivial
      by_contra hboth
      rw [not_or] at hboth
      exact hopen (by simp [hreported.room hboth.1, hboth.2])
  · cases hstep

/-! ## Runs -/

theorem Inv.stopStep_moves_of_map (h : Inv s) {phase : Phase} {answer : Answer}
    (hthread : s.threads t = phase)
    (hstep : ((stopStep s.transport phase answer).map fun r => (r.1, s.sdk, r.2))
      = some (c', sdk', phase')) : Moves s t c' sdk' phase' := by
  obtain ⟨r, hr, heq⟩ := Option.map_eq_some_iff.1 hstep
  cases heq
  exact h.stopStep_moves hthread hr

theorem Inv.disconnectStep_moves_of_map (h : Inv s) {phase : Phase} {answer : Answer}
    (hthread : s.threads t = phase)
    (hstep : ((disconnectStep s.transport phase answer).map fun r => (r.1, s.sdk, r.2))
      = some (c', sdk', phase')) : Moves s t c' sdk' phase' := by
  obtain ⟨r, hr, heq⟩ := Option.map_eq_some_iff.1 hstep
  cases heq
  exact h.disconnectStep_moves hthread hr

theorem Inv.resume_moves (h : Inv s) {phase : Phase} {answer : Answer}
    (hthread : s.threads t = phase)
    (hstep : resume s.transport s.sdk phase answer = some (c', sdk', phase')) :
    Moves s t c' sdk' phase' := by
  cases phase with
  | outside => simp [resume, startStep] at hstep
  | stopBegin => exact h.stopStep_moves_of_map hthread hstep
  | stopAwaitId => exact h.stopStep_moves_of_map hthread hstep
  | stopSettle => exact h.stopStep_moves_of_map hthread hstep
  | stopFinish => exact h.stopStep_moves_of_map hthread hstep
  | stopUnpublish caller audio =>
    obtain ⟨r, hr, heq⟩ := Option.map_eq_some_iff.1 hstep
    cases heq
    exact h.unpublishStep_moves hthread hr
  | disconnectBegin => exact h.disconnectStep_moves_of_map hthread hstep
  | disconnectState => exact h.disconnectStep_moves_of_map hthread hstep
  | disconnectGeneration => exact h.disconnectStep_moves_of_map hthread hstep
  | disconnectRooms => exact h.disconnectStep_moves_of_map hthread hstep
  | disconnectReset => exact h.disconnectStep_moves_of_map hthread hstep
  | callbackBegin => exact h.callbackStep_moves hthread hstep
  | callbackRegion => exact h.callbackStep_moves hthread hstep
  | callbackUnpublish => exact h.callbackStep_moves hthread hstep
  | _ => exact h.startStep_moves hthread hstep

/-- A thread begins a call. -/
theorem Inv.call (h : Inv s) {op : Op} {phase : Phase} (hentry : op.entry s.sdk = some phase)
    (hunpublishes : (s.threads t).unpublishes = none) :
    Inv (s.moved t s.transport s.sdk phase) := by
  refine h.move (h.moves_on hunpublishes ?_)
  cases op with
  | startMicrophone scope =>
    cases hentry
    exact trivial
  | stopMicrophone =>
    cases hentry
    exact trivial
  | disconnect =>
    cases hentry
    exact trivial
  | localAudioPublished track =>
    simp only [Op.entry] at hentry
    split at hentry
    · rename_i publishing sid hpublished hsession
      cases hentry
      obtain ⟨hroom, hplace⟩ := h.published track publishing hpublished
      exact ⟨hsession, hroom, hplace⟩
    · cases hentry

/-- A step of the SDK. -/
theorem Inv.sdkStep (h : Inv s) (hsdk : s.sdk.Extends sdk')
    (hpublished : sdk'.published = s.sdk.published) (hinv : SdkInv sdk') :
    Inv { s with sdk := sdk' } := by
  have haccounted : ∀ track scope, Accounted s track scope →
      Accounted { s with sdk := sdk' } track scope := by
    intro track scope hplace
    cases hplace with
    | held audio haudio hcarries => exact .held audio haudio hcarries
    | retired audio haudio hcarries => exact .retired audio haudio hcarries
    | unpublishing t ht => exact .unpublishing t ht
    | unpublished hdone => exact .unpublished (hdone.extend hsdk)
    | closed hzero => exact .closed hzero
    | lost hgone => exact .lost (hsdk.localParticipant hgone)
  refine ⟨fun audio haudio => ?_, h.retired, hinv, fun track publishing hsome => ?_,
    fun t => (h.phase t).evolve s.transport.evolves_refl hsdk haccounted⟩
  · have hheld := h.held audio haudio
    refine ⟨hheld.generation, hheld.track, fun hid => ?_, hheld.active, hheld.room⟩
    obtain ⟨htrack, hsession⟩ := hheld.confirmed hid
    exact ⟨htrack, hsdk.sessionId _ _ hsession⟩
  · obtain ⟨hroom, hplace⟩ := h.published track publishing (hpublished ▸ hsome)
    exact ⟨hroom, haccounted _ _ hplace⟩

/-- A session id that is new is that of its track, and the others keep theirs. -/
theorem Inv.assign (h : Inv s) {track : LocalAudioTrack} {sid : Bytes} (hsid : sid ≠ [])
    (hfresh : sid ∉ s.sdk.sessionIds.map Prod.snd) :
    Inv { s with sdk := { s.sdk with sessionIds := s.sdk.sessionIds ++ [(track, sid)] } } := by
  have hlookup : ∀ other, Sdk.sessionId
      { s.sdk with sessionIds := s.sdk.sessionIds ++ [(track, sid)] } other
      = (s.sdk.sessionId other).or (if track = other then some sid else none) := by
    intro other
    unfold Sdk.sessionId
    simp only [List.find?_append, Option.map_or]
    congr 1
    by_cases heq : track = other <;> simp [heq]
  refine h.sdkStep ⟨fun other sid' hsession => ?_, fun _ => id, id⟩ rfl
    ⟨?_, fun other sid' hsession => ?_⟩
  · rw [hlookup, hsession]
    rfl
  · rw [List.map_append, List.map_singleton, ← List.concat_eq_append, List.nodup_concat]
    exact ⟨hfresh, h.sdk.unique⟩
  · rw [hlookup, Option.or_eq_some_iff] at hsession
    rcases hsession with hold | ⟨-, hnew⟩
    · exact h.sdk.nonempty _ _ hold
    · split_ifs at hnew
      obtain rfl := Option.some.inj hnew
      exact hsid

theorem Inv.step (h : Inv s) {a : Action} (hstep : step s a = some s') : Inv s' := by
  cases a with
  | call t op =>
    unfold LocalPublication.step at hstep
    simp only at hstep
    split at hstep
    · rename_i result hthread
      obtain ⟨phase, hentry, rfl⟩ := Option.map_eq_some_iff.1 hstep
      exact h.call hentry (by rw [hthread]; rfl)
    · cases hstep
  | resume t answer =>
    obtain ⟨r, hr, rfl⟩ := Option.map_eq_some_iff.1 hstep
    exact h.move (h.resume_moves rfl hr)
  | assign track sid =>
    unfold LocalPublication.step at hstep
    simp only at hstep
    split_ifs at hstep with hguard
    obtain rfl := Option.some.inj hstep
    have hfresh : sid ∉ s.sdk.sessionIds.map Prod.snd := by
      intro hmem
      obtain ⟨entry, hentry, rfl⟩ := List.mem_map.1 hmem
      simpa using List.all_eq_true.1 hguard.2.2.2 entry hentry
    exact h.assign hguard.2.2.1 hfresh
  | loseParticipant =>
    obtain rfl := Option.some.inj hstep
    exact h.sdkStep ⟨fun _ _ => id, fun _ => id, fun _ => rfl⟩ rfl ⟨h.sdk.unique, h.sdk.nonempty⟩

theorem inv_initial (publicationGeneration roomGeneration : ℕ) (granted : VoiceScope → Bool) :
    Inv (initial publicationGeneration roomGeneration granted) where
  held := nofun
  retired := nofun
  sdk := ⟨List.nodup_nil, nofun⟩
  published := nofun
  phase _ := trivial

end Keep

/-! ## Steps for an older generation -/

/-- The publication is as it was. -/
def Transport.SameHeld (c c' : Transport) : Prop :=
  c'.publicationState = c.publicationState ∧ c'.publishedAudio = c.publishedAudio

theorem retire_of_not_holds {c : Transport} {generation : ℕ} (h : c.holds generation = false) :
    c.retirePublicationLocked generation = c := by
  rcases retire_cases c generation with hkept | ⟨audio, haudio, hgeneration, -⟩
  · exact hkept
  · rw [holds_iff.2 ⟨audio, haudio, hgeneration⟩] at h
    cases h

theorem sameHeld_retireToIdle {c : Transport} {generation : ℕ} (h : c.holds generation = false)
    (hidle : c.publicationState = .idle) : c.SameHeld (c.retireToIdle generation) := by
  unfold Transport.retireToIdle
  rw [retire_of_not_holds h]
  exact ⟨hidle.symm, rfl⟩

section Stale

variable {s s' : State} {t : ℕ} {c' : Transport} {sdk' : Sdk} {phase phase' : Phase}
  {answer : Answer}

theorem Inv.not_holds (h : Inv s) {generation : ℕ}
    (hlt : generation < s.transport.publicationGeneration) :
    s.transport.holds generation = false := by
  by_contra hholds
  have hlatest := h.latest (by simpa using hholds)
  omega

theorem sameHeld_refl (c : Transport) : c.SameHeld c := ⟨rfl, rfl⟩

/-- Where an older generation has not taken the step of `confirm`, it leaves the publication. -/
theorem Inv.startStep_stale (h : Inv s) {generation : ℕ}
    (hgeneration : phase.generation = some generation)
    (hlt : generation < s.transport.publicationGeneration)
    (hconfirm : ∀ start, phase = .confirm start → s.transport.publicationState = .idle
      ∨ s.transport.publicationState = .stopping)
    (hstep : startStep s.transport s.sdk phase answer = some (c', sdk', phase')) :
    s.transport.SameHeld c' := by
  have hnot := h.not_holds hlt
  unfold startStep at hstep
  split at hstep
  · cases hgeneration
  · cases hgeneration
  · cases hgeneration
  · cases hstep
    exact sameHeld_refl _
  · cases hstep
    exact sameHeld_refl _
  · split_ifs at hstep <;> cases hstep <;> exact sameHeld_refl _
  · -- `attach`
    obtain rfl := Option.some.inj hgeneration
    rw [hnot] at hstep
    cases hstep
    exact sameHeld_refl _
  · cases hstep
    exact sameHeld_refl _
  · cases hstep
    exact sameHeld_refl _
  · split_ifs at hstep <;> cases hstep <;> exact sameHeld_refl _
  · split_ifs at hstep <;> cases hstep <;> exact sameHeld_refl _
  · cases hstep
    exact sameHeld_refl _
  · -- `query`
    split at hstep <;> cases hstep <;> exact sameHeld_refl _
  · cases hstep
    exact sameHeld_refl _
  · -- `record`
    obtain rfl := Option.some.inj hgeneration
    rw [hnot] at hstep
    cases hstep
    exact sameHeld_refl _
  · -- `confirm`
    rename_i start
    obtain rfl := Option.some.inj hgeneration
    simp only [hnot, Bool.not_false, Bool.true_or, true_and] at hstep
    rcases hconfirm start rfl with hidle | hstopping
    · simp only [hidle, reduceCtorEq, false_and, if_false] at hstep
      cases hstep
      exact sameHeld_retireToIdle hnot hidle
    · simp only [hstopping, reduceCtorEq, false_and, if_false, if_true] at hstep
      cases hstep
      exact sameHeld_refl _
  · cases hstep
    exact sameHeld_refl _
  · -- `reset`
    obtain rfl := Option.some.inj hgeneration
    cases hstep
    unfold Transport.resetFailedPublication
    rw [hnot]
    exact sameHeld_refl _
  · cases hstep

theorem Inv.take_stale (h : Inv s) (caller : Caller) (scope : VoiceScope) {generation : ℕ}
    (hlt : generation < s.transport.publicationGeneration) :
    s.transport.SameHeld (take s.transport caller scope generation).1 := by
  unfold take
  rcases haudio : s.transport.publishedAudio with _ | audio
  · exact sameHeld_refl _
  · have hlatest := (h.held audio haudio).generation
    simp only
    rw [if_neg (by omega)]
    exact sameHeld_refl _

/-- A stop that waited in vain finds nothing of an older generation. -/
theorem Inv.stopAwaitId_stale (h : Inv s) {caller : Caller} {scope : VoiceScope} {generation : ℕ}
    (hlt : generation < s.transport.publicationGeneration)
    (hstep : stopStep s.transport (.stopAwaitId caller scope generation) answer
      = some (c', phase')) : c' = s.transport.retireToIdle generation := by
  have hfilter : (s.transport.publishedAudio.filter fun audio =>
      audio.generation = generation && audio.publicationId ≠ []) = none := by
    refine Option.filter_eq_none_iff.2 fun audio haudio => ?_
    have hlatest := (h.held audio haudio).generation
    simp only [Bool.and_eq_true, decide_eq_true_eq, not_and]
    omega
  cases answer with
  | clock now =>
    simp only [stopStep, hfilter, Option.some.injEq, Prod.mk.injEq] at hstep
    exact hstep.1.symm
  | _ => cases hstep

theorem Inv.stopStep_stale (h : Inv s) {generation : ℕ}
    (hgeneration : phase.generation = some generation)
    (hlt : generation < s.transport.publicationGeneration)
    (hawait : ∀ caller scope generation, phase = .stopAwaitId caller scope generation →
      s.transport.publicationState = .idle)
    (hstep : stopStep s.transport phase answer = some (c', phase')) :
    s.transport.SameHeld c' := by
  cases phase with
  | stopAwaitId caller scope generation' =>
    obtain rfl := Option.some.inj hgeneration
    rw [h.stopAwaitId_stale hlt hstep]
    exact sameHeld_retireToIdle (h.not_holds hlt) (hawait _ _ _ rfl)
  | stopSettle caller scope generation' =>
    obtain rfl := Option.some.inj hgeneration
    cases answer with
    | silent =>
      have htake := h.take_stale caller scope hlt
      rw [Option.some.inj hstep] at htake
      exact htake
    | _ => cases hstep
  | stopFinish caller generation' result =>
    obtain rfl := Option.some.inj hgeneration
    cases answer with
    | silent =>
      simp only [stopStep, if_neg (show ¬s.transport.publicationGeneration = generation' by omega),
        Option.some.injEq, Prod.mk.injEq] at hstep
      rw [← hstep.1]
      exact sameHeld_refl _
    | _ => cases hstep
  | stopBegin => cases hgeneration
  | _ => simp [stopStep] at hstep

theorem Inv.callbackStep_stale (h : Inv s) {generation : ℕ} (hphase : PhaseInv s phase)
    (hgeneration : phase.generation = some generation)
    (hlt : generation < s.transport.publicationGeneration)
    (hstep : callbackStep s.transport s.sdk phase answer = some (c', sdk', phase')) :
    s.transport.SameHeld c' := by
  unfold callbackStep at hstep
  split at hstep
  · cases hstep
    exact sameHeld_refl _
  · rename_i confirmation now
    obtain rfl := Option.some.inj hgeneration
    have hreported : ReportedInv s confirmation := hphase
    split_ifs at hstep with hheld
    · -- the publication in progress is of the latest generation
      obtain ⟨audio, haudio, hmatches⟩ := (Option.any_eq_true _ _).1 hheld
      have hinv := h.held audio haudio
      have hown := hinv.track _ (h.matches_track hreported.session hmatches)
      rw [hown, hinv.generation] at hlt
      exact absurd hlt (Nat.lt_irrefl _)
    all_goals
      cases hstep
      exact sameHeld_refl _
  · split_ifs at hstep <;> cases hstep <;> exact sameHeld_refl _
  · cases hstep

/-- What `keepsNewer` asks of a thread. -/
def Transport.KeepsNewer (c : Transport) : Phase → Prop
  | .confirm start => start.generation < c.publicationGeneration →
    c.publicationState = .idle ∨ c.publicationState = .stopping
  | .stopAwaitId _ _ generation => generation < c.publicationGeneration →
    c.publicationState = .idle
  | _ => True

theorem keepsNewer_iff : keepsNewer s (.resume t answer) = true ↔
    s.transport.KeepsNewer (s.threads t) := by
  rcases hthread : s.threads t <;>
    simp [keepsNewer, Transport.KeepsNewer, hthread, imp_iff_not_or, or_assoc]

theorem Inv.resume_stale (h : Inv s) (hthread : s.threads t = phase) {generation : ℕ}
    (hgeneration : phase.generation = some generation)
    (hlt : generation < s.transport.publicationGeneration)
    (hkeeps : s.transport.KeepsNewer phase)
    (hstep : resume s.transport s.sdk phase answer = some (c', sdk', phase')) :
    s.transport.SameHeld c' := by
  have hstop : ∀ r, stopStep s.transport phase answer = some r →
      s.transport.SameHeld r.1 := by
    refine fun r hr => h.stopStep_stale hgeneration hlt (fun caller scope g heq => ?_) hr
    rw [heq] at hgeneration hkeeps
    obtain rfl := Option.some.inj hgeneration
    exact hkeeps hlt
  have hstart : startStep s.transport s.sdk phase answer = some (c', sdk', phase') →
      s.transport.SameHeld c' := by
    refine h.startStep_stale hgeneration hlt fun start heq => ?_
    rw [heq] at hgeneration hkeeps
    obtain rfl := Option.some.inj hgeneration
    exact hkeeps hlt
  have hcallback : callbackStep s.transport s.sdk phase answer = some (c', sdk', phase') →
      s.transport.SameHeld c' :=
    h.callbackStep_stale (hthread ▸ h.phase t) hgeneration hlt
  cases phase with
  | stopAwaitId =>
    obtain ⟨r, hr, heq⟩ := Option.map_eq_some_iff.1 hstep
    cases heq
    exact hstop r hr
  | stopSettle =>
    obtain ⟨r, hr, heq⟩ := Option.map_eq_some_iff.1 hstep
    cases heq
    exact hstop r hr
  | stopFinish =>
    obtain ⟨r, hr, heq⟩ := Option.map_eq_some_iff.1 hstep
    cases heq
    exact hstop r hr
  | stopUnpublish =>
    obtain ⟨r, hr, heq⟩ := Option.map_eq_some_iff.1 hstep
    cases heq
    exact sameHeld_refl _
  | callbackBegin => exact hcallback hstep
  | callbackRegion => exact hcallback hstep
  | callbackUnpublish => exact hcallback hstep
  | outside => cases hgeneration
  | stopBegin => cases hgeneration
  | disconnectBegin => cases hgeneration
  | disconnectState => cases hgeneration
  | disconnectGeneration => cases hgeneration
  | disconnectRooms => cases hgeneration
  | disconnectReset => cases hgeneration
  | _ => exact hstart hstep

/-- The two regions that do not ask set a newer generation idle. -/
theorem Inv.keepsNewer_of_sameHeld (h : Inv s)
    (hstep : resume s.transport s.sdk phase answer = some (c', sdk', phase'))
    (hsame : ∀ generation, phase.generation = some generation →
      generation < s.transport.publicationGeneration → s.transport.SameHeld c') :
    s.transport.KeepsNewer phase := by
  cases phase with
  | confirm start =>
    intro hlt
    by_contra hnot
    rw [not_or] at hnot
    have hholds := h.not_holds hlt
    have hkept := (hsame _ rfl hlt).1
    have hany : (s.transport.publishedAudio.any fun audio =>
        audio.generation = start.generation && audio.publicationId ≠ []) = false := by
      refine (Option.any_eq_false _ _).2 fun audio haudio => ?_
      have hlatest := (h.held audio haudio).generation
      simp only [Bool.and_eq_false_iff, decide_eq_false_iff_not]
      exact .inl (by omega)
    cases answer with
    | silent =>
      simp only [resume, startStep, hholds, hany, hnot.2, Bool.false_eq_true, and_false, if_false,
        Option.some.injEq, Prod.mk.injEq] at hstep
      rw [← hstep.1] at hkept
      exact hnot.1 hkept.symm
    | _ => simp [resume, startStep] at hstep
  | stopAwaitId caller scope generation =>
    intro hlt
    obtain ⟨r, hr, heq⟩ := Option.map_eq_some_iff.1 hstep
    cases heq
    have hkept := (hsame generation rfl hlt).1
    rw [h.stopAwaitId_stale hlt hr] at hkept
    exact hkept.symm
  | _ => exact trivial

/-! ## Successful starts -/

theorem failure_ne_success {error : VoiceTransportError} {message : Bytes} (h : error ≠ .none) :
    failure error message ≠ returned .success := by
  intro heq
  unfold failure returned at heq
  simp only [Phase.outside.injEq, Option.some.injEq] at heq
  exact h (congrArg VoiceTransportResult.error heq)

theorem startFailure_ne_success (start : Start) (error : VoiceTransportError) (toState : String)
    (message : Bytes) : start.failure error toState message ≠ returned .success := by
  intro heq
  unfold Start.failure failure returned at heq
  simp only [Phase.outside.injEq, Option.some.injEq] at heq
  have hmessage := congrArg VoiceTransportResult.message heq
  have hscope : bytes "; scope=" ≠ [] := by decide
  simp [VoiceTransportResult.failure, VoiceTransportResult.success, publicationDiagnostic, hscope]
    at hmessage

theorem absurd_success {c₁ : Transport} {sdk₁ : Sdk} (hne : phase' ≠ returned .success)
    (h : some (c₁, sdk₁, phase') = some (c', sdk', returned .success)) : False :=
  hne (congrArg (fun r => r.2.2) (Option.some.inj h))

/-- A start succeeds in its last region only. -/
theorem startStep_success
    (hstep : startStep s.transport s.sdk phase answer = some (c', sdk', returned .success)) :
    c' = s.transport ∧ ∃ audio, phase.generation = some audio.generation
      ∧ s.transport.publishedAudio = some audio ∧ s.transport.publicationState = .active
      ∧ audio.publicationId ≠ [] := by
  have hinvalid : ∀ message, failure .invalidState message ≠ returned .success :=
    fun message => failure_ne_success nofun
  unfold startStep at hstep
  split at hstep
  · split_ifs at hstep
    · exact (absurd_success (hinvalid _) hstep).elim
    · cases hstep
  · split at hstep
    · exact (absurd_success (hinvalid _) hstep).elim
    · split_ifs at hstep
      · cases hstep
      · exact (absurd_success (hinvalid _) hstep).elim
  · split_ifs at hstep
    · exact (absurd_success (hinvalid _) hstep).elim
    · cases hstep
  · cases hstep
  · cases hstep
  · split_ifs at hstep <;> cases hstep
  · -- `attach`
    split_ifs at hstep
    · cases hstep
    · exact (absurd_success (startFailure_ne_success _ _ _ _) hstep).elim
  · cases hstep
  · cases hstep
  · -- `published`
    split_ifs at hstep
    · cases hstep
    · exact (absurd_success (startFailure_ne_success _ _ _ _) hstep).elim
  · split_ifs at hstep <;> cases hstep
  · cases hstep
  · -- `query`
    rename_i visible
    split at hstep
    · cases hstep
    · cases visible <;> cases hstep
  · cases hstep
  · cases hstep
  · -- `confirm`
    simp only at hstep
    split_ifs at hstep with hactive
    · cases hstep
      obtain ⟨-, hstate, hany⟩ := hactive
      obtain ⟨audio, haudio, hown⟩ := (Option.any_eq_true _ _).1 hany
      simp only [Bool.and_eq_true, decide_eq_true_eq] at hown
      exact ⟨rfl, audio, by rw [hown.1]; rfl, haudio, hstate, hown.2⟩
    · cases hstep
    · exact (absurd_success (startFailure_ne_success _ _ _ _) hstep).elim
  · exact (absurd_success (startFailure_ne_success _ _ _ _) hstep).elim
  · exact (absurd_success (startFailure_ne_success _ _ _ _) hstep).elim
  · cases hstep

theorem resume_success (hphase : phase.isStart = true)
    (hstep : resume s.transport s.sdk phase answer = some (c', sdk', returned .success)) :
    c' = s.transport ∧ ∃ audio, phase.generation = some audio.generation
      ∧ s.transport.publishedAudio = some audio ∧ s.transport.publicationState = .active
      ∧ audio.publicationId ≠ [] := by
  have hstart : startStep s.transport s.sdk phase answer = some (c', sdk', returned .success) := by
    cases phase <;> first | exact hstep | cases hphase
  exact startStep_success hstart

/-! ## Late confirmations -/

theorem Current.open {track : LocalAudioTrack} (h : Current s track) :
    s.transport.activeRoomGeneration ≠ 0 ∧ s.sdk.localParticipant = true := by
  obtain ⟨hparticipant, publishing, -, hcurrent⟩ := h
  unfold Transport.isCurrentRoomGeneration at hcurrent
  simp only [Bool.and_eq_true, decide_eq_true_eq] at hcurrent
  exact ⟨hcurrent.2 ▸ hcurrent.1, hparticipant⟩

/-- A confirmation of a track that is not in progress takes it from the retired ones, unless a
thread has taken it over before. -/
theorem Inv.late (h : Inv s) {confirmation : Confirmation}
    (hthread : s.threads t = .callbackRegion confirmation)
    (hholds : s.transport.holds confirmation.track = false)
    (hcurrent : Current s confirmation.track)
    (hstep : callbackStep s.transport s.sdk (.callbackRegion confirmation) answer
      = some (c', sdk', phase')) :
    Unpublished sdk' confirmation.track
      ∨ ∃ t', ((s.moved t c' sdk' phase').threads t').unpublishes = some confirmation.track := by
  have hinv := h.phase t
  rw [hthread] at hinv
  have hreported : ReportedInv s confirmation := hinv
  obtain ⟨hactive, hparticipant⟩ := hcurrent.open
  have hnone : s.transport.publishedAudio.any (matchesPublication s.sdk confirmation) = false := by
    refine (Option.any_eq_false _ _).2 fun audio haudio => ?_
    by_contra hmatches
    have htrack := h.matches_track hreported.session (by simpa using hmatches)
    rw [holds_iff.2 ⟨audio, haudio, ((h.held audio haudio).track _ htrack).symm⟩] at hholds
    cases hholds
  cases answer with
  | clock now =>
    simp only [callbackStep, hnone, Bool.false_eq_true, if_false] at hstep
    cases hreported.accounted with
    | held audio haudio hcarries =>
      rw [holds_iff.2 ⟨audio, haudio, hcarries.generation⟩] at hholds
      cases hholds
    | retired audio haudio hcarries =>
      have hany : s.transport.retiredPublications.any (matchesPublication s.sdk confirmation)
          = true := List.any_eq_true.2 ⟨audio, haudio, matches_of_carries hcarries⟩
      rw [if_pos hany] at hstep
      cases hstep
      exact .inr ⟨t, by rw [moved_threads_self]; rfl⟩
    | unpublishing t' ht' =>
      have hne : t' ≠ t := by
        rintro rfl
        rw [hthread] at ht'
        cases ht'
      exact .inr ⟨t', by rwa [moved_threads_of_ne hne]⟩
    | unpublished hdone =>
      left
      split_ifs at hstep <;> cases hstep <;> exact hdone
    | closed hzero => exact absurd hzero hactive
    | lost hgone =>
      rw [hparticipant] at hgone
      cases hgone
  | _ => cases hstep

/-- A thread that is about to unpublish a track does so. -/
theorem Inv.unpublishes (h : Inv s) (hthread : s.threads t = phase) {track : LocalAudioTrack}
    (hunpublishes : phase.unpublishes = some track) (hcurrent : Current s track)
    (hstep : resume s.transport s.sdk phase answer = some (c', sdk', phase')) :
    Unpublished sdk' track := by
  have hinv := h.phase t
  rw [hthread] at hinv
  obtain ⟨hactive, hparticipant⟩ := hcurrent.open
  cases phase with
  | stopUnpublish caller audio =>
    have htaken : TakenInv s.transport s.sdk audio := hinv
    obtain rfl : audio.generation = track :=
      Option.some.inj (htaken.track.symm.trans hunpublishes)
    obtain ⟨r, hr, heq⟩ := Option.map_eq_some_iff.1 hstep
    cases heq
    rcases unpublishStep_cases htaken hr with hdone | ⟨-, hclosed | hgone⟩
    · rw [hdone]
      exact ⟨audio.publicationId, htaken.session, by simp⟩
    · exact absurd hclosed hactive
    · rw [hparticipant] at hgone
      cases hgone
  | callbackUnpublish confirmation =>
    have hreported : ReportedInv s confirmation := hinv
    obtain rfl : confirmation.track = track := Option.some.inj hunpublishes
    cases answer with
    | silent =>
      simp only [resume, callbackStep, hreported.room hactive, hparticipant, Bool.and_self,
        if_true, Option.some.injEq, Prod.mk.injEq] at hstep
      rw [← hstep.2.1]
      exact ⟨confirmation.sid, hreported.session, by simp⟩
    | _ => simp [resume, callbackStep] at hstep
  | _ => cases hunpublishes

theorem ready {track : LocalAudioTrack} (h : (s.threads t).unpublishes = some track) :
    ∃ answer, (step s (.resume t answer)).isSome = true := by
  rcases hthread : s.threads t <;> rw [hthread] at h <;> try cases h
  · refine ⟨.holds false, ?_⟩
    simp only [step, hthread, resume, unpublishStep]
    split_ifs <;> rfl
  · refine ⟨.silent, ?_⟩
    simp only [step, hthread, resume, callbackStep]
    split_ifs <;> rfl

/-! ## Orderly runs -/

/-- A step is orderly exactly if it sets no newer generation idle. -/
theorem Inv.orderly_iff (h : Inv s) {a : Action}
    (hstep : LocalPublication.step s a = some s') :
    Orderly s a ↔ keepsNewer s a = true := by
  cases a with
  | resume t answer =>
    obtain ⟨r, hr, rfl⟩ := Option.map_eq_some_iff.1 hstep
    rw [keepsNewer_iff]
    constructor
    · intro horderly
      have hsame := (horderly.step t answer _ rfl hstep).generation
      exact h.keepsNewer_of_sameHeld hr hsame
    · intro hkeeps
      refine ⟨fun t track hunpublishes => ready hunpublishes, ?_⟩
      rintro t' answer' s' ⟨⟩ hstep'
      obtain rfl := Option.some.inj (hstep.symm.trans hstep')
      refine ⟨fun g hgeneration hlt => h.resume_stale rfl hgeneration hlt hkeeps hr,
        fun hstart hsuccess => ?_, fun confirmation hthread hholds hcurrent => ?_,
        fun track hunpublishes hcurrent => h.unpublishes rfl hunpublishes hcurrent hr⟩
      · have hphase : r.2.2 = returned .success := (moved_threads_self).symm.trans hsuccess
        obtain ⟨hkept, audio, hgeneration, haudio, hactive, hid⟩ :=
          resume_success hstart (hr.trans (by rw [← hphase]))
        refine ⟨audio, hgeneration, ?_, ?_, hid⟩
        · exact (congrArg Transport.publishedAudio hkept).trans haudio
        · exact (congrArg Transport.publicationState hkept).trans hactive
      · rw [hthread] at hr
        exact h.late hthread hholds hcurrent hr
  | _ =>
    refine ⟨fun _ => rfl, fun _ => ⟨fun t track hunpublishes => ready hunpublishes, ?_⟩⟩
    intro t answer s' heq
    cases heq

end Stale

/-- Every run on a connection is orderly in all its steps exactly if none of them sets a newer
generation idle. -/
theorem publication_orderly_iff (publicationGeneration roomGeneration : ℕ)
    (granted : VoiceScope → Bool) (as : List Action) (s : State) :
    Runs step Orderly (initial publicationGeneration roomGeneration granted) as s
      ↔ Runs step (fun s a => keepsNewer s a = true)
          (initial publicationGeneration roomGeneration granted) as s := by
  have hinv := inv_initial publicationGeneration roomGeneration granted
  constructor
  · intro hruns
    exact hruns.strengthen (fun s a s' h _ hstep => h.step hstep)
      (fun s a s' h horderly hstep => (h.orderly_iff hstep).1 horderly) hinv
  · intro hruns
    exact hruns.strengthen (fun s a s' h _ hstep => h.step hstep)
      (fun s a s' h hkeeps hstep => (h.orderly_iff hstep).2 hkeeps) hinv

/-- Threads 1 and 2 stop the publication that thread 0 starts. After thread 1 has waited in vain for
its session id, thread 3 starts the next one. -/
def overtakenStop : List Action :=
  [.call 0 (.startMicrophone .team), .resume 0 .silent, .resume 0 (.holds true),
    .resume 0 .silent, .call 1 .stopMicrophone, .resume 1 (.clock 0), .call 2 .stopMicrophone,
    .resume 2 (.clock 0), .resume 1 (.clock 0), .call 3 (.startMicrophone .team),
    .resume 3 .silent, .resume 3 (.holds true), .resume 3 .silent]

/-- Then thread 2, which has waited in vain as well, sets the newer publication idle. -/
theorem publication_not_orderly : ∃ s s',
    Runs step Free (initial 0 1 fun _ => true) overtakenStop s
      ∧ step s (.resume 2 (.clock 0)) = some s' ∧ (s.threads 2).generation = some 1
      ∧ s.transport.publicationGeneration = 2 ∧ s.transport.publicationState = .starting
      ∧ s'.transport.publicationState = .idle ∧ ¬Orderly s (.resume 2 (.clock 0)) := by
  obtain ⟨s, hrun, hend⟩ := exists_run step overtakenStop (s := initial 0 1 fun _ => true)
    (p := fun s => (s.threads 2).generation = some 1 && s.transport.publicationGeneration = 2
      && s.transport.publicationState = .starting
      && (step s (.resume 2 (.clock 0))).any fun s' => s'.transport.publicationState = .idle)
    (by decide +kernel)
  simp only [Bool.and_eq_true, decide_eq_true_eq] at hend
  obtain ⟨⟨⟨hworks, hlatest⟩, hstarting⟩, hlast⟩ := hend
  obtain ⟨s', hstep, hidle⟩ := (Option.any_eq_true _ _).1 hlast
  rw [decide_eq_true_eq] at hidle
  refine ⟨s, s', hrun, hstep, hworks, hlatest, hstarting, hidle, fun horderly => ?_⟩
  have hsame := (horderly.step 2 _ s' rfl hstep).generation 1 hworks (by omega)
  rw [hstarting, hidle] at hsame
  cases hsame.1

end VoxTree.LocalPublication

import VoxTree.Proofs.RemoteAudio
import VoxTree.RemotePlayouts

/-!
# Nobody is heard who is not admitted

Every living playout belongs to one publication, which gives it its gain, or to one thread that
ends it next (`playouts_governed`). Each step moves one playout, replaces it, or ends it. The
publications are those that the client and the transport agree on (`reaches_run`).
-/

namespace VoxTree.RemotePlayouts

open Machine Ownership

variable {s s' : State} {key : RemoteStreamKey} {publication : Publication}

/-! ## Publications -/

namespace State

theorem publication_setPublication (k : RemoteStreamKey) :
    (s.setPublication key publication).publication k
      = if k = key then some publication else s.publication k := by
  rcases k with ⟨scope, participantId⟩
  rcases key with ⟨scope', participantId'⟩
  simp only [State.publication, State.setPublication, RemoteStreamKey.mk.injEq]
  by_cases hscope : scope = scope'
  · subst hscope
    rw [Function.update_self, Std.ExtTreeMap.getElem?_insert]
    simp only [Std.LawfulEqCmp.compare_eq_iff_eq, true_and, eq_comm (a := participantId')]
  · rw [Function.update_of_ne hscope, if_neg fun h => hscope h.1]

theorem publication_erasePublication (k : RemoteStreamKey) :
    (s.erasePublication key).publication k
      = if k = key then none else s.publication k := by
  rcases k with ⟨scope, participantId⟩
  rcases key with ⟨scope', participantId'⟩
  simp only [State.publication, State.erasePublication, RemoteStreamKey.mk.injEq]
  by_cases hscope : scope = scope'
  · subst hscope
    rw [Function.update_self, Std.ExtTreeMap.getElem?_erase]
    simp only [Std.LawfulEqCmp.compare_eq_iff_eq, true_and, eq_comm (a := participantId')]
  · rw [Function.update_of_ne hscope, if_neg fun h => hscope h.1]

/-- Who has which playout: a publication, or a thread. -/
def own (s : State) : RemoteStreamKey ⊕ ℕ → Option ℕ
  | .inl key => (s.publication key).bind Publication.playout
  | .inr thread => (s.threads thread).hand

theorem own_setPublication :
    (s.setPublication key publication).own
      = Function.update s.own (.inl key) publication.playout := by
  funext a
  rcases a with k | thread
  · by_cases hk : k = key
    · subst hk
      simp [own, publication_setPublication]
    · rw [Function.update_of_ne (by simpa using hk)]
      simp [own, publication_setPublication, hk]
  · rfl

theorem own_erasePublication :
    (s.erasePublication key).own = Function.update s.own (.inl key) none := by
  funext a
  rcases a with k | thread
  · by_cases hk : k = key
    · subst hk
      simp [own, publication_erasePublication]
    · rw [Function.update_of_ne (by simpa using hk)]
      simp [own, publication_erasePublication, hk]
  · rfl

theorem own_enter (thread : ℕ) (phase : Phase) :
    (s.enter thread phase).own = Function.update s.own (.inr thread) phase.hand := by
  funext a
  rcases a with k | other
  · rfl
  · by_cases hother : other = thread
    · subst hother
      simp [own, enter]
    · rw [Function.update_of_ne (by simpa using hother)]
      simp [own, enter, Function.update_of_ne hother]

/-- The thread has no playout before and none after. -/
theorem own_enter_of_hand {thread : ℕ} {phase : Phase} (hthread : (s.threads thread).hand = none)
    (hphase : phase.hand = none) : (s.enter thread phase).own = s.own := by
  rw [own_enter, hphase]
  exact Function.update_eq_self_iff.2 hthread.symm

/-- Only the publications and the threads have playouts. -/
theorem owns_of_eq (hpublications : s'.publications = s.publications)
    (hthreads : s'.threads = s.threads) (h : Owns s.own s'.living s'.created) :
    Owns s'.own s'.living s'.created := by
  refine h.congr fun a => ?_
  rcases a with key | thread
  · simp only [own, publication, hpublications]
  · simp only [own, hthreads]

theorem own_of_publication (h : s.publication key = some publication) :
    s.own (.inl key) = publication.playout := by
  rw [own, h]
  rfl

theorem own_inl_eq_some {id : ℕ} (h : s.own (.inl key) = some id) :
    ∃ publication, s.publication key = some publication ∧ publication.playout = some id :=
  Option.bind_eq_some_iff.1 h

theorem any_playout_iff {publications : Std.ExtTreeMap Bytes Publication} {id : ℕ} :
    (publications.toList.any fun entry => entry.2.playout = some id) = true
      ↔ ∃ participantId : Bytes,
        publications[participantId]?.bind Publication.playout = some id := by
  rw [List.any_eq_true]
  constructor
  · rintro ⟨⟨participantId, publication⟩, hmem, hplayout⟩
    refine ⟨participantId, ?_⟩
    rw [Std.ExtTreeMap.mem_toList_iff_getElem?_eq_some.1 hmem]
    exact of_decide_eq_true hplayout
  · rintro ⟨participantId, hplayout⟩
    obtain ⟨publication, hfound, hplayout⟩ := Option.bind_eq_some_iff.1 hplayout
    exact ⟨(participantId, publication),
      Std.ExtTreeMap.mem_toList_iff_getElem?_eq_some.2 hfound, decide_eq_true hplayout⟩

theorem keeps_iff {id : ℕ} : s.keeps id = true ↔ ∃ key, s.own (.inl key) = some id := by
  unfold keeps
  rw [List.any_eq_true]
  constructor
  · rintro ⟨scope, -, hscope⟩
    obtain ⟨participantId, hplayout⟩ := any_playout_iff.1 hscope
    exact ⟨⟨scope, participantId⟩, hplayout⟩
  · rintro ⟨⟨scope, participantId⟩, hplayout⟩
    exact ⟨scope, by cases scope <;> simp, any_playout_iff.2 ⟨participantId, hplayout⟩⟩

theorem own_setGain {playout : Option ℕ} {gain : ℚ} : (s.setGain playout gain).own = s.own := by
  rcases playout with _ | id <;> rfl

theorem publication_setGain {playout : Option ℕ} {gain : ℚ} (k : RemoteStreamKey) :
    (s.setGain playout gain).publication k = s.publication k := by
  rcases playout with _ | id <;> rfl

theorem threads_setGain {playout : Option ℕ} {gain : ℚ} :
    (s.setGain playout gain).threads = s.threads := by
  rcases playout with _ | id <;> rfl

theorem created_setGain {playout : Option ℕ} {gain : ℚ} :
    (s.setGain playout gain).created = s.created := by
  rcases playout with _ | id <;> rfl

theorem living_setGain_of_ne {playout : Option ℕ} {gain : ℚ} {id : ℕ} (h : playout ≠ some id) :
    (s.setGain playout gain).living id = s.living id := by
  rcases playout with _ | other
  · rfl
  · exact Function.update_of_ne (fun heq => h (congrArg some heq.symm)) _ _

theorem living_setGain_self {playout : Option ℕ} {gain old : ℚ} {id : ℕ} (h : playout = some id)
    (hid : s.living id = some old) : (s.setGain playout gain).living id = some gain := by
  subst h
  simp [setGain, hid]

theorem isSome_setGain {playout : Option ℕ} {gain : ℚ} (id : ℕ) :
    ((s.setGain playout gain).living id).isSome = (s.living id).isSome := by
  rcases playout with _ | other
  · rfl
  · by_cases h : id = other
    · simp [setGain, h]
    · simp [setGain, Function.update_of_ne h]

end State

/-! ## What a step keeps -/

structure Inv (s : State) : Prop where
  owns : Owns s.own s.living s.created
  gain : ∀ key publication id, s.publication key = some publication →
    publication.playout = some id → s.living id = some publication.gain
  muted : ∀ key publication, s.publication key = some publication →
    publication.admitted = false → publication.gain = 0

theorem inv_initial : Inv {} where
  owns := Owns.initial.congr fun a => by
    rcases a with key | thread <;> simp [State.own, State.publication, Phase.hand]
  gain := by simp [State.publication]
  muted := by simp [State.publication]

namespace Inv

/-- Two owners do not have the same playout. -/
theorem ne_of_ne (h : Inv s) {k : RemoteStreamKey} {other : Publication} {id : ℕ}
    {a : RemoteStreamKey ⊕ ℕ} (hk : s.publication k = some other)
    (hid : other.playout = some id) (ha : a ≠ .inl k) : s.own a ≠ some id := fun hown =>
  ha (h.owns.unique _ _ id hown ((State.own_of_publication hk).trans hid))

/-- Publications stay as they are, or go. -/
theorem keep (h : Inv s) (howns : Owns s'.own s'.living s'.created)
    (hpublication : ∀ k p, s'.publication k = some p → s.publication k = some p)
    (hliving : ∀ k p id, s'.publication k = some p → p.playout = some id →
      s'.living id = s.living id) : Inv s' where
  owns := howns
  gain k p id hk hid := (hliving k p id hk hid).trans (h.gain k p id (hpublication k p hk) hid)
  muted k p hk := h.muted k p (hpublication k p hk)

/-- One publication is set, the others stay as they are. -/
theorem put (h : Inv s) (howns : Owns s'.own s'.living s'.created)
    (hpublication : ∀ k, s'.publication k = if k = key then some publication else s.publication k)
    (hliving : ∀ k p id, k ≠ key → s.publication k = some p → p.playout = some id →
      s'.living id = s.living id)
    (hgain : ∀ id, publication.playout = some id → s'.living id = some publication.gain)
    (hmuted : publication.admitted = false → publication.gain = 0) : Inv s' := by
  have hcases : ∀ k p, s'.publication k = some p →
      (k = key ∧ p = publication) ∨ (k ≠ key ∧ s.publication k = some p) := by
    intro k p hk
    rw [hpublication] at hk
    split_ifs at hk with hkey
    · exact .inl ⟨hkey, (Option.some.inj hk).symm⟩
    · exact .inr ⟨hkey, hk⟩
  refine ⟨howns, fun k p id hk hid => ?_, fun k p hk hadmitted => ?_⟩
  · rcases hcases k p hk with ⟨-, rfl⟩ | ⟨hkey, hk⟩
    · exact hgain id hid
    · exact (hliving k p id hkey hk hid).trans (h.gain k p id hk hid)
  · rcases hcases k p hk with ⟨-, rfl⟩ | ⟨-, hk⟩
    · exact hmuted hadmitted
    · exact h.muted k p hk hadmitted

theorem enter (h : Inv s) {thread : ℕ} {phase : Phase} (hthread : (s.threads thread).hand = none)
    (hphase : phase.hand = none) : Inv (s.enter thread phase) := by
  refine h.keep ?_ (fun _ _ hk => hk) fun _ _ _ _ _ => rfl
  rw [State.own_enter_of_hand hthread hphase]
  exact h.owns

theorem setTracks (h : Inv s) (audioTracks : VoiceScope → Std.ExtTreeMap Bytes Bytes) :
    Inv { s with audioTracks := audioTracks } :=
  ⟨h.owns, h.gain, h.muted⟩

theorem configureRemoteAudio (h : Inv s) (hkey : s.publication key = some publication)
    (admitted : Bool) {gain : ℚ} (hgain : admitted = false → gain = 0) :
    Inv ((s.setPublication key { publication with admitted := admitted, gain := gain }).setGain
      publication.playout gain) := by
  have hown := State.own_of_publication hkey
  refine h.put ?_
    (fun k => by rw [State.publication_setGain, State.publication_setPublication]) ?_ ?_ hgain
  · rw [State.own_setGain, State.own_setPublication, State.created_setGain, ← hown,
      Function.update_eq_self]
    exact h.owns.write State.isSome_setGain
  · intro k p id hk hp hid
    refine State.living_setGain_of_ne fun heq => ?_
    exact h.ne_of_ne hp hid (fun heq => hk (Sum.inl.inj heq).symm) (hown.trans heq)
  · intro id hid
    exact State.living_setGain_self hid (h.gain key publication id hkey hid)

theorem remoteAudioAvailable (h : Inv s) (key : RemoteStreamKey) (publicationId : Bytes) :
    Inv { s.setPublication key { publicationId } with
      living := destroy (s.own (.inl key)) s.living } := by
  refine h.put (State.owns_of_eq (s := s.setPublication key { publicationId }) rfl rfl ?_)
    State.publication_setPublication (fun k p id hk hp hid => ?_) (by simp) fun _ => rfl
  · rw [State.own_setPublication]
    exact h.owns.drop (.inl key)
  · exact destroy_of_ne (h.ne_of_ne hp hid fun heq => hk (Sum.inl.inj heq).symm)

/-- The new playout has the gain of its publication, and the one before it ends. -/
theorem remoteAudioStarted (h : Inv s) (hkey : s.publication key = some publication) {thread : ℕ}
    {phase : Phase} (hthread : (s.threads thread).hand = none) (hphase : phase.hand = none) :
    Inv { (s.setPublication key { publication with playout := some s.created }).enter thread
        phase with
      living := Function.update (destroy publication.playout s.living) s.created
        (some publication.gain)
      created := s.created + 1 } := by
  have hown := State.own_of_publication hkey
  have howns := (h.owns.drop (.inl key)).create (Function.update_self ..) publication.gain
  rw [Function.update_idem, hown] at howns
  refine h.put (State.owns_of_eq (s := (s.setPublication key _).enter thread phase) rfl rfl ?_)
    State.publication_setPublication ?_ ?_ (h.muted key publication hkey)
  · rw [State.own_enter_of_hand (s := s.setPublication key _) hthread hphase,
      State.own_setPublication]
    exact howns
  · intro k p id hk hp hid
    have hid' : id ≠ s.created := by
      rintro rfl
      exact Nat.lt_irrefl _ (h.owns.fresh s.created (by simp [h.gain k p s.created hp hid]))
    dsimp only
    rw [Function.update_of_ne hid', destroy_of_ne]
    rw [← hown]
    exact h.ne_of_ne hp hid fun heq => hk (Sum.inl.inj heq).symm
  · intro id hid
    obtain rfl := Option.some.inj hid
    exact Function.update_self ..

theorem take (h : Inv s) {thread : ℕ} (hthread : (s.threads thread).hand = none)
    (key : RemoteStreamKey) : Inv (take s thread key) := by
  unfold RemotePlayouts.take
  cases hkey : s.publication key with
  | none => exact h.enter hthread rfl
  | some publication =>
    have howns := h.owns.move (.inl key) (.inr thread) hthread
    refine h.keep ?_ (fun k p hk => ?_) fun _ _ _ _ _ => rfl
    · rw [State.own_enter, State.own_erasePublication]
      rwa [State.own_of_publication hkey] at howns
    · have hk' := (State.publication_erasePublication k).symm.trans hk
      split_ifs at hk'
      exact hk'

theorem takeStopped (h : Inv s) (hkey : s.publication key = some publication) {thread : ℕ}
    (hthread : (s.threads thread).hand = none) :
    Inv ((s.setPublication key { publication with playout := none }).enter thread
      (.disposing publication.playout)) := by
  have howns := h.owns.move (.inl key) (.inr thread) hthread
  refine h.put ?_ State.publication_setPublication (fun _ _ _ _ _ _ => rfl) (by simp)
    (h.muted key publication hkey)
  rw [State.own_enter, State.own_setPublication]
  rwa [State.own_of_publication hkey] at howns

theorem dispose (h : Inv s) {thread : ℕ} {playout : Option ℕ}
    (hthread : s.threads thread = .disposing playout) :
    Inv { s.enter thread .idle with living := destroy playout s.living } := by
  have hown : s.own (.inr thread) = playout := by
    rw [State.own, hthread]
    rfl
  have howns := h.owns.drop (.inr thread)
  rw [hown] at howns
  refine h.keep (State.owns_of_eq (s := s.enter thread .idle) rfl rfl ?_) (fun _ _ hk => hk)
    fun k p id hk hid => ?_
  · rw [State.own_enter]
    exact howns
  · refine destroy_of_ne ?_
    rw [← hown]
    exact h.ne_of_ne hk hid Sum.inr_ne_inl

theorem resetRemotePublications (h : Inv s) :
    Inv { s with
      publications := fun _ => ∅
      living := fun id => if s.keeps id then none else s.living id } := by
  refine h.keep (h.owns.dropAll (fun a => ∃ key, a = .inl key) ?_ ?_ fun id => ?_) ?_ ?_
  · rintro _ ⟨key, rfl⟩
    simp [State.own, State.publication]
  · rintro (key | thread) hdrop
    · exact absurd ⟨key, rfl⟩ hdrop
    · rfl
  · have hkeeps : s.keeps id = true ↔ _ := State.keeps_iff
    by_cases hid : s.keeps id = true
    · obtain ⟨key, hkey⟩ := hkeeps.1 hid
      simpa [hid] using fun _ => ⟨key, hkey⟩
    · simpa [hid] using fun _ key hkey => hid (hkeeps.2 ⟨key, hkey⟩)
  · intro k p hk
    simp [State.publication] at hk
  · intro k p id hk
    simp [State.publication] at hk

/-- Each action leads from its state to one with the invariant. -/
theorem step (h : Inv s) {action : Action} (hstep : RemotePlayouts.step s action = some s') :
    Inv s' := by
  cases action with
  | configureRemoteAudio key admitted gain =>
    simp only [RemotePlayouts.step] at hstep
    split at hstep <;> obtain rfl := Option.some.inj hstep
    · exact h
    · rename_i publication hkey
      exact h.configureRemoteAudio hkey admitted fun hadmitted => by simp [hadmitted]
  | remoteAudioAvailable key publicationId =>
    simp only [RemotePlayouts.step] at hstep
    split at hstep
    · rename_i hkey
      obtain rfl := Option.some.inj hstep
      have hnone : s.own (.inl key) = none := by simp [State.own, hkey]
      have hinv := h.remoteAudioAvailable key publicationId
      rwa [hnone] at hinv
    · rename_i existing hkey
      split_ifs at hstep <;> obtain rfl := Option.some.inj hstep
      · exact h
      · have hinv := h.remoteAudioAvailable key publicationId
        rwa [State.own_of_publication hkey] at hinv
  | remoteAudioUnavailable thread key publicationId =>
    simp only [RemotePlayouts.step] at hstep
    split_ifs at hstep with hthread hmatch <;> obtain rfl := Option.some.inj hstep
    · exact h.take (by rw [hthread]; rfl) key
    · exact h
  | remoteAudioStarted thread key publicationId playable =>
    simp only [RemotePlayouts.step] at hstep
    split_ifs at hstep with hthread
    split at hstep
    · obtain rfl := Option.some.inj hstep
      exact h
    · rename_i publication hkey
      split_ifs at hstep <;> obtain rfl := Option.some.inj hstep
      · exact h.remoteAudioStarted hkey (by rw [hthread]; rfl) rfl
      · exact h
  | insertTrack thread =>
    simp only [RemotePlayouts.step] at hstep
    split at hstep <;> simp only [Option.some.injEq, reduceCtorEq] at hstep
    rename_i key publicationId hthread
    subst hstep
    exact (h.enter (by rw [hthread]; rfl) rfl).setTracks _
  | remoteAudioStopped thread key publicationId =>
    simp only [RemotePlayouts.step] at hstep
    split_ifs at hstep with hthread htrack <;> obtain rfl := Option.some.inj hstep
    · exact (h.enter (by rw [hthread]; rfl) rfl).setTracks _
    · exact h
  | takeStopped thread =>
    simp only [RemotePlayouts.step] at hstep
    split at hstep
    · rename_i key publicationId hthread
      have hhand : (s.threads thread).hand = none := by rw [hthread]; rfl
      split at hstep
      · obtain rfl := Option.some.inj hstep
        exact h.enter hhand rfl
      · rename_i publication hkey
        split_ifs at hstep <;> obtain rfl := Option.some.inj hstep
        · exact h.takeStopped hkey hhand
        · exact h.enter hhand rfl
    · cases hstep
  | participantDisconnected thread key =>
    simp only [RemotePlayouts.step] at hstep
    split_ifs at hstep with hthread
    obtain rfl := Option.some.inj hstep
    exact (h.enter (by rw [hthread]; rfl) rfl).setTracks _
  | takeLeft thread =>
    simp only [RemotePlayouts.step] at hstep
    split at hstep <;> simp only [Option.some.injEq, reduceCtorEq] at hstep
    rename_i key hthread
    subst hstep
    exact h.take (by rw [hthread]; rfl) key
  | dispose thread =>
    simp only [RemotePlayouts.step] at hstep
    split at hstep <;> simp only [Option.some.injEq, reduceCtorEq] at hstep
    rename_i playout hthread
    subst hstep
    exact h.dispose hthread
  | resetRemoteAudio =>
    obtain rfl := Option.some.inj hstep
    exact h.setTracks _
  | resetRemotePublications =>
    obtain rfl := Option.some.inj hstep
    exact h.resetRemotePublications

end Inv

/-! ## Runs -/

theorem inv_run {actions : List Action} (hrun : Runs step Free {} actions s) : Inv s :=
  hrun.invariant (fun _ _ _ hs _ hstep => hs.step hstep) inv_initial

/-- The publication has the playout, with this gain. -/
def Heard (s : State) (id : ℕ) (gain : ℚ) (key : RemoteStreamKey) : Prop :=
  ∃ publication, s.publication key = some publication ∧ publication.playout = some id
    ∧ publication.gain = gain ∧ (publication.admitted = false → gain = 0)

theorem own_inr_eq_some {thread id : ℕ} :
    s.own (.inr thread) = some id ↔ s.threads thread = .disposing (some id) := by
  rw [State.own]
  cases s.threads thread <;> simp [Phase.hand]

namespace Inv

/-- A living playout is heard through one publication, or one thread ends it next. -/
theorem governed (h : Inv s) {id : ℕ} {gain : ℚ} (hid : s.living id = some gain) :
    ((∃! key, Heard s id gain key) ∧ ∀ thread, s.threads thread ≠ .disposing (some id))
      ∨ ((∃! thread, s.threads thread = .disposing (some id)) ∧ ∀ key, ¬Heard s id gain key) := by
  have hheard : ∀ key, Heard s id gain key → s.own (.inl key) = some id := by
    rintro key ⟨publication, hkey, hplayout, -⟩
    exact (State.own_of_publication hkey).trans hplayout
  obtain ⟨a, ha⟩ := (h.owns.owned id).1 (by rw [hid]; rfl)
  rcases a with key | thread
  · obtain ⟨publication, hkey, hplayout⟩ := State.own_inl_eq_some ha
    have hgain : publication.gain = gain :=
      Option.some.inj ((h.gain key publication id hkey hplayout).symm.trans hid)
    refine .inl ⟨⟨key, ⟨publication, hkey, hplayout, hgain, fun hadmitted => ?_⟩,
      fun k hk => ?_⟩, fun thread hthread => ?_⟩
    · exact hgain.symm.trans (h.muted key publication hkey hadmitted)
    · exact Sum.inl.inj (h.owns.unique _ _ id (hheard k hk) ha)
    · exact Sum.inl_ne_inr (h.owns.unique _ _ id ha (own_inr_eq_some.2 hthread))
  · refine .inr ⟨⟨thread, own_inr_eq_some.1 ha, fun other hother => ?_⟩, fun key hkey => ?_⟩
    · exact Sum.inr.inj (h.owns.unique _ _ id (own_inr_eq_some.2 hother) ha)
    · exact Sum.inl_ne_inr (h.owns.unique _ _ id (hheard key hkey) ha)

/-- The thread ends its playout, which is one of the living, and no other. -/
theorem ends (h : Inv s) {thread id : ℕ} (hthread : s.threads thread = .disposing (some id)) :
    (s.living id).isSome = true ∧ ∃ s', RemotePlayouts.step s (.dispose thread) = some s'
      ∧ s'.threads thread = .idle ∧ s'.living id = none
      ∧ ∀ other, other ≠ id → s'.living other = s.living other := by
  refine ⟨(h.owns.owned id).2 ⟨.inr thread, own_inr_eq_some.2 hthread⟩,
    { s.enter thread .idle with living := destroy (some id) s.living }, ?_, ?_, ?_, ?_⟩
  · simp only [RemotePlayouts.step, hthread]
  · exact Function.update_self ..
  · exact Function.update_self ..
  · exact fun other hother => destroy_of_ne fun heq => hother (Option.some.inj heq).symm

/-- With no thread in a callback, nothing lives without a publication. -/
theorem resetRemotePublications_silent (h : Inv s) (hidle : ∀ thread, s.threads thread = .idle)
    (hstep : RemotePlayouts.step s .resetRemotePublications = some s') (id : ℕ) :
    s'.living id = none := by
  have hinv := h.step hstep
  obtain rfl := Option.some.inj hstep
  rw [← Option.not_isSome_iff_eq_none, hinv.owns.owned]
  rintro ⟨key | thread, hown⟩
  · simp [State.own, State.publication] at hown
  · simp [State.own, hidle, Phase.hand] at hown

end Inv

/-- In every run of any number of threads, each living playout is heard through one publication,
with its gain and only while that admits it, or it is in the hand of one thread that ends it next;
what a publication has is alive, and without publications and callbacks nothing is heard. -/
theorem playouts_governed {actions : List Action} (hrun : Runs step Free {} actions s) :
    (∀ id gain, s.living id = some gain →
      ((∃! key, Heard s id gain key) ∧ ∀ thread, s.threads thread ≠ .disposing (some id))
        ∨ ((∃! thread, s.threads thread = .disposing (some id)) ∧ ∀ key, ¬Heard s id gain key))
      ∧ (∀ key publication id, s.publication key = some publication →
        publication.playout = some id → s.living id = some publication.gain)
      ∧ (∀ thread id, s.threads thread = .disposing (some id) →
        (s.living id).isSome = true ∧ ∃ s', step s (.dispose thread) = some s'
          ∧ s'.threads thread = .idle ∧ s'.living id = none
          ∧ ∀ other, other ≠ id → s'.living other = s.living other)
      ∧ ((∀ thread, s.threads thread = .idle) → ∀ s',
        step s .resetRemotePublications = some s' → ∀ id, s'.living id = none) := by
  have hinv := inv_run hrun
  refine ⟨fun id gain hid => hinv.governed hid, hinv.gain, fun thread id hthread => ?_,
    fun hidle s' hstep id => ?_⟩
  · exact hinv.ends hthread
  · exact hinv.resetRemotePublications_silent hidle hstep id

namespace Sample

def alice : RemoteStreamKey := ⟨.team, bytes "alice"⟩

/-- Alice is heard, publishes again, is heard again and leaves. -/
def leaving : List Action :=
  [.remoteAudioAvailable alice (bytes "TR_1"), .configureRemoteAudio alice true (1 / 2),
    .remoteAudioStarted 0 alice (bytes "TR_1") true, .insertTrack 0,
    .remoteAudioAvailable alice (bytes "TR_2"), .configureRemoteAudio alice true 1,
    .remoteAudioStarted 0 alice (bytes "TR_2") true, .insertTrack 0,
    .participantDisconnected 1 alice, .takeLeft 1]

end Sample

theorem playouts_governed_leaving : ∃ s, Runs step Free {} Sample.leaving s
    ∧ s.living 0 = none ∧ s.living 1 = some 1
    ∧ ∃! thread, s.threads thread = .disposing (some 1) := by
  have hexec : (exec step {} Sample.leaving).any (fun s =>
      s.living 0 == none && s.living 1 == some 1 && s.threads 1 == .disposing (some 1)) = true := by
    decide +kernel
  obtain ⟨s, hrun, hend⟩ := exists_run step Sample.leaving hexec
  simp only [Bool.and_eq_true, beq_iff_eq] at hend
  obtain ⟨⟨hfirst, hsecond⟩, hthread⟩ := hend
  rcases (playouts_governed hrun).1 1 1 hsecond with ⟨-, hnone⟩ | ⟨hunique, -⟩
  · exact absurd hthread (hnone 1)
  · exact ⟨s, hrun, hfirst, hsecond, hunique⟩

/-! ## The publications of the transport -/

/-- Without its playouts, each publication is the one of the transport, and a thread is free. -/
structure Matches (s : State) (t : LiveKitVoiceTransport) : Prop where
  publication : ∀ key,
    (s.publication key).map Publication.toRemoteAudioPublication = t.publication key
  idle : s.threads 0 = .idle

/-- A run of callbacks and commands leads to the publications of the transport. -/
def Reaches (s : State) (t : LiveKitVoiceTransport) : Prop :=
  ∃ actions s', Runs step Free s actions s' ∧ Matches s' t

variable {t t' : LiveKitVoiceTransport}

theorem publication_take (thread : ℕ) (k : RemoteStreamKey) :
    (take s thread key).publication k = if k = key then none else s.publication k := by
  unfold take
  split
  · rename_i hkey
    split_ifs with hk
    · exact hk ▸ hkey
    · rfl
  · exact State.publication_erasePublication k

theorem threads_take (s : State) (key : RemoteStreamKey) (thread : ℕ) :
    ∃ playout, (take s thread key).threads thread = .disposing playout := by
  unfold take
  split <;> exact ⟨_, Function.update_self ..⟩

theorem any_publicationId (h : Matches s t) (publicationId : Bytes) :
    ((s.publication key).any fun publication => publication.publicationId = publicationId)
      = (t.publication key).any fun existing => existing.publicationId = publicationId := by
  rw [← h.publication, Option.any_map]

namespace Reaches

theorem step (action : Action) (hstep : RemotePlayouts.step s action = some s') (h : Reaches s' t) :
    Reaches s t := by
  obtain ⟨actions, s'', hrun, hmatches⟩ := h
  exact ⟨action :: actions, s'', .cons trivial hstep hrun, hmatches⟩

theorem trans (h : Reaches s t) (hnext : ∀ s', Matches s' t → Reaches s' t') : Reaches s t' := by
  obtain ⟨actions, s', hrun, hmatches⟩ := h
  induction hrun with
  | nil => exact hnext _ hmatches
  | cons _ hstep _ ih => exact .step _ hstep (ih hmatches)

theorem of_matches (h : Matches s t) (heq : t'.remotePublications = t.remotePublications) :
    Reaches s t' := by
  refine ⟨[], s, .nil s, fun key => ?_, h.idle⟩
  rw [h.publication, LiveKitVoiceTransport.publication, LiveKitVoiceTransport.publication, heq]

/-- A thread takes a publication out and ends its playout. -/
theorem take (h : ∀ k, (s.publication k).map Publication.toRemoteAudioPublication
    = t.publication k) (key : RemoteStreamKey) :
    Reaches (RemotePlayouts.take s 0 key) (t.erasePublication key) := by
  obtain ⟨playout, hthread⟩ := threads_take s key 0
  obtain ⟨s', hstep, hpublication, hidle⟩ : ∃ s',
      RemotePlayouts.step (RemotePlayouts.take s 0 key) (.dispose 0) = some s'
        ∧ (∀ k, s'.publication k = (RemotePlayouts.take s 0 key).publication k)
        ∧ s'.threads 0 = .idle := by
    refine ⟨_, by simp only [RemotePlayouts.step, hthread]; rfl, ?_, ?_⟩
    · exact fun _ => rfl
    · simp [State.enter]
  refine .step _ hstep ⟨[], s', .nil s', fun k => ?_, hidle⟩
  rw [LiveKitVoiceTransport.publication_erasePublication, hpublication, publication_take]
  split_ifs
  · rfl
  · exact h k

theorem configureRemoteAudio (h : Matches s t) (change : PlaybackChange)
    (sdkError : Option Bytes) : Reaches s (t.configureRemoteAudio change sdkError).1 := by
  unfold LiveKitVoiceTransport.configureRemoteAudio
  split
  · exact .of_matches h rfl
  split
  · exact .of_matches h rfl
  split
  · exact .of_matches h rfl
  · rename_i existing hexisting
    obtain ⟨publication, hkey, rfl⟩ := Option.map_eq_some_iff.1
      ((h.publication change.key).trans hexisting)
    refine .step (.configureRemoteAudio change.key change.admitted change.gain)
      (by simp only [RemotePlayouts.step, hkey]; rfl) ⟨[], _, .nil _, fun k => ?_, ?_⟩
    · rw [State.publication_setGain, State.publication_setPublication,
        LiveKitVoiceTransport.publication_setPublication]
      by_cases hk : k = change.key
      · rw [if_pos hk, if_pos hk]
        rfl
      · rw [if_neg hk, if_neg hk]
        exact h.publication k
    · rw [State.threads_setGain]
      exact h.idle

theorem applyPlaybackChanges (h : Matches s t) (sdk : PlaybackChange → Option Bytes)
    (changes : List PlaybackChange) : Reaches s (t.applyPlaybackChanges sdk changes).1 := by
  have hfold : ∀ (changes : List PlaybackChange) (r : LiveKitVoiceTransport × VoiceTransportResult)
      (s : State), Matches s r.1 → Reaches s (changes.foldl (fun r change =>
        let current := r.1.configureRemoteAudio change (sdk change)
        (current.1, if !current.2.ok && r.2.ok then current.2 else r.2)) r).1 := by
    intro changes
    induction changes with
    | nil => exact fun r s h => .of_matches h rfl
    | cons change changes ih =>
      exact fun r s h => (configureRemoteAudio h change (sdk change)).trans fun s' h' => ih _ s' h'
  exact hfold changes (t, .success) s h

theorem remoteAudioAvailable (h : Matches s t) {publicationId : Bytes}
    (hnew : ¬((t.publication key).any fun existing => existing.publicationId = publicationId)
      = true) : Reaches s (t.setPublication key { publicationId }) := by
  rw [← any_publicationId h] at hnew
  have hset : ∀ living, Matches { s.setPublication key { publicationId } with living := living }
      (t.setPublication key { publicationId }) := by
    refine fun living => ⟨fun k => ?_, h.idle⟩
    rw [LiveKitVoiceTransport.publication_setPublication]
    refine (congrArg (Option.map _) (State.publication_setPublication k)).trans ?_
    split_ifs
    · rfl
    · exact h.publication k
  rcases hkey : s.publication key with _ | existing
  · exact .step (.remoteAudioAvailable key publicationId)
      (by simp only [RemotePlayouts.step, hkey]; rfl) ⟨[], _, .nil _, hset s.living⟩
  · rw [hkey, Option.any_some, decide_eq_true_iff] at hnew
    exact .step (.remoteAudioAvailable key publicationId)
      (by simp only [RemotePlayouts.step, hkey, if_neg hnew]; rfl) ⟨[], _, .nil _, hset _⟩

theorem remoteAudioUnavailable (h : Matches s t) {publicationId : Bytes}
    (hsame : ((t.publication key).any fun existing => existing.publicationId = publicationId)
      = true) : Reaches s (t.erasePublication key) := by
  rw [← any_publicationId h] at hsame
  exact .step (.remoteAudioUnavailable 0 key publicationId)
    (by simp only [RemotePlayouts.step, if_pos h.idle, if_pos hsame]) (.take h.publication key)

theorem participantDisconnected (h : Matches s t) (key : RemoteStreamKey) :
    Reaches s (t.erasePublication key) := by
  obtain ⟨s', hstep, hpublication, hleft⟩ : ∃ s',
      RemotePlayouts.step s (.participantDisconnected 0 key) = some s'
        ∧ (∀ k, s'.publication k = s.publication k) ∧ s'.threads 0 = .left key := by
    refine ⟨_, by simp only [RemotePlayouts.step, if_pos h.idle]; rfl, ?_, ?_⟩
    · exact fun _ => rfl
    · simp [State.enter]
  have hmatches : ∀ k,
      (s'.publication k).map Publication.toRemoteAudioPublication = t.publication k :=
    fun k => (congrArg _ (hpublication k)).trans (h.publication k)
  refine .step _ hstep (.step (.takeLeft 0) ?_ (.take hmatches key))
  simp only [RemotePlayouts.step, hleft]

theorem resetRemotePublications (h : Matches s t) : Reaches s t.resetRemotePublications := by
  refine .step .resetRemotePublications rfl ⟨[], _, .nil _, fun k => ?_, h.idle⟩
  rw [LiveKitVoiceTransport.publication_resetRemotePublications]
  simp [State.publication]

theorem playbackOp {r : RemoteAudio.State} (h : Matches s r.transport)
    (sdk : PlaybackChange → Option Bytes) (op : PlaybackOp) :
    Reaches s (r.playbackOp sdk op).transport :=
  .applyPlaybackChanges h sdk _

theorem roomState {r : RemoteAudio.State} (h : Matches s r.transport)
    (state : VoiceTransportState) (generation : ℕ) :
    Reaches s (r.roomState state generation).transport := by
  unfold RemoteAudio.State.roomState
  split_ifs <;> exact .of_matches h rfl

end Reaches

/-- What the client and the transport do to the publications in a step, callbacks and commands do
to the publications with their playouts. -/
theorem reaches_step {r r' : RemoteAudio.State} {action : RemoteAudio.Action}
    (hstep : RemoteAudio.step r action = some r') (h : Matches s r.transport) :
    Reaches s r'.transport := by
  unfold RemoteAudio.step at hstep
  split at hstep
  · cases hstep
  obtain ⟨event, sdk⟩ := action
  cases event with
  | connectBegin grants =>
    cases hstep
    unfold RemoteAudio.State.connectBegin
    split_ifs <;> exact .of_matches h rfl
  | connectEnd connected =>
    simp only at hstep
    split at hstep
    · cases hstep
      unfold RemoteAudio.State.connectEnd
      split_ifs <;> exact .of_matches h rfl
    · cases hstep
  | disconnect stopped =>
    cases hstep
    unfold RemoteAudio.State.disconnect
    split_ifs
    · exact .of_matches h rfl
    · exact .of_matches h rfl
    · exact .of_matches h rfl
    · exact (Reaches.resetRemotePublications h).trans fun s' h' => .of_matches h' rfl
  | setAudioEngineConfig config =>
    cases hstep
    exact .playbackOp h ..
  | setParticipantMuted participantId muted =>
    cases hstep
    exact .playbackOp h ..
  | setParticipantBlocked participantId blocked =>
    cases hstep
    exact .playbackOp h ..
  | setParticipantVolume participantId volume =>
    cases hstep
    exact .playbackOp h ..
  | trackPublished key publicationId generation =>
    cases hstep
    unfold RemoteAudio.State.remoteAudioAvailable
    split_ifs with _ hsame
    · exact .of_matches h rfl
    · exact .of_matches h rfl
    · exact (Reaches.remoteAudioAvailable h hsame).trans fun s' h' => .playbackOp h' ..
  | trackUnpublished key publicationId generation =>
    cases hstep
    unfold RemoteAudio.State.remoteAudioUnavailable
    split_ifs with _ hsame
    · exact .of_matches h rfl
    · exact (Reaches.remoteAudioUnavailable h hsame).trans fun s' h' => .playbackOp h' ..
    · exact .of_matches h rfl
  | participantDisconnected key generation =>
    cases hstep
    unfold RemoteAudio.State.participantDisconnected
    split_ifs
    · exact .of_matches h rfl
    · exact (Reaches.participantDisconnected h key).trans fun s' h' => .playbackOp h' ..
    · exact .of_matches h rfl
  | reconnecting generation =>
    cases hstep
    exact .roomState h ..
  | reconnected generation allRoomsConnected =>
    cases hstep
    split_ifs
    · exact .roomState h ..
    · exact .of_matches h rfl
  | roomDisconnected generation =>
    cases hstep
    exact .roomState h ..

/-- The publications that the client and the transport have after a run are those of a run with
playouts, in which `playouts_governed` holds. -/
theorem reaches_run {playoutInitializationError : Option Bytes} {r : RemoteAudio.State}
    {actions : List RemoteAudio.Action}
    (hrun : Runs RemoteAudio.step Free (RemoteAudio.initial playoutInitializationError) actions r) :
    Reaches {} r.transport := by
  refine hrun.invariant (I := fun r => Reaches {} r.transport)
    (fun _ _ _ hr _ hstep => hr.trans fun s' h' => reaches_step hstep h') ?_
  refine ⟨[], _, .nil _, fun key => ?_, rfl⟩
  simp [State.publication, RemoteAudio.initial, LiveKitVoiceTransport.publication]

end VoxTree.RemotePlayouts

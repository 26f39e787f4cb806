import VoxTree.Proofs.Playback

/-!
# Which streams are admitted

A recomputation goes through the streams by priority and admits each that is not suppressed while
there is room in its scope and in total. So a stream is refused for suppression or because admitted
streams before it fill a limit, and the gains follow from which scopes have admitted streams. The
decisions read nothing of the earlier ones.
-/

namespace VoxTree

namespace PlaybackState

/-- The admitted streams of a scope. -/
def admittedIn (scope : VoiceScope) (l : List AvailableRemoteAudio) : ℕ :=
  l.countP fun stream => stream.admitted && stream.key.scope = scope

def admittedCount (l : List AvailableRemoteAudio) : ℕ := l.countP AvailableRemoteAudio.admitted

section Counts

variable {scope : VoiceScope} {stream : AvailableRemoteAudio} {l : List AvailableRemoteAudio}

@[simp] theorem admittedIn_nil : admittedIn scope [] = 0 := rfl

@[simp] theorem admittedCount_nil : admittedCount [] = 0 := rfl

theorem admittedIn_cons_admitted :
    admittedIn scope ({ stream with admitted := true } :: l)
      = admittedIn scope l + if stream.key.scope = scope then 1 else 0 := by
  simp [admittedIn, List.countP_cons]

@[simp] theorem admittedIn_cons_refused :
    admittedIn scope ({ stream with admitted := false } :: l) = admittedIn scope l := by
  simp [admittedIn]

@[simp] theorem admittedCount_cons_admitted :
    admittedCount ({ stream with admitted := true } :: l) = admittedCount l + 1 := by
  simp [admittedCount]

@[simp] theorem admittedCount_cons_refused :
    admittedCount ({ stream with admitted := false } :: l) = admittedCount l := by
  simp [admittedCount]

end Counts

variable {p : PlaybackState}

/-- There is room for a stream behind `before`. -/
def HasRoom (p : PlaybackState) (perScope : VoiceScope → ℕ) (total : ℕ)
    (before : List AvailableRemoteAudio) (scope : VoiceScope) : Prop :=
  perScope scope + admittedIn scope before < p.audioConfig.maximumStreamsPerScope scope
    ∧ total + admittedCount before < p.audioConfig.maximumStreams

/-! ## The loop -/

/-- The counters the loop ends with count the admitted streams. -/
theorem admitStreams_snd (l : List AvailableRemoteAudio) : ∀ (perScope : VoiceScope → ℕ)
    (total : ℕ) (scope : VoiceScope), (p.admitStreams perScope total l).2 scope
      = perScope scope + admittedIn scope (p.admitStreams perScope total l).1 := by
  induction l with
  | nil => exact fun _ _ _ => rfl
  | cons stream rest ih =>
    intro perScope total scope
    simp only [admitStreams]
    split
    · simp only [ih, admittedIn_cons_admitted]
      by_cases hs : stream.key.scope = scope
      · subst hs
        simp
        omega
      · rw [Function.update_of_ne (Ne.symm hs), if_neg hs]
        omega
    · simp only [ih, admittedIn_cons_refused]

/-- The loop keeps within the limits. -/
theorem admitStreams_le (l : List AvailableRemoteAudio) : ∀ (perScope : VoiceScope → ℕ)
    (total : ℕ), (∀ scope, perScope scope ≤ p.audioConfig.maximumStreamsPerScope scope) →
      total ≤ p.audioConfig.maximumStreams →
      (∀ scope, perScope scope + admittedIn scope (p.admitStreams perScope total l).1
          ≤ p.audioConfig.maximumStreamsPerScope scope)
        ∧ total + admittedCount (p.admitStreams perScope total l).1
          ≤ p.audioConfig.maximumStreams := by
  induction l with
  | nil => exact fun _ _ hscope htotal => ⟨hscope, htotal⟩
  | cons stream rest ih =>
    intro perScope total hscope htotal
    simp only [admitStreams]
    split
    · rename_i hadmitted
      simp only [Bool.and_eq_true, decide_eq_true_eq] at hadmitted
      have hnext : ∀ scope, Function.update perScope stream.key.scope
          (perScope stream.key.scope + 1) scope
            ≤ p.audioConfig.maximumStreamsPerScope scope := by
        intro scope
        by_cases hs : scope = stream.key.scope
        · subst hs
          simp only [Function.update_self]
          omega
        · rw [Function.update_of_ne hs]
          exact hscope scope
      obtain ⟨hin, hall⟩ := ih _ (total + 1) hnext (by omega)
      refine ⟨fun scope => ?_, by rw [admittedCount_cons_admitted]; omega⟩
      have hin := hin scope
      rw [admittedIn_cons_admitted]
      by_cases hs : stream.key.scope = scope
      · subst hs
        simp only [Function.update_self, if_true] at hin ⊢
        omega
      · rw [Function.update_of_ne (Ne.symm hs)] at hin
        rwa [if_neg hs, Nat.add_zero]
    · simpa using ih perScope total hscope htotal

/-- A stream is admitted iff it is not suppressed and there is room for it behind those decided
before. -/
theorem admitStreams_split (l : List AvailableRemoteAudio) : ∀ (perScope : VoiceScope → ℕ)
    (total : ℕ) (before after : List AvailableRemoteAudio) (stream : AvailableRemoteAudio),
    (p.admitStreams perScope total l).1 = before ++ stream :: after →
      (stream.admitted = true ↔ p.suppressed stream.key.participantId = false
        ∧ p.HasRoom perScope total before stream.key.scope) := by
  induction l with
  | nil =>
    intro perScope total before after stream h
    simp [admitStreams] at h
  | cons first rest ih =>
    intro perScope total before after stream h
    simp only [admitStreams] at h
    rcases before with _ | ⟨head, before⟩
    · split at h
      · rename_i hadmitted
        obtain ⟨rfl, -⟩ := List.cons.inj h
        simpa [HasRoom] using hadmitted
      · rename_i hrefused
        obtain ⟨rfl, -⟩ := List.cons.inj h
        simpa [HasRoom] using hrefused
    · split at h
      · obtain ⟨rfl, hrest⟩ := List.cons.inj h
        rw [ih _ _ before after stream hrest]
        unfold HasRoom
        rw [admittedIn_cons_admitted, admittedCount_cons_admitted]
        by_cases hs : first.key.scope = stream.key.scope
        · rw [hs, Function.update_self, if_pos rfl]
          constructor <;> rintro ⟨hsup, hscope, htotal⟩ <;> exact ⟨hsup, by omega, by omega⟩
        · rw [Function.update_of_ne (Ne.symm hs), if_neg hs]
          constructor <;> rintro ⟨hsup, hscope, htotal⟩ <;> exact ⟨hsup, by omega, by omega⟩
      · obtain ⟨rfl, hrest⟩ := List.cons.inj h
        rw [ih _ _ before after stream hrest]
        simp [HasRoom]

/-! ## The decisions -/

theorem map_gain_admitted (gain : AvailableRemoteAudio → ℚ) (scope : VoiceScope)
    (l : List AvailableRemoteAudio) :
    admittedIn scope (l.map fun stream => { stream with gain := gain stream }) = admittedIn scope l
      ∧ admittedCount (l.map fun stream => { stream with gain := gain stream })
        = admittedCount l := by
  simp [admittedIn, admittedCount, List.countP_map, Function.comp_def]

/-- `a` comes before `b` or at the same place: its scope is higher, or it is the same and `a`
arrived earlier. -/
def priorTo (a b : AvailableRemoteAudio) : Prop :=
  b.key.scope.ctorIdx < a.key.scope.ctorIdx
    ∨ a.key.scope = b.key.scope ∧ a.admissionOrder ≤ b.admissionOrder

/-- The factor of a scope, from the scopes that have admitted streams. -/
def duckingFactor (config : AudioEngineConfig) (admitted : VoiceScope → Prop)
    [DecidablePred admitted] : VoiceScope → ℚ
  | .team =>
    if admitted .group then config.teamGainUnderGroup
    else if admitted .specialization then config.teamGainUnderSpecialization
    else 1
  | .specialization => if admitted .group then config.specializationGainUnderGroup else 1
  | .group => 1

def volumeOf (p : PlaybackState) (participantId : Bytes) : ℚ :=
  (p.participantVolumes[participantId]?).getD 1

/-! ## The order of the decisions -/

/-- The comparison behind `streamBefore`, the higher scope first. -/
def compareStreams : AvailableRemoteAudio → AvailableRemoteAudio → Ordering :=
  compareLex (compareOn fun stream => 2 - stream.key.scope.ctorIdx)
    (compareLex (compareOn AvailableRemoteAudio.admissionOrder)
      (compareOn fun stream => stream.key.participantId))

instance : Std.TransCmp compareStreams := by
  unfold compareStreams
  infer_instance

theorem compareStreams_swap (a b : AvailableRemoteAudio) :
    compareStreams b a = (compareStreams a b).swap := Std.OrientedCmp.eq_swap

theorem streamBefore_eq (a b : AvailableRemoteAudio) :
    streamBefore a b = decide (compareStreams a b = .lt) := by
  have hscope : compare b.key.scope.ctorIdx a.key.scope.ctorIdx
      = compare (2 - a.key.scope.ctorIdx) (2 - b.key.scope.ctorIdx) := by
    rcases a.key.scope <;> rcases b.key.scope <;> rfl
  unfold streamBefore compareStreams
  rw [hscope]
  rfl

theorem not_streamBefore_iff (a b : AvailableRemoteAudio) :
    (!streamBefore b a) = (compareStreams a b).isLE := by
  rw [streamBefore_eq, compareStreams_swap]
  rcases compareStreams a b <;> rfl

theorem priorTo_of_not_streamBefore {a b : AvailableRemoteAudio}
    (h : (!streamBefore b a) = true) : priorTo a b := by
  unfold streamBefore at h
  unfold priorTo
  rcases hcmp : compare a.key.scope.ctorIdx b.key.scope.ctorIdx <;> rw [hcmp] at h
  · simp at h
  · refine .inr ⟨?_, Nat.le_of_not_lt fun hlt => ?_⟩
    · have heq := Nat.compare_eq_eq.1 hcmp
      rcases ha : a.key.scope <;> rcases hb : b.key.scope <;> rw [ha, hb] at heq <;>
        first | rfl | cases heq
    · rw [Nat.compare_eq_lt.2 hlt] at h
      simp at h
  · exact .inl (Nat.compare_eq_gt.1 hcmp)

/-- What a decision does not change. -/
def place (stream : AvailableRemoteAudio) : RemoteStreamKey × ℕ :=
  (stream.key, stream.admissionOrder)

theorem admitStreams_place (l : List AvailableRemoteAudio) : ∀ (perScope : VoiceScope → ℕ)
    (total : ℕ), (p.admitStreams perScope total l).1.map place = l.map place := by
  induction l with
  | nil => exact fun _ _ => rfl
  | cons stream rest ih =>
    intro perScope total
    simp only [admitStreams]
    split <;> simp only [List.map_cons, ih] <;> rfl

/-- A stream at a place, as yet undecided. -/
def ofPlace (at_ : RemoteStreamKey × ℕ) : AvailableRemoteAudio :=
  { key := at_.1, admissionOrder := at_.2 }

/-- The streams by priority. -/
def ordered (p : PlaybackState) : List AvailableRemoteAudio :=
  p.availableRemoteAudio.mergeSort fun left right => !streamBefore right left

theorem decided_place : p.decided.map place = p.ordered.map place := by
  unfold decided
  rw [List.map_map]
  exact admitStreams_place _ _ _

theorem ordered_pairwise : p.ordered.Pairwise fun a b => (!streamBefore b a) = true := by
  refine List.pairwise_mergeSort (fun a b c hab hbc => ?_) (fun a b => ?_) _
  · rw [not_streamBefore_iff] at *
    exact Std.TransCmp.isLE_trans hab hbc
  · rw [not_streamBefore_iff, not_streamBefore_iff, compareStreams_swap a b]
    rcases compareStreams a b <;> rfl

/-- The decisions come by priority. -/
theorem decided_pairwise : p.decided.Pairwise priorTo := by
  have hplace : p.decided.Pairwise fun a b => (!streamBefore b a) = true := by
    have hordered : (p.ordered.map place).Pairwise fun a b =>
        (!streamBefore (ofPlace b) (ofPlace a)) = true :=
      List.pairwise_map.2 ordered_pairwise
    rw [← decided_place] at hordered
    exact List.pairwise_map.1 hordered
  exact hplace.imp priorTo_of_not_streamBefore

/-! ## What the decisions are -/

/-- What the loop decides, before the gains. -/
def admissions (p : PlaybackState) : List AvailableRemoteAudio × (VoiceScope → ℕ) :=
  p.admitStreams (fun _ => 0) 0 p.ordered

theorem decided_eq : p.decided = p.admissions.1.map fun stream =>
    { stream with
      gain := p.gainOf (p.admissions.2 .group ≠ 0) (p.admissions.2 .specialization ≠ 0) stream } :=
  rfl

theorem decided_admitted (scope : VoiceScope) :
    admittedIn scope p.decided = admittedIn scope p.admissions.1
      ∧ admittedCount p.decided = admittedCount p.admissions.1 := by
  rw [decided_eq]
  exact map_gain_admitted _ _ _

/-- The decisions keep within the limits. -/
theorem decided_le : (∀ scope, admittedIn scope p.decided
      ≤ p.audioConfig.maximumStreamsPerScope scope)
    ∧ admittedCount p.decided ≤ p.audioConfig.maximumStreams := by
  obtain ⟨hscope, htotal⟩ := admitStreams_le (p := p) p.ordered (fun _ => 0) 0
    (fun _ => Nat.zero_le _) (Nat.zero_le _)
  refine ⟨fun scope => ?_, ?_⟩
  · have := hscope scope
    rw [(decided_admitted scope).1]
    unfold admissions
    omega
  · rw [(decided_admitted .group).2]
    unfold admissions
    omega

theorem decided_split {before after : List AvailableRemoteAudio} {stream : AvailableRemoteAudio}
    (h : p.decided = before ++ stream :: after) :
    stream.admitted = true ↔ p.suppressed stream.key.participantId = false
      ∧ p.HasRoom (fun _ => 0) 0 before stream.key.scope := by
  rw [decided_eq] at h
  obtain ⟨before', rest', hsplit, rfl, hrest⟩ := List.map_eq_append_iff.1 h
  obtain ⟨stream', after', rfl, rfl, -⟩ := List.map_eq_cons_iff.1 hrest
  have hloop := admitStreams_split p.ordered (fun _ => 0) 0 before' after' stream' hsplit
  unfold HasRoom at hloop ⊢
  rw [(map_gain_admitted _ _ _).1, (map_gain_admitted _ .group _).2]
  exact hloop

/-- The gain of a decision. -/
theorem decided_gain {stream : AvailableRemoteAudio} (h : stream ∈ p.decided) :
    stream.gain = if stream.admitted then p.volumeOf stream.key.participantId
        * duckingFactor p.audioConfig (fun scope => admittedIn scope p.decided ≠ 0)
          stream.key.scope
      else 0 := by
  have hcount : ∀ scope, p.admissions.2 scope = admittedIn scope p.decided := by
    intro scope
    rw [(decided_admitted scope).1]
    exact (admitStreams_snd _ _ _ scope).trans (Nat.zero_add _)
  rw [decided_eq] at h
  obtain ⟨stream', -, rfl⟩ := List.mem_map.1 h
  show p.gainOf _ _ stream' = _
  simp only [hcount]
  unfold gainOf duckingFactor volumeOf
  rcases stream'.admitted
  · rfl
  · rcases stream'.key.scope <;> simp

/-! ## What the decisions read -/

/-- The lists and settings are the same; what was decided before may differ. -/
structure SameInput (p q : PlaybackState) : Prop where
  streams : p.availableRemoteAudio.map place = q.availableRemoteAudio.map place
  suppressed : ∀ participantId, p.suppressed participantId = q.suppressed participantId
  volumes : p.participantVolumes = q.participantVolumes
  config : p.audioConfig = q.audioConfig

variable {q : PlaybackState}

/-- A stream's place and whether it is admitted. -/
def verdict (stream : AvailableRemoteAudio) : (RemoteStreamKey × ℕ) × Bool :=
  (place stream, stream.admitted)

theorem SameInput.ordered (h : SameInput p q) : p.ordered.map place = q.ordered.map place := by
  have hmap : ∀ p : PlaybackState, p.ordered.map place
      = (p.availableRemoteAudio.map place).mergeSort
        fun a b => !streamBefore (ofPlace b) (ofPlace a) :=
    fun p => List.map_mergeSort fun _ _ _ _ => rfl
  rw [hmap, hmap, h.streams]

/-- The loop admits the same streams on lists with the same places. -/
theorem SameInput.admitStreams (h : SameInput p q) : ∀ (l l' : List AvailableRemoteAudio)
    (perScope : VoiceScope → ℕ) (total : ℕ), l.map place = l'.map place →
      (p.admitStreams perScope total l).1.map verdict
          = (q.admitStreams perScope total l').1.map verdict
        ∧ (p.admitStreams perScope total l).2 = (q.admitStreams perScope total l').2
  | [], [], _, _, _ => ⟨rfl, rfl⟩
  | [], _ :: _, _, _, hl => by simp at hl
  | _ :: _, [], _, _, hl => by simp at hl
  | s :: l, s' :: l', perScope, total, hl => by
    obtain ⟨hplace, hl⟩ := List.cons.inj hl
    have hkey : s.key = s'.key := congrArg Prod.fst hplace
    have horder : s.admissionOrder = s'.admissionOrder := congrArg Prod.snd hplace
    simp only [PlaybackState.admitStreams, hkey, h.suppressed, h.config]
    split
    · obtain ⟨h₁, h₂⟩ := h.admitStreams l l' (Function.update perScope s'.key.scope
        (perScope s'.key.scope + 1)) (total + 1) hl
      simp [verdict, place, horder, h₁, h₂]
    · obtain ⟨h₁, h₂⟩ := h.admitStreams l l' perScope total hl
      simp [verdict, place, horder, h₁, h₂]

/-- The decision made of a verdict. -/
def decisionOf (p : PlaybackState) (groupActive specializationActive : Bool)
    (v : (RemoteStreamKey × ℕ) × Bool) : AvailableRemoteAudio :=
  let stream : AvailableRemoteAudio := ⟨v.1.1, v.1.2, v.2, 0⟩
  { stream with gain := p.gainOf groupActive specializationActive stream }

/-- The decisions depend on the lists and settings only. -/
theorem SameInput.decided (h : SameInput p q) : p.decided = q.decided := by
  have hmap : ∀ p : PlaybackState, p.decided = (p.admissions.1.map verdict).map
      (p.decisionOf (p.admissions.2 .group ≠ 0) (p.admissions.2 .specialization ≠ 0)) := by
    intro p
    rw [List.map_map, decided_eq]
    rfl
  have hgain : p.decisionOf = q.decisionOf := by
    funext groupActive specializationActive v
    simp only [decisionOf, gainOf, h.volumes, h.config]
  obtain ⟨h₁, h₂⟩ := h.admitStreams p.ordered q.ordered (fun _ => 0) 0 h.ordered
  unfold admissions at hmap
  rw [hmap, hmap q, h₁, h₂, hgain]

/-! ## Muting and unmuting -/

/-- The decision about a key. -/
def decisionFor (p : PlaybackState) (key : RemoteStreamKey) : Option AvailableRemoteAudio :=
  p.decided.find? fun new => new.key = key

theorem decisionFor_of_mem {stream : AvailableRemoteAudio} (h : stream ∈ p.availableRemoteAudio) :
    ∃ new ∈ p.decided, p.decisionFor stream.key = some new ∧ new.key = stream.key := by
  have hmem : stream.key ∈ p.decided.map AvailableRemoteAudio.key :=
    decided_keys.mem_iff.mpr (List.mem_map_of_mem h)
  obtain ⟨new, hnew, hkey⟩ := List.mem_map.mp hmem
  rcases hfind : p.decisionFor stream.key with _ | found
  · have := List.find?_eq_none.mp hfind new hnew
    simp [hkey] at this
  · exact ⟨found, List.mem_of_find?_eq_some hfind, rfl, by simpa using List.find?_some hfind⟩

/-- The streams of the state after a recomputation. -/
theorem recompute_streams : p.recomputePlaybackLocked.1.availableRemoteAudio
    = p.listed.map fun key => (p.decisionFor key).getD (ofPlace (key, 0)) := by
  unfold recomputePlaybackLocked listed
  rw [List.map_map]
  refine List.map_congr_left fun stream hstream => ?_
  obtain ⟨new, -, hfound, -⟩ := decisionFor_of_mem hstream
  have hfind : p.decided.find? (fun new => new.key = stream.key) = some new := hfound
  simp only [Function.comp_apply, hfound, hfind, Option.getD_some]

theorem SameInput.recompute (h : SameInput p q) :
    p.recomputePlaybackLocked.2 = q.recomputePlaybackLocked.2
      ∧ p.recomputePlaybackLocked.1.availableRemoteAudio
        = q.recomputePlaybackLocked.1.availableRemoteAudio := by
  have hlisted : p.listed = q.listed := by
    have := congrArg (List.map Prod.fst) h.streams
    rwa [List.map_map, List.map_map] at this
  refine ⟨?_, ?_⟩
  · show p.decided.map _ = q.decided.map _
    rw [h.decided]
  · rw [recompute_streams, recompute_streams, hlisted]
    unfold decisionFor
    rw [h.decided]

/-- A recomputation leaves every stream at its place. -/
theorem WellFormed.recompute_place (h : p.WellFormed) :
    p.recomputePlaybackLocked.1.availableRemoteAudio.map place
      = p.availableRemoteAudio.map place := by
  unfold recomputePlaybackLocked
  rw [List.map_map]
  refine List.map_congr_left fun stream hstream => ?_
  obtain ⟨new, hnew, hfound, hkey⟩ := decisionFor_of_mem hstream
  have hfind : p.decided.find? (fun new => new.key = stream.key) = some new := hfound
  simp only [Function.comp_apply, hfind, Option.getD_some]
  -- the decision is about a stream at its place, and only one stream has the key
  have hplace : place new ∈ p.availableRemoteAudio.map place := by
    have hperm := (List.mergeSort_perm p.availableRemoteAudio
      fun left right => !streamBefore right left).map place
    rw [← hperm.mem_iff]
    exact decided_place ▸ List.mem_map_of_mem hnew
  obtain ⟨stream', hstream', heq⟩ := List.mem_map.1 hplace
  have hkey' : stream'.key = stream.key := (congrArg Prod.fst heq).trans hkey
  rw [← heq, List.inj_on_of_nodup_map h.nodup hstream' hstream hkey']

/-- The state's decisions are those a recomputation would make. -/
def Current (p : PlaybackState) : Prop := p.recomputePlaybackLocked.1 = p

/-- States that differ in their streams only are the same after a recomputation. -/
theorem recompute_eq_of_streams {streams : List AvailableRemoteAudio}
    (h : streams.map place = p.availableRemoteAudio.map place) :
    ({ p with availableRemoteAudio := streams } : PlaybackState).recomputePlaybackLocked
      = p.recomputePlaybackLocked := by
  have hsame : SameInput { p with availableRemoteAudio := streams } p :=
    ⟨h, fun _ => rfl, rfl, rfl⟩
  obtain ⟨hchanges, hstreams⟩ := hsame.recompute
  refine Prod.ext ?_ hchanges
  show ({ p with availableRemoteAudio := _ } : PlaybackState) = { p with availableRemoteAudio := _ }
  exact congrArg (fun streams => ({ p with availableRemoteAudio := streams } : PlaybackState))
    hstreams

theorem WellFormed.current_recompute (h : p.WellFormed) : Current p.recomputePlaybackLocked.1 :=
  congrArg Prod.fst (recompute_eq_of_streams h.recompute_place)

/-- The state after the operations. -/
def after (ops : List PlaybackOp) : PlaybackState := ops.foldl (fun p op => (op.call p).1) {}

/-- Every state an operation leaves is well formed and current. -/
theorem after_current (ops : List PlaybackOp) : (after ops).WellFormed ∧ Current (after ops) := by
  suffices h : ∀ p : PlaybackState, p.WellFormed ∧ Current p →
      (ops.foldl (fun p op => (op.call p).1) p).WellFormed
        ∧ Current (ops.foldl (fun p op => (op.call p).1) p) from
    h {} ⟨wellFormed_default, by simp [Current, recomputePlaybackLocked]⟩
  induction ops with
  | nil => exact fun p hp => hp
  | cons op ops ih =>
    refine fun p hp => ih _ ?_
    show (op.call p).1.WellFormed ∧ Current (op.call p).1
    rcases hp.1.call op with hsame | ⟨p₁, hp₁, hcall⟩
    · rw [hsame]
      exact hp
    · rw [hcall]
      exact ⟨hp₁.recompute, hp₁.current_recompute⟩

/-- Who is muted and unmuted again leaves every decision as it was. -/
theorem unmute_mute (hp : p.WellFormed) (hcurrent : Current p) {participantId : Bytes}
    (h : participantId ∉ p.mutedParticipants) :
    ((p.setParticipantMuted participantId true).1.setParticipantMuted participantId false).1
      = p := by
  unfold setParticipantMuted updateParticipantFlag
  by_cases hid : participantId = []
  · simp [hid]
  simp only [if_neg hid, if_true, Bool.false_eq_true, if_false]
  have hwell : ({ p with mutedParticipants := insert participantId p.mutedParticipants }
      : PlaybackState).WellFormed := ⟨hp.nodup, hp.named, hp.config, hp.volumes⟩
  have hmuted : (insert participantId p.mutedParticipants).erase participantId
      = p.mutedParticipants := Finset.erase_insert h
  show ({ p with
    mutedParticipants := (insert participantId p.mutedParticipants).erase participantId
    availableRemoteAudio := _ } : PlaybackState).recomputePlaybackLocked.1 = p
  rw [hmuted]
  exact (congrArg Prod.fst (recompute_eq_of_streams (p := p) hwell.recompute_place)).trans hcurrent

/-- A recomputation decides by priority: it admits no suppressed stream, keeps within the limits
and refuses another stream only if those admitted before it fill one. The gain is the volume ducked
for the scopes above. The decisions depend on the lists and settings only, so who is muted and
unmuted again leaves every decision as it was. -/
theorem playback_decisions :
    (∀ p : PlaybackState,
      p.recomputePlaybackLocked.2 = p.decided.map AvailableRemoteAudio.change
      ∧ (∀ stream ∈ p.recomputePlaybackLocked.1.availableRemoteAudio, stream ∈ p.decided)
      ∧ (p.decided.map place).Perm (p.availableRemoteAudio.map place)
      ∧ p.decided.Pairwise priorTo
      ∧ (∀ stream ∈ p.decided, p.suppressed stream.key.participantId = true →
        stream.admitted = false)
      ∧ admittedCount p.decided ≤ p.audioConfig.maximumStreams
      ∧ (∀ scope, admittedIn scope p.decided ≤ p.audioConfig.maximumStreamsPerScope scope)
      ∧ (∀ before stream after, p.decided = before ++ stream :: after →
        stream.admitted = false → p.suppressed stream.key.participantId = false →
        p.audioConfig.maximumStreamsPerScope stream.key.scope
            ≤ admittedIn stream.key.scope before
          ∨ p.audioConfig.maximumStreams ≤ admittedCount before)
      ∧ ∀ stream ∈ p.decided, stream.gain = if stream.admitted then
          p.volumeOf stream.key.participantId
            * duckingFactor p.audioConfig (fun scope => admittedIn scope p.decided ≠ 0)
              stream.key.scope
        else 0)
    ∧ (∀ p q, SameInput p q → p.recomputePlaybackLocked.2 = q.recomputePlaybackLocked.2)
    ∧ ∀ ops participantId, participantId ∉ (after ops).mutedParticipants →
      (((after ops).setParticipantMuted participantId true).1.setParticipantMuted participantId
        false).1 = after ops := by
  refine ⟨fun p => ⟨rfl, fun _ => mem_recompute, ?_, decided_pairwise,
      fun _ => decided_suppressed, decided_le.2, decided_le.1, ?_, fun _ => decided_gain⟩,
    fun _ _ h => h.recompute.1, fun ops id h => ?_⟩
  · rw [decided_place]
    exact (List.mergeSort_perm _ _).map _
  · intro before stream after hsplit hrefused hsuppressed
    have hiff := decided_split hsplit
    rw [hrefused, hsuppressed] at hiff
    simp only [HasRoom, Nat.zero_add] at hiff
    by_contra hroom
    rw [not_or, Nat.not_le, Nat.not_le] at hroom
    exact absurd (hiff.2 ⟨trivial, by omega, by omega⟩) (by simp)
  · obtain ⟨hwell, hcurrent⟩ := after_current ops
    exact unmute_mute hwell hcurrent h

/-- `alice` is muted and unmuted while her stream is played. -/
theorem playback_decisions_alice :
    (((after [.onRemoteAudioAvailable aliceInTeam]).setParticipantMuted (bytes "alice")
        true).1.setParticipantMuted (bytes "alice") false).1
      = after [.onRemoteAudioAvailable aliceInTeam] := by
  refine playback_decisions.2.2 _ _ ?_
  simp only [after, List.foldl_cons, List.foldl_nil, PlaybackOp.call, onRemoteAudioAvailable]
  split <;> simp [recomputePlaybackLocked]

end PlaybackState

end VoxTree

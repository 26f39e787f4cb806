import Mathlib.Data.List.GetD
import VoxTree.Deployment
import VoxTree.Proofs.Logins

/-!
# What the control plane that is started lets through

The identity file says who may log in (`identity_file_read`). In the runs of a control plane as
`main` puts it together, a change of the memberships or of the active transmissions goes back to a
login with a credential that the deployment gives to the player (`changes_attributed`).
-/

namespace VoxTree

open Fields Results

/-! ## Comparing -/

theorem xor_eq_zero_iff {a b : ℕ} : a ^^^ b = 0 ↔ a = b := by
  constructor
  · intro h
    calc a = a ^^^ b ^^^ b := by rw [Nat.xor_assoc, Nat.xor_self, Nat.xor_zero]
      _ = b := by rw [h, Nat.zero_xor]
  · rintro rfl
    exact Nat.xor_self a

theorem foldl_or_eq_zero {α : Type} (f : α → ℕ) (xs : List α) (d : ℕ) :
    xs.foldl (fun d x => d ||| f x) d = 0 ↔ d = 0 ∧ ∀ x ∈ xs, f x = 0 := by
  induction xs generalizing d with
  | nil => simp
  | cons x xs ih => rw [List.foldl_cons, ih, Nat.or_eq_zero_iff, List.forall_mem_cons, and_assoc]

/-- The comparison that looks at every byte is equality. -/
theorem constantTimeEqual_iff {left right : Bytes} :
    constantTimeEqual left right = true ↔ left = right := by
  simp only [constantTimeEqual, decide_eq_true_eq, foldl_or_eq_zero, xor_eq_zero_iff,
    List.mem_range]
  constructor
  · rintro ⟨hlength, hbytes⟩
    refine List.ext_getElem hlength fun i hleft hright => ?_
    have hbyte := hbytes i (lt_max_of_lt_left hleft)
    rw [List.getD_eq_getElem _ _ hleft, List.getD_eq_getElem _ _ hright] at hbyte
    exact UInt8.xor_eq_zero_iff.1 (UInt8.toNat_inj.1 hbyte)
  · rintro rfl
    exact ⟨rfl, fun i _ => by rw [UInt8.xor_self]; rfl⟩

theorem constantTimeEqual_eq (left right : Bytes) :
    constantTimeEqual left right = decide (left = right) := by
  rw [Bool.eq_iff_iff, constantTimeEqual_iff, decide_eq_true_iff]

/-! ## The identity file -/

namespace MultiUserIdentityProvider

/-- A line that is neither empty nor a comment. -/
def isAccount (line : Bytes) : Bool := line ≠ [] && line.head? ≠ some 0x23

def accountLines (contents : Bytes) : List Bytes := (contents.splitOn 0x0a).filter isAccount

/-- The three fields of a line. -/
structure HasFields (line credential player devices : Bytes) : Prop where
  line_eq : line = credential ++ 0x09 :: (player ++ 0x09 :: devices)
  credential_noTab : 0x09 ∉ credential
  player_noTab : 0x09 ∉ player

/-- The names between the commas. -/
def deviceNames (devices : Bytes) : List Bytes :=
  ((withoutReturn devices).splitOn 0x2c).filter fun device => device ≠ []

structure Describes (line : Bytes) (identity : DeploymentIdentity) : Prop where
  fields : ∃ devices, HasFields line identity.credential identity.playerId.value devices
    ∧ identity.allowedDevices = deviceNames devices
  credential_nonempty : identity.credential ≠ []
  allowedDevices_nonempty : identity.allowedDevices ≠ []

/-- No two identities share a credential or a player. -/
def Distinct (identities : List DeploymentIdentity) : Prop :=
  (identities.map DeploymentIdentity.credential).Nodup
    ∧ (identities.map DeploymentIdentity.playerId).Nodup

theorem filter_pieces_eq (devices : Bytes) :
    (pieces 0x2c (withoutReturn devices)).filter (fun device => device ≠ [])
      = deviceNames devices := filter_pieces (by simp) _

theorem deviceNames_of_withoutReturn {devices : Bytes} (h : withoutReturn devices = []) :
    deviceNames devices = [] := by
  rw [deviceNames, h]
  rfl

theorem conflict_iff {identities : List DeploymentIdentity} {credential : Bytes}
    {player : PlayerId} :
    (identities.any fun identity => constantTimeEqual credential identity.credential
      || identity.playerId.value = player.value) = false
      ↔ ∀ identity ∈ identities, identity.credential ≠ credential
        ∧ identity.playerId ≠ player := by
  simp only [List.any_eq_false, constantTimeEqual_eq, Bool.or_eq_true, decide_eq_true_eq, not_or]
  refine forall₂_congr fun identity _ => ?_
  rw [← ne_eq, ← ne_eq, ne_comm, StrongId.value_injective.ne_iff]

variable {identities : List DeploymentIdentity} {lineNumber : ℕ} {line : Bytes}

theorem readRow_skip (h : isAccount line = false) :
    readRow identities lineNumber line = .ok identities := by
  rw [readRow, if_pos]
  simpa [isAccount, Decidable.or_iff_not_imp_left] using h

/-- A line of an account is read as it is described. -/
theorem readRow_describes {identity : DeploymentIdentity} (haccount : isAccount line = true)
    (hline : 0x0a ∉ line) (h : Describes line identity)
    (hfresh : ∀ other ∈ identities, other.credential ≠ identity.credential
      ∧ other.playerId ≠ identity.playerId) :
    readRow identities lineNumber line = .ok (identities ++ [identity]) := by
  obtain ⟨⟨devices, ⟨hfields, hcredential, hplayer⟩, hallowed⟩, hnonempty, hdevices⟩ := h
  have hnames : deviceNames devices ≠ [] := hallowed ▸ hdevices
  have hreturn : withoutReturn devices ≠ [] := fun hnil =>
    hnames (deviceNames_of_withoutReturn hnil)
  have hdevicesNe : devices ≠ [] := fun hnil => hreturn (by rw [hnil]; rfl)
  have hend : 0x0a ∉ devices := fun hmem => hline (by rw [hfields]; simp [hmem])
  have hskip : ¬(line = [] ∨ line.head? = some 0x23) := by
    simpa [isAccount] using haccount
  have hgiven : ¬(identity.credential = [] ∨ identity.playerId.value = [] ∨ devices = []) := by
    rintro (hnil | hnil | hnil)
    · exact hnonempty hnil
    · exact identity.playerId.nonempty hnil
    · exact hdevicesNe hnil
  rw [readRow, if_neg hskip, hfields, getline_append hcredential]
  dsimp only
  rw [getline_append hplayer]
  dsimp only
  rw [getline_of_notMem hdevicesNe hend]
  dsimp only
  rw [dif_neg hgiven, if_neg hreturn, conflict_iff.2 hfresh, filter_pieces_eq,
    if_neg Bool.false_ne_true, if_neg hnames, ← hallowed]

/-- What is read of a line is what it describes. -/
theorem readRow_eq_ok {read : List DeploymentIdentity} (haccount : isAccount line = true)
    (hline : 0x0a ∉ line) (h : readRow identities lineNumber line = .ok read) :
    ∃ identity, read = identities ++ [identity] ∧ Describes line identity
      ∧ ∀ other ∈ identities, other.credential ≠ identity.credential
        ∧ other.playerId ≠ identity.playerId := by
  have hskip : ¬(line = [] ∨ line.head? = some 0x23) := by
    simpa [isAccount] using haccount
  rw [readRow, if_neg hskip] at h
  rcases hfirst : getline 0x09 line with _ | ⟨credential, fields⟩
  · rw [hfirst] at h
    cases h
  rw [hfirst] at h
  dsimp only at h
  rcases hsecond : getline 0x09 fields with _ | ⟨player, fields'⟩
  · rw [hsecond] at h
    cases h
  rw [hsecond] at h
  dsimp only at h
  rcases hthird : getline 0x0a fields' with _ | ⟨devices, fields''⟩
  · rw [hthird] at h
    cases h
  rw [hthird] at h
  dsimp only at h
  have hfields : HasFields line credential player devices ∧ devices ≠ [] := by
    obtain ⟨hcredential, -, rfl | ⟨rfl, rfl⟩⟩ := getline_eq_some hfirst
    · obtain ⟨hplayer, -, rfl | ⟨rfl, rfl⟩⟩ := getline_eq_some hsecond
      · obtain ⟨-, hnonempty, rfl | ⟨rfl, -⟩⟩ := getline_eq_some hthird
        · exact absurd (by simp) hline
        · exact ⟨⟨rfl, hcredential, hplayer⟩, hnonempty⟩
      · cases hthird
    · cases hsecond
  split at h
  · cases h
  rename_i hgiven
  split at h
  · cases h
  split at h
  · cases h
  rename_i hfresh
  rw [filter_pieces_eq] at h
  split at h
  · cases h
  rename_i hnames
  obtain rfl := Except.ok.inj h
  refine ⟨_, rfl, ⟨⟨devices, hfields.1, rfl⟩, fun hnil => hgiven (.inl hnil), hnames⟩, ?_⟩
  exact conflict_iff.1 (by simpa using hfresh)

theorem Distinct.append_singleton {identity : DeploymentIdentity} :
    Distinct (identities ++ [identity]) ↔ Distinct identities ∧ ∀ other ∈ identities,
      other.credential ≠ identity.credential ∧ other.playerId ≠ identity.playerId := by
  simp only [Distinct, List.map_append, List.map_cons, List.map_nil, List.nodup_append,
    List.nodup_singleton, List.forall_mem_singleton, List.forall_mem_map, true_and]
  constructor
  · rintro ⟨⟨hcredentials, hcredential⟩, hplayers, hplayer⟩
    exact ⟨⟨hcredentials, hplayers⟩, fun other hother => ⟨hcredential other hother,
      hplayer other hother⟩⟩
  · rintro ⟨⟨hcredentials, hplayers⟩, hfresh⟩
    exact ⟨⟨hcredentials, fun other hother => (hfresh other hother).1⟩, hplayers,
      fun other hother => (hfresh other hother).2⟩

theorem Distinct.of_append {new : List DeploymentIdentity} (h : Distinct (identities ++ new)) :
    Distinct identities := by
  simp only [Distinct, List.map_append] at h
  exact ⟨h.1.of_append_left, h.2.of_append_left⟩

/-- Lines are read if each line of an account describes one and no two of them clash. -/
theorem readRows_eq_ok_iff (lineNumber : ℕ) {lines : List Bytes}
    (hlines : ∀ line ∈ lines, 0x0a ∉ line) (hdistinct : Distinct identities)
    (read : List DeploymentIdentity) :
    readRows identities lineNumber lines = .ok read ↔ ∃ new, read = identities ++ new
      ∧ List.Forall₂ Describes (lines.filter isAccount) new ∧ Distinct read := by
  induction lines generalizing identities lineNumber with
  | nil =>
    constructor
    · intro h
      obtain rfl := Except.ok.inj h
      exact ⟨[], by simp, .nil, hdistinct⟩
    · rintro ⟨new, rfl, hnew, -⟩
      obtain rfl := List.forall₂_nil_left_iff.1 hnew
      simp [readRows]
  | cons line lines ih =>
    obtain ⟨hline, hlines⟩ := List.forall_mem_cons.1 hlines
    rw [readRows]
    rcases haccount : isAccount line with _ | _
    · rw [readRow_skip haccount, List.filter_cons_of_neg (by simp [haccount])]
      exact ih _ hlines hdistinct
    rw [List.filter_cons_of_pos haccount]
    constructor
    · intro h
      rcases hread : readRow identities (lineNumber + 1) line with e | next
      · rw [hread] at h
        cases h
      rw [hread] at h
      obtain ⟨identity, rfl, hdescribes, hfresh⟩ := readRow_eq_ok haccount hline hread
      have hnext := Distinct.append_singleton.2 ⟨hdistinct, hfresh⟩
      obtain ⟨new, rfl, hnew, hall⟩ := (ih _ hlines hnext).1 h
      exact ⟨identity :: new, by simp, .cons hdescribes hnew, hall⟩
    · rintro ⟨new, rfl, hnew, hall⟩
      obtain ⟨identity, new, hdescribes, hrest, rfl⟩ := List.forall₂_cons_left_iff.1 hnew
      have hassoc : identities ++ identity :: new = identities ++ [identity] ++ new := by simp
      have hnext : Distinct (identities ++ [identity]) := .of_append (hassoc ▸ hall)
      rw [readRow_describes haccount hline hdescribes (Distinct.append_singleton.1 hnext).2]
      exact (ih _ hlines hnext).2 ⟨new, hassoc, hrest, hall⟩

/-- Which files are accepted, and as which identities. -/
theorem make_eq_ok_iff (contents : Bytes) (provider : MultiUserIdentityProvider) :
    make (some contents) = .ok provider
      ↔ List.Forall₂ Describes (accountLines contents) provider.identities
        ∧ Distinct provider.identities ∧ 2 ≤ provider.identities.length := by
  have hlines : ∀ line ∈ pieces 0x0a contents, 0x0a ∉ line := fun line => notMem_of_mem_pieces
  have hempty : Distinct [] := ⟨List.nodup_nil, List.nodup_nil⟩
  have hread := readRows_eq_ok_iff 0 hlines hempty
  have hfilter : (pieces 0x0a contents).filter isAccount = accountLines contents :=
    filter_pieces (by simp [isAccount]) contents
  rw [hfilter] at hread
  simp only [List.nil_append, exists_eq_left'] at hread
  constructor
  · intro h
    rw [make] at h
    rcases hrows : readRows [] 0 (pieces 0x0a contents) with e | identities
    · rw [hrows] at h
      cases h
    · rw [hrows] at h
      change (if identities.length < 2 then _ else _) = _ at h
      split at h
      · cases h
      · rename_i hmany
        obtain rfl := Except.ok.inj h
        obtain ⟨hdescribes, hdistinct⟩ := (hread identities).1 hrows
        exact ⟨hdescribes, hdistinct, Nat.not_lt.1 hmany⟩
  · rintro ⟨hdescribes, hdistinct, hmany⟩
    rw [make, (hread provider.identities).2 ⟨hdescribes, hdistinct⟩]
    exact if_neg (Nat.not_lt.2 hmany)

/-! ## Verifying -/

theorem foldl_last {α : Type} (p : α → Bool) (xs : List α) (last : Option α) :
    xs.foldl (fun last x => if p x then some x else last) last
      = (xs.reverse.find? p).or last := by
  induction xs generalizing last with
  | nil => rfl
  | cons x xs ih =>
    rw [List.foldl_cons, ih, List.reverse_cons, List.find?_append, Option.or_assoc]
    rcases hx : p x with _ | _ <;> simp [List.find?, hx]

variable {provider : MultiUserIdentityProvider} {credential : Bytes} {deviceId : DeviceId}

/-- No two identities share a credential, so the last one that matches is the only one. -/
theorem selected_eq_some_iff (hdistinct : Distinct provider.identities)
    {identity : DeploymentIdentity} : provider.selected credential = some identity
      ↔ identity ∈ provider.identities ∧ identity.credential = credential := by
  have hselected : provider.selected credential = provider.identities.reverse.find?
      fun identity => constantTimeEqual credential identity.credential := by
    rw [selected, foldl_last, Option.or_none]
  rw [hselected]
  constructor
  · intro h
    have hequal := List.find?_some h
    rw [constantTimeEqual_eq, decide_eq_true_eq] at hequal
    exact ⟨List.mem_reverse.1 (List.mem_of_find?_eq_some h), hequal.symm⟩
  · rintro ⟨hmem, rfl⟩
    rcases hfound : provider.identities.reverse.find?
        (fun other => constantTimeEqual identity.credential other.credential) with _ | other
    · have hnone := List.find?_eq_none.1 hfound identity (List.mem_reverse.2 hmem)
      simp [constantTimeEqual_eq] at hnone
    · have hequal := List.find?_some hfound
      rw [constantTimeEqual_eq, decide_eq_true_eq] at hequal
      have hother := List.mem_reverse.1 (List.mem_of_find?_eq_some hfound)
      rw [hfound, List.inj_on_of_nodup_map hdistinct.1 hother hmem hequal.symm]

/-- The file has a line for the account. -/
def Account (contents credential : Bytes) (player : PlayerId) (devices : Bytes) : Prop :=
  ∃ line ∈ accountLines contents, HasFields line credential player.value devices

def Allows (devices : Bytes) (deviceId : DeviceId) : Prop :=
  bytes "*" ∈ (withoutReturn devices).splitOn 0x2c
    ∨ deviceId.value ∈ (withoutReturn devices).splitOn 0x2c

instance {devices : Bytes} : Decidable (Allows devices deviceId) :=
  inferInstanceAs (Decidable (_ ∨ _))

theorem HasFields.unique {line credential player devices credential' player' devices' : Bytes}
    (h : HasFields line credential player devices)
    (h' : HasFields line credential' player' devices') :
    credential = credential' ∧ player = player' ∧ devices = devices' := by
  obtain ⟨hline, hcredential, hplayer⟩ := h
  obtain ⟨hline', hcredential', hplayer'⟩ := h'
  have hfirst := getline_append hcredential (player ++ 0x09 :: devices)
  rw [← hline, hline', getline_append hcredential'] at hfirst
  obtain ⟨rfl, hrest⟩ := Prod.mk.inj (Option.some.inj hfirst)
  have hsecond := getline_append hplayer devices
  rw [← hrest, getline_append hplayer'] at hsecond
  obtain ⟨rfl, rfl⟩ := Prod.mk.inj (Option.some.inj hsecond)
  exact ⟨rfl, rfl, rfl⟩

theorem forall₂_left {α β : Type} {R : α → β → Prop} {xs : List α} {ys : List β}
    (h : List.Forall₂ R xs ys) {x : α} (hx : x ∈ xs) : ∃ y ∈ ys, R x y := by
  induction h with
  | nil => cases hx
  | cons hhead _ ih =>
    rcases List.mem_cons.1 hx with rfl | hx
    · exact ⟨_, List.mem_cons_self, hhead⟩
    · obtain ⟨y, hy, hxy⟩ := ih hx
      exact ⟨y, List.mem_cons_of_mem _ hy, hxy⟩

theorem forall₂_right {α β : Type} {R : α → β → Prop} {xs : List α} {ys : List β}
    (h : List.Forall₂ R xs ys) {y : β} (hy : y ∈ ys) : ∃ x ∈ xs, R x y :=
  forall₂_left h.flip hy

theorem mem_deviceNames {devices name : Bytes} (h : name ≠ []) :
    name ∈ deviceNames devices ↔ name ∈ (withoutReturn devices).splitOn 0x2c := by
  simp [deviceNames, h]

section Read

variable {contents : Bytes} {player : PlayerId} {devices : Bytes}
  (h : List.Forall₂ Describes (accountLines contents) provider.identities)
include h

theorem Account.identity (haccount : Account contents credential player devices) :
    ∃ identity ∈ provider.identities, identity.credential = credential
      ∧ identity.playerId = player ∧ identity.allowedDevices = deviceNames devices := by
  obtain ⟨line, hline, hfields⟩ := haccount
  obtain ⟨identity, hidentity, ⟨devices', hfields', hallowed⟩, -, -⟩ := forall₂_left h hline
  obtain ⟨rfl, hplayer, rfl⟩ := hfields'.unique hfields
  exact ⟨identity, hidentity, rfl, StrongId.value_injective hplayer, hallowed⟩

theorem identity_account {identity : DeploymentIdentity}
    (hidentity : identity ∈ provider.identities) :
    ∃ devices, Account contents identity.credential identity.playerId devices
      ∧ identity.allowedDevices = deviceNames devices := by
  obtain ⟨line, hline, ⟨devices, hfields, hallowed⟩, -, -⟩ := forall₂_right h hidentity
  exact ⟨devices, ⟨line, hline, hfields⟩, hallowed⟩

variable (hdistinct : Distinct provider.identities)
include hdistinct

theorem Account.verify (haccount : Account contents credential player devices) :
    provider.verify credential deviceId
      = if Allows devices deviceId then .ok (verified player) else .error .deviceNotAllowed := by
  obtain ⟨identity, hidentity, hcredential, rfl, hallowed⟩ := haccount.identity h
  have hselected := (selected_eq_some_iff hdistinct).2 ⟨hidentity, hcredential⟩
  have hallows : (identity.allowedDevices.contains (bytes "*")
      || identity.allowedDevices.contains deviceId.value) = true ↔ Allows devices deviceId := by
    rw [Bool.or_eq_true, List.contains_iff_mem, List.contains_iff_mem, hallowed,
      mem_deviceNames (by decide), mem_deviceNames deviceId.nonempty]
    rfl
  rw [MultiUserIdentityProvider.verify, hselected]
  exact if_congr hallows rfl rfl

theorem verify_of_noAccount
    (hnone : ∀ player devices, ¬Account contents credential player devices) :
    provider.verify credential deviceId = .error .invalidCredentials := by
  rcases hselected : provider.selected credential with _ | identity
  · rw [verify, hselected]
  · obtain ⟨hidentity, rfl⟩ := (selected_eq_some_iff hdistinct).1 hselected
    obtain ⟨devices, haccount, -⟩ := identity_account h hidentity
    exact absurd haccount (hnone _ _)

variable (credential deviceId) in
theorem verify_cases : (∃ player devices, Account contents credential player devices
      ∧ provider.verify credential deviceId
        = if Allows devices deviceId then .ok (verified player) else .error .deviceNotAllowed)
    ∨ provider.verify credential deviceId = .error .invalidCredentials := by
  by_cases hsome : ∃ player devices, Account contents credential player devices
  · obtain ⟨player, devices, haccount⟩ := hsome
    exact .inl ⟨player, devices, haccount, haccount.verify h hdistinct⟩
  · exact .inr (verify_of_noAccount h hdistinct fun player devices haccount =>
      hsome ⟨player, devices, haccount⟩)

end Read

/-- A file is accepted if each line of an account describes an identity, no two of them share a
credential or a player and there are at least two. A credential of an accepted file is then
verified as the player of its line, on the devices the line allows; on no other device, and no
other credential at all. -/
theorem identity_file_read (contents : Bytes) (provider : MultiUserIdentityProvider) :
    (make (some contents) = .ok provider
      ↔ List.Forall₂ Describes (accountLines contents) provider.identities
        ∧ Distinct provider.identities ∧ 2 ≤ provider.identities.length)
    ∧ (make (some contents) = .ok provider → ∀ (credential : Bytes) (deviceId : DeviceId),
      (∀ identity, provider.verify credential deviceId = .ok identity
        ↔ ∃ player devices, Account contents credential player devices
          ∧ Allows devices deviceId ∧ identity = verified player)
      ∧ (provider.verify credential deviceId = .error .deviceNotAllowed
        ↔ ∃ player devices, Account contents credential player devices
          ∧ ¬Allows devices deviceId)
      ∧ (provider.verify credential deviceId = .error .invalidCredentials
        ↔ ∀ player devices, ¬Account contents credential player devices)) := by
  refine ⟨make_eq_ok_iff contents provider, fun hmake credential deviceId => ?_⟩
  obtain ⟨hread, hdistinct, -⟩ := (make_eq_ok_iff contents provider).1 hmake
  have hcases := verify_cases credential deviceId hread hdistinct
  refine ⟨fun identity => ⟨fun hok => ?_, ?_⟩, ⟨fun hrejected => ?_, ?_⟩, ⟨?_, ?_⟩⟩
  · rcases hcases with ⟨player, devices, haccount, hverify⟩ | hverify
    · rw [hverify] at hok
      split at hok
      · rename_i hallows
        exact ⟨player, devices, haccount, hallows, (Except.ok.inj hok).symm⟩
      · cases hok
    · cases hverify.symm.trans hok
  · rintro ⟨player, devices, haccount, hallows, rfl⟩
    rw [haccount.verify hread hdistinct, if_pos hallows]
  · rcases hcases with ⟨player, devices, haccount, hverify⟩ | hverify
    · rw [hverify] at hrejected
      split at hrejected
      · cases hrejected
      · rename_i hallows
        exact ⟨player, devices, haccount, hallows⟩
    · cases hverify.symm.trans hrejected
  · rintro ⟨player, devices, haccount, hallows⟩
    rw [haccount.verify hread hdistinct, if_neg hallows]
  · intro hrejected player devices haccount
    rw [haccount.verify hread hdistinct] at hrejected
    split at hrejected <;> cases hrejected
  · exact verify_of_noAccount hread hdistinct

section Samples

open Sample

def twoAccounts : Bytes := bytes "# accounts\nk1\talice\t*\n\nk2\tbob\td1,d2\r\n"

def twoAccountsProvider : MultiUserIdentityProvider where
  identities :=
    [⟨bytes "k1", alice, [bytes "*"]⟩, ⟨bytes "k2", bob, [bytes "d1", bytes "d2"]⟩]

theorem identity_file_read_twoAccounts :
    twoAccountsProvider.verify (bytes "k2") device = .error .deviceNotAllowed :=
  ((((identity_file_read twoAccounts twoAccountsProvider).2 rfl (bytes "k2") device).2).1).2
    ⟨bob, bytes "d1,d2\r", ⟨bytes "k2\tbob\td1,d2\r", by decide +kernel,
      ⟨rfl, by decide +kernel, by decide +kernel⟩⟩, by decide +kernel⟩

end Samples

end MultiUserIdentityProvider
/-! ## Starting -/

namespace Deployment

/-- The deployment gives the credential to the player, on the device. -/
def Configured (files : Bytes → Option Bytes) (options : Options) (credential : Bytes)
    (deviceId : DeviceId) (player : PlayerId) : Prop :=
  if options.identityFile ≠ [] then
    ∃ contents devices, files options.identityFile = some contents
      ∧ MultiUserIdentityProvider.Account contents credential player devices
      ∧ MultiUserIdentityProvider.Allows devices deviceId
  else
    player.value = options.bootstrapPlayer ∧ credential ≠ []
      ∧ ∃ contents, files options.bootstrapTokenFile = some contents
        ∧ stripLineEnds contents = credential

variable {files : Bytes → Option Bytes} {arguments : List Bytes}
  {database : Bytes → Except Bytes ℕ} {deployment : Deployment}

theorem configure_ok {options : Options} (h : configure files options = .ok deployment) :
    deployment.options = options ∧ identityProvider files options = .ok deployment.identities := by
  unfold configure at h
  split at h
  · cases h
  split at h
  · cases h
  obtain ⟨identities, hidentities, h⟩ := ok_bind h
  split at h
  · cases h
  split at h
  · obtain ⟨livekit, -, rfl⟩ := of_map h
    exact ⟨rfl, hidentities⟩
  · obtain rfl := Except.ok.inj h
    exact ⟨rfl, hidentities⟩

theorem main_serving (h : main files arguments database = .ok (.serving deployment)) :
    identityProvider files deployment.options = .ok deployment.identities := by
  unfold main at h
  obtain ⟨options, -, h⟩ := ok_bind h
  split at h
  · cases h
  obtain ⟨version, -, h⟩ := ok_bind h
  split at h
  · split at h
    all_goals cases h
  · obtain ⟨configured, hconfigured, hserving⟩ := of_map h
    obtain rfl := Started.serving.inj hserving
    obtain ⟨rfl, hidentities⟩ := configure_ok hconfigured
    exact hidentities

/-- Whom the identity provider of the options lets in is configured. -/
theorem configured_of_verify {options : Options} {identities : IdentityProvider}
    (h : identityProvider files options = .ok identities) {credential : Bytes}
    {deviceId : DeviceId} {identity : VerifiedIdentity}
    (hverify : identities.verify credential deviceId = .ok identity) :
    Configured files options credential deviceId identity.playerId := by
  unfold identityProvider at h
  unfold Configured
  split at h
  · rename_i hfile
    rw [if_pos hfile]
    obtain ⟨provider, hprovider, rfl⟩ := of_map h
    rcases hcontents : files options.identityFile with _ | contents
    · rw [hcontents] at hprovider
      cases hprovider
    rw [hcontents] at hprovider
    obtain ⟨hread, hdistinct, -⟩ :=
      (MultiUserIdentityProvider.make_eq_ok_iff contents provider).1 hprovider
    have hverify' : provider.verify credential deviceId = .ok identity := hverify
    rcases MultiUserIdentityProvider.verify_cases credential deviceId hread hdistinct with
      ⟨player, devices, haccount, hcase⟩ | hcase
    · rw [hcase] at hverify'
      split at hverify'
      · rename_i hallows
        obtain rfl := Except.ok.inj hverify'
        exact ⟨contents, devices, rfl, haccount, hallows⟩
      · cases hverify'
    · cases hcase.symm.trans hverify'
  · rename_i hfile
    rw [if_neg hfile]
    obtain ⟨token, htoken, h⟩ := ok_bind h
    rcases hplayer : (StrongId.make options.bootstrapPlayer : Except _ PlayerId) with e | player
    · rw [hplayer] at h
      cases h
    rw [hplayer] at h
    obtain rfl := Except.ok.inj h
    have hverify' : (if !constantTimeEqual credential token then
        .error SessionAuthenticationError.invalidCredentials else .ok (verified player))
          = Except.ok identity := hverify
    rw [constantTimeEqual_eq] at hverify'
    split at hverify'
    · cases hverify'
    rename_i hequal
    obtain rfl := Except.ok.inj hverify'
    obtain rfl : credential = token := by simpa using hequal
    rcases hcontents : files options.bootstrapTokenFile with _ | contents
    · rw [hcontents] at htoken
      cases htoken
    rw [hcontents] at htoken
    unfold readCredentialFile at htoken
    dsimp only at htoken
    split at htoken
    · cases htoken
    rename_i hempty
    obtain rfl := Except.ok.inj htoken
    unfold StrongId.make at hplayer
    split at hplayer
    · obtain rfl := Except.ok.inj hplayer
      exact ⟨rfl, hempty, contents, rfl, rfl⟩
    · cases hplayer

/-! ## Runs -/

open ControlPlane

variable {ω : Type} {observer : LifecycleObserver ω} {random : RandomIdentifiers}
  {failureCount droppedAuditEventCount : ω → UInt64} {contents : DatabaseContents random.sessionIds}

theorem sessionInv_start (plane : ControlPlane ω InMemoryTransmissionRateLimiter) (w : ω)
    (hids : plane.sessionIds = random.sessionIds) :
    SessionInv plane (start random contents w) where
  keyed := contents.keyed
  issued := hids ▸ contents.issued
  bound id t h := by
    have hempty : (∅ : Std.ExtTreeMap TransmissionId ActiveTransmission)[id]? = some t := h
    simp at hempty

/-- The requests for the metrics do not reach the adapter. -/
def reachesApi : ControlPlaneStep ω InMemoryTransmissionRateLimiter → Bool
  | .request request _ => !RuntimeHttpHandler.isMetrics request
  | _ => true

theorem handle_of_metrics {σ : Type} {handler : RuntimeHttpHandler σ} {request : HttpRequest}
    (h : RuntimeHttpHandler.isMetrics request = true) (now : TimePoint) (s : RuntimeState σ) :
    (handler.handle request now s).2.api = s.api := by
  rw [RuntimeHttpHandler.handle, if_pos h]

theorem handle_of_not_metrics {σ : Type} {handler : RuntimeHttpHandler σ} {request : HttpRequest}
    (h : RuntimeHttpHandler.isMetrics request = false) (now : TimePoint) (s : RuntimeState σ) :
    (handler.handle request now s).1 = (handler.api request now s.api).1
      ∧ (handler.handle request now s).2.api = (handler.api request now s.api).2 := by
  rw [RuntimeHttpHandler.handle, if_neg (by simp [h])]
  exact ⟨rfl, rfl⟩

theorem next_api (s : RuntimeState (ControlPlaneState ω InMemoryTransmissionRateLimiter))
    (step : ControlPlaneStep ω InMemoryTransmissionRateLimiter) :
    (deployment.next observer random failureCount droppedAuditEventCount s step).api
      = if reachesApi step then (deployment.plane observer random).next s.api step
        else s.api := by
  cases step with
  | request request now =>
    rcases hmetrics : RuntimeHttpHandler.isMetrics request with _ | _
    · rw [if_pos (by simp [reachesApi, hmetrics])]
      exact (handle_of_not_metrics hmetrics now s).2
    · rw [if_neg (by simp [reachesApi, hmetrics])]
      exact handle_of_metrics hmetrics now s
  | operation op => rfl
  | directory op => rfl
  | outside limiter => rfl
  | restart w limiter => rfl

/-- Behind the handler runs the control plane, on what reaches it. -/
theorem run_api (w : ω) (steps : List (ControlPlaneStep ω InMemoryTransmissionRateLimiter)) :
    (deployment.run observer random failureCount droppedAuditEventCount contents w steps).api
      = (steps.filter reachesApi).foldl (deployment.plane observer random).next
        (start random contents w) := by
  induction steps using List.reverseRecOn with
  | nil => rfl
  | append_singleton steps step ih =>
    have hrun : deployment.run observer random failureCount droppedAuditEventCount contents w
        (steps ++ [step]) = deployment.next observer random failureCount droppedAuditEventCount
          (deployment.run observer random failureCount droppedAuditEventCount contents w steps)
          step :=
      List.foldl_concat ..
    rw [hrun, next_api, ih, List.filter_append]
    rcases hstep : reachesApi step with _ | _
    · simp [hstep]
    · rw [List.filter_cons_of_pos hstep, List.filter_nil, if_pos rfl]
      exact (List.foldl_concat ..).symm

/-! ## Changes -/

/-- By the memberships of the store the player has the role. -/
def HasRole (s : Store) (player : PlayerId) (role : String) : Prop :=
  ∃ context membership, s.memberships[player]? = some context
    ∧ context.snapshot.find player = some membership
    ∧ ∃ roleId ∈ membership.roleIds, roleId.value = bytes role

theorem hasRole_iff {s : Store} {player : PlayerId} {role : String} :
    hasRole s player role = true ↔ HasRole s player role := by
  unfold hasRole HasRole
  rcases s.memberships[player]? with _ | context
  · simp
  dsimp only
  rcases hfound : context.snapshot.find player with _ | membership
  · simp [hfound]
  · simp [hfound]

/-- What the player of a session may change in the deployment: he starts or ends his own
transmissions, a moderator or an administrator interrupts any, and an administrator replaces and
removes memberships. -/
inductive PermittedChange (s : Store) (session : AuthenticatedSession) : Store → Prop
  | start (t : ActiveTransmission) : OwnedBy t session →
      s.activeTransmissions[t.authorization.transmissionId]? = none →
      PermittedChange s session (s.emplace t)
  | end (id : TransmissionId) (t : ActiveTransmission) : s.activeTransmissions[id]? = some t →
      OwnedBy t session → PermittedChange s session (s.eraseTransmission id)
  | interrupt (id : TransmissionId) :
      HasRole s session.playerId "moderator" ∨ HasRole s session.playerId "administrator" →
      PermittedChange s session (s.eraseTransmission id)
  | replace (subject : PlayerId) (context : AuthoritativeMembershipContext) :
      HasRole s session.playerId "administrator" →
      PermittedChange s session (s.withContext subject (s.memberships.insert subject context))
  | remove (subject : PlayerId) : HasRole s session.playerId "administrator" →
      PermittedChange s session (s.withContext subject (s.memberships.erase subject))

theorem permitted_of_mayChange
    {s : ControlPlaneState ω InMemoryTransmissionRateLimiter} {session : AuthenticatedSession}
    {c : Store} (h : MayChange (deployment.plane observer random) s session c) :
    PermittedChange s.store session c := by
  cases h with
  | start t howned hnew => exact .start t howned hnew
  | «end» id t ht howned => exact .end id t ht howned
  | interrupt id hmay =>
    have hrole := Except.ok.inj hmay
    rw [MembershipRoleAuthorizer.canInterrupt, Bool.or_eq_true, hasRole_iff, hasRole_iff] at hrole
    exact .interrupt id hrole
  | replace a subject context ha hmay =>
    obtain rfl := Option.some.inj ha
    exact .replace subject context (hasRole_iff.1 (Except.ok.inj hmay))
  | remove a subject ha hmay =>
    obtain rfl := Option.some.inj ha
    exact .remove subject (hasRole_iff.1 (Except.ok.inj hmay))

variable (observer random failureCount droppedAuditEventCount contents) in
/-- The login that a session goes back to: a request of the run that was answered with the
session, not longer than fifteen minutes ago, and that presented a credential which the deployment
gives to the session's player on the session's device. -/
def LoggedInBy (files : Bytes → Option Bytes) (deployment : Deployment) (w : ω)
    (steps : List (ControlPlaneStep ω InMemoryTransmissionRateLimiter)) (now : TimePoint)
    (session : AuthenticatedSession) : Prop :=
  ∃ before login loggedIn after credential, steps = before ++ .request login loggedIn :: after
    ∧ login.method = bytes "POST" ∧ login.target = bytes "/api/v1/sessions"
    ∧ login.header "authorization" = bytes "Bearer " ++ credential
    ∧ login.header "x-hvc-device-id" = session.deviceId.value
    ∧ ((deployment.runtimeApi observer random failureCount droppedAuditEventCount).handle login
        loggedIn
        (deployment.run observer random failureCount droppedAuditEventCount contents w before)).1
      = Network.sessionResponse session
    ∧ now < loggedIn + 900000 * 1000000
    ∧ Configured files deployment.options credential session.deviceId session.playerId

/-- A login of the control plane behind the handler is one of the handler's run. -/
theorem loggedInBy_of_fromLogin
    (hidentities : identityProvider files deployment.options = .ok deployment.identities) {w : ω}
    {steps : List (ControlPlaneStep ω InMemoryTransmissionRateLimiter)} {now : TimePoint}
    {session : AuthenticatedSession} (hactive : session.activeAt now = true)
    (h : FromLogin (deployment.plane observer random) (start random contents w)
      (steps.filter reachesApi) session) :
    LoggedInBy observer random failureCount droppedAuditEventCount contents files deployment w steps
      now session := by
  obtain ⟨before', login, loggedIn, after', hsteps, hlogin⟩ := h
  obtain ⟨before, rest, rfl, rfl, hrest⟩ := List.filter_eq_append_iff.1 hsteps
  obtain ⟨skipped, after, rfl, hskipped, hreaches, rfl⟩ := List.filter_eq_cons_iff.1 hrest
  obtain ⟨credential, hcredential, ⟨identity, hverified, hplayer, hexpires⟩⟩ := hlogin.verified
  have hmetrics : RuntimeHttpHandler.isMetrics login = false := by
    simpa [reachesApi] using hreaches
  have hbefore : (before ++ skipped).filter reachesApi = before.filter reachesApi := by
    rw [List.filter_append, List.filter_eq_nil_iff.2 hskipped, List.append_nil]
  refine ⟨before ++ skipped, login, loggedIn, after, credential, by simp, hlogin.method,
    hlogin.target, hcredential, hlogin.device, ?_, ?_, ?_⟩
  · rw [(handle_of_not_metrics hmetrics _ _).1, run_api, hbefore]
    exact hlogin.answer
  · have hlifetime : (min identity.maximumSessionLifetime 900000 : Int) ≤ 900000 :=
      Int.min_le_right _ _
    have hnow : now < session.expiresAt := by
      simpa [AuthenticatedSession.activeAt] using hactive
    rw [hexpires] at hnow
    have hwithin : now < loggedIn
        + (min identity.maximumSessionLifetime 900000 : Int) * 1000000 := hnow
    exact Int.lt_of_lt_of_le hwithin
      (Int.add_le_add_left (Int.mul_le_mul_of_nonneg_right hlifetime (by decide)) _)
  · have hverify : deployment.identities.verify credential session.deviceId = .ok identity :=
      Except.ok.inj hverified
    rw [hplayer]
    exact configured_of_verify hidentities hverify

/-- However the control plane was started and whatever has been asked of it: a request that
changes the memberships or the active transmissions names a session that is stored, active and
bound to its device, the change is one that the deployment permits to the session's player, and the
session was in the database when the control plane was started or goes back to a login with his
credential. -/
theorem changes_attributed (files : Bytes → Option Bytes) (arguments : List Bytes)
    (database : Bytes → Except Bytes ℕ) (deployment : Deployment)
    (hserving : main files arguments database = .ok (.serving deployment))
    (observer : LifecycleObserver ω) (random : RandomIdentifiers)
    (failureCount droppedAuditEventCount : ω → UInt64)
    (contents : DatabaseContents random.sessionIds) (w : ω)
    (steps : List (ControlPlaneStep ω InMemoryTransmissionRateLimiter)) (request : HttpRequest)
    (now : TimePoint) :
    let handler := deployment.runtimeApi observer random failureCount droppedAuditEventCount
    let s := deployment.run observer random failureCount droppedAuditEventCount contents w steps
    let s' := (handler.handle request now s).2
    s'.api.store.memberships ≠ s.api.store.memberships
        ∨ s'.api.store.activeTransmissions ≠ s.api.store.activeTransmissions →
      ∃ session, NamedSession request now s.api.store session
        ∧ PermittedChange s.api.store session s'.api.store
        ∧ (contents.sessions[session.sessionId]? = some session
          ∨ LoggedInBy observer random failureCount droppedAuditEventCount contents files deployment
            w steps now session) := by
  intro handler s s' hchanged
  rcases hmetrics : RuntimeHttpHandler.isMetrics request with _ | _
  · have hs' : s'.api = ((deployment.plane observer random).adapter.handle request now s.api).2 :=
      (handle_of_not_metrics hmetrics now s).2
    have hs : s.api = (steps.filter reachesApi).foldl (deployment.plane observer random).next
        (start random contents w) := run_api w steps
    have hstart : SessionInv (deployment.plane observer random) (start random contents w) :=
      sessionInv_start _ w rfl
    have hinv := hstart.foldl (steps.filter reachesApi)
    rw [← hs] at hinv
    rw [hs'] at hchanged ⊢
    rcases handle_outcome now hinv request with ⟨hstore, -⟩ | ⟨-, ⟨session, hlogin, -⟩
      | ⟨session, hnamed, hmay, -⟩⟩
    · rw [hstore] at hchanged
      simp at hchanged
    · rw [hlogin] at hchanged
      simp [Store.upsertSession] at hchanged
    · have hstored := hnamed.stored
      rw [hs] at hstored
      exact ⟨session, hnamed, permitted_of_mayChange hmay,
        (sessions_from_logins hstart _ _ _ hstored).imp_right
          (loggedInBy_of_fromLogin (main_serving hserving) hnamed.active)⟩
  · have hs' : s'.api = s.api := handle_of_metrics hmetrics now s
    rw [hs'] at hchanged
    simp at hchanged

section Samples

open Sample

def bootstrapArguments : List Bytes :=
  [bytes "--listen", bytes "::", bytes "--bootstrap-token-file", bytes "token",
    bytes "--bootstrap-player", bytes "alice"]

def tokenFile (path : Bytes) : Option Bytes :=
  if path = bytes "token" then some (bytes "x\n") else none

def bootstrapDeployment : Deployment where
  options :=
    { listenAddress := bytes "::"
      bootstrapTokenFile := bytes "token"
      bootstrapPlayer := bytes "alice" }
  identities := .bootstrap ⟨bytes "x", alice⟩
  livekit := none

theorem main_bootstrap :
    main tokenFile bootstrapArguments (fun _ => .ok 3) = .ok (.serving bootstrapDeployment) := rfl

/-- `alice` logs in and is given her membership. -/
def loginSteps : List (ControlPlaneStep (List LifecycleEvent) InMemoryTransmissionRateLimiter) :=
  [.request (requestWith "POST" "/api/v1/sessions" "Bearer x" "") 0,
    .operation (.updateMembership alice (context 1 Nat.one_pos) 0 correlation .membershipChanged)]

def startRequest : HttpRequest :=
  requestWith "POST" "/api/v1/transmissions" "Session t"
    "\x7b\"client_transmission_id\":\"c\",\"scope\":\"team\",\"membership_version\":1\x7d"

def aliceIdentifiers : RandomIdentifiers := ⟨alicePlane.sessionIds, numbered⟩

def newDatabase : DatabaseContents aliceIdentifiers.sessionIds where
  keyed id session h := by simp at h
  issued id session h := by simp at h

def afterLogin : RuntimeState (ControlPlaneState (List LifecycleEvent)
    InMemoryTransmissionRateLimiter) :=
  bootstrapDeployment.run recorder aliceIdentifiers (fun _ => 0) (fun _ => 0) newDatabase []
    loginSteps

/-- Her transmission goes back to her login. -/
theorem changes_attributed_aliceStarts :
    ∃ session, LoggedInBy recorder aliceIdentifiers (fun _ => 0) (fun _ => 0) newDatabase tokenFile
      bootstrapDeployment [] loginSteps 1 session := by
  have hchanged : ((bootstrapDeployment.runtimeApi recorder aliceIdentifiers (fun _ => 0)
      fun _ => 0).handle startRequest 1 afterLogin).2.api.store.activeTransmissions.size
        ≠ afterLogin.api.store.activeTransmissions.size := by decide +kernel
  obtain ⟨session, -, -, hstored | hlogin⟩ := changes_attributed tokenFile bootstrapArguments
    (fun _ => .ok 3) bootstrapDeployment main_bootstrap recorder aliceIdentifiers (fun _ => 0)
    (fun _ => 0) newDatabase [] loginSteps startRequest 1 (.inr fun hsame =>
      hchanged (congrArg Std.ExtTreeMap.size hsame))
  · exact absurd hstored (by simp [newDatabase])
  · exact ⟨session, hlogin⟩

end Samples

end Deployment

end VoxTree

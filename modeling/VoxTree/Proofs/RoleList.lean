import Mathlib.Data.List.Nodup
import VoxTree.ControlPlaneHttp
import VoxTree.Lib.Separated

/-!
# Which lists of roles `parseRoles` accepts

The loop scans from comma to comma and stops where the text ends (`parseRoleList_eq_some`). So it
accepts the texts that join distinct names with commas, and also those with one more comma behind
(`parseRoles_eq_some`). An empty name is refused in every other place.
-/

namespace VoxTree.Network

open Separated

/-- Names that `parseRoles` is meant to tell apart. -/
structure RoleNames (names : List Bytes) : Prop where
  nonempty : names ≠ []
  nodup : names.Nodup
  named : ∀ name ∈ names, name ≠ []
  commaFree : ∀ name ∈ names, (0x2c : UInt8) ∉ name

/-- A text is accepted as the comma-separated list that it is, and as no other. -/
def ParsesExactly (value : Bytes) : Prop :=
  ∀ names : List Bytes, (parseRoles value).map (·.map (·.value)) = some names
    ↔ RoleNames names ∧ value = [0x2c].intercalate names

/-- A list of names with one more comma behind it. -/
def EndsWithComma (value : Bytes) : Prop :=
  ∃ names, RoleNames names ∧ value = [0x2c].intercalate names ++ [0x2c]

/-! ## The loop -/

section Loop

variable {fuel : ℕ} {roles : List RoleId} {value : Bytes}

theorem parseRoleList_nil : parseRoleList fuel roles [] = some roles := by
  rcases fuel with _ | fuel <;> rfl

/-- What the loop does with the next name. -/
theorem parseRoleList_cases (fuel : ℕ) (roles : List RoleId) (h : value ≠ []) :
    (value.takeWhile (· ≠ 0x2c) = [] ∧ parseRoleList (fuel + 1) roles value = none)
      ∨ ∃ role : RoleId, value.takeWhile (· ≠ 0x2c) = role.value ∧
        ((role ∈ roles ∧ parseRoleList (fuel + 1) roles value = none)
          ∨ role ∉ roles ∧ ((value.dropWhile (· ≠ 0x2c) = []
              ∧ parseRoleList (fuel + 1) roles value = some (roles ++ [role]))
            ∨ ∃ x rest, value.dropWhile (· ≠ 0x2c) = x :: rest
              ∧ parseRoleList (fuel + 1) roles value
                = parseRoleList fuel (roles ++ [role]) rest)) := by
  obtain ⟨byte, value, rfl⟩ := List.exists_cons_of_ne_nil h
  by_cases hname : (byte :: value).takeWhile (· ≠ 0x2c) = []
  · refine .inl ⟨hname, ?_⟩
    unfold parseRoleList
    exact dif_neg (not_not_intro hname)
  refine .inr ⟨⟨_, hname⟩, rfl, ?_⟩
  have hany : (roles.any fun existing =>
      decide (existing.value = (byte :: value).takeWhile (· ≠ 0x2c))) = true
      ↔ (⟨_, hname⟩ : RoleId) ∈ roles := by
    simp only [List.any_eq_true, decide_eq_true_eq]
    refine ⟨fun ⟨role, hrole, heq⟩ => ?_, fun hmem => ⟨_, hmem, rfl⟩⟩
    obtain rfl : role = ⟨_, hname⟩ := StrongId.ext heq
    exact hrole
  by_cases hknown : (⟨_, hname⟩ : RoleId) ∈ roles
  · exact .inl ⟨hknown, (dif_pos hname).trans (if_pos (hany.2 hknown))⟩
  refine .inr ⟨hknown, ?_⟩
  rw [show parseRoleList (fuel + 1) roles (byte :: value) = _ from
    (dif_pos hname).trans (if_neg fun h => hknown (hany.1 h))]
  generalize (byte :: value).dropWhile (· ≠ 0x2c) = tail
  rcases tail with _ | ⟨x, rest⟩
  · exact .inl ⟨rfl, rfl⟩
  · exact .inr ⟨x, rest, rfl, rfl⟩

/-! ## Scanning for roles -/

section Scan

variable {value rest : Bytes} {role : RoleId} {roles : List RoleId}

theorem not_scans_of_unnamed (h : value ≠ []) (hname : value.takeWhile (· ≠ 0x2c) = []) :
    ¬Scans 0x2c value (roles.map (·.value)) := by
  intro hscans
  have hfirst := hscans.head?_eq h
  rw [hname, List.head?_map, Option.map_eq_some_iff] at hfirst
  obtain ⟨first, -, hempty⟩ := hfirst
  exact first.nonempty hempty

theorem eq_cons_of_scans (h : value ≠ []) (hname : value.takeWhile (· ≠ 0x2c) = role.value)
    (hscans : Scans 0x2c value (roles.map (·.value))) : ∃ more, roles = role :: more := by
  have hfirst := hscans.head?_eq h
  rw [hname, List.head?_map, Option.map_eq_some_iff] at hfirst
  obtain ⟨first, hhead, heq⟩ := hfirst
  obtain rfl : first = role := StrongId.ext heq
  exact List.head?_eq_some_iff.1 hhead

theorem scans_last_iff (h : value ≠ []) (hname : value.takeWhile (· ≠ 0x2c) = role.value)
    (hdrop : value.dropWhile (· ≠ 0x2c) = []) :
    Scans 0x2c value (roles.map (·.value)) ↔ roles = [role] := by
  rw [scans_of_dropWhile_nil h hdrop, hname]
  constructor
  · intro hmap
    exact List.map_injective_iff.2 StrongId.value_injective hmap
  · rintro rfl
    rfl

theorem scans_next_iff {x : UInt8} (h : value ≠ [])
    (hname : value.takeWhile (· ≠ 0x2c) = role.value)
    (hdrop : value.dropWhile (· ≠ 0x2c) = x :: rest) :
    Scans 0x2c value (roles.map (·.value)) ↔
      ∃ more, roles = role :: more ∧ Scans 0x2c rest (more.map (·.value)) := by
  constructor
  · intro hscans
    obtain ⟨more, rfl⟩ := eq_cons_of_scans h hname hscans
    obtain ⟨fields, heq, hrest⟩ := (scans_of_dropWhile_cons hdrop).1 hscans
    rw [List.map_cons, List.cons.injEq] at heq
    exact ⟨more, rfl, heq.2 ▸ hrest⟩
  · rintro ⟨more, rfl, hrest⟩
    refine (scans_of_dropWhile_cons hdrop).2 ⟨_, ?_, hrest⟩
    rw [hname, List.map_cons]

end Scan

/-- The loop adds to the roles it has what the scan of the text takes. -/
theorem parseRoleList_eq_some : ∀ {fuel : ℕ} {roles out : List RoleId} {value : Bytes},
    value.length ≤ fuel → roles.Nodup → (parseRoleList fuel roles value = some out ↔
      ∃ added, out = roles ++ added ∧ out.Nodup ∧ Scans 0x2c value (added.map (·.value)))
  | fuel, roles, out, [], _, hroles => by
    rw [parseRoleList_nil, Option.some.injEq]
    constructor
    · rintro rfl
      exact ⟨[], by simp, hroles, .nil⟩
    · rintro ⟨added, rfl, -, hscans⟩
      obtain rfl : added = [] := by simpa using hscans
      simp
  | fuel + 1, roles, out, byte :: value, hfuel, hroles => by
    have hne := List.cons_ne_nil byte value
    rcases parseRoleList_cases fuel roles hne with
      ⟨hname, hparse⟩ | ⟨role, hname, ⟨hknown, hparse⟩ | ⟨hnew, hgoes⟩⟩
    · rw [hparse]
      refine ⟨fun h => by simp at h, fun ⟨added, _, _, hscans⟩ => ?_⟩
      exact absurd hscans (not_scans_of_unnamed hne hname)
    · rw [hparse]
      refine ⟨fun h => by simp at h, fun ⟨added, hout, hnodup, hscans⟩ => ?_⟩
      obtain ⟨more, rfl⟩ := eq_cons_of_scans hne hname hscans
      rw [hout, List.nodup_append] at hnodup
      exact absurd rfl (hnodup.2.2 role hknown role List.mem_cons_self)
    have hadded : (roles ++ [role]).Nodup := by
      rw [List.nodup_append]
      refine ⟨hroles, List.nodup_singleton role, fun existing hexisting added hadded heq => ?_⟩
      obtain rfl := List.mem_singleton.1 hadded
      exact hnew (heq ▸ hexisting)
    rcases hgoes with ⟨hdrop, hparse⟩ | ⟨x, rest, hdrop, hparse⟩
    · simp only [hparse, Option.some.injEq, scans_last_iff hne hname hdrop]
      constructor
      · rintro rfl
        exact ⟨[role], rfl, hadded, rfl⟩
      · rintro ⟨_, rfl, -, rfl⟩
        rfl
    · have hlength : rest.length ≤ fuel := by
        have hle := List.length_dropWhile_le (· ≠ 0x2c) (byte :: value)
        rw [hdrop] at hle
        simp only [List.length_cons] at hle hfuel
        omega
      rw [hparse, parseRoleList_eq_some hlength hadded]
      simp only [scans_next_iff hne hname hdrop]
      constructor
      · rintro ⟨more, rfl, hnodup, hscans⟩
        exact ⟨role :: more, by simp, hnodup, more, rfl, hscans⟩
      · rintro ⟨_, rfl, hnodup, more, rfl, hscans⟩
        exact ⟨more, by simp, hnodup, hscans⟩

end Loop

/-! ## The accepted texts -/

theorem parseRoles_eq_some_iff {value : Bytes} {roles : List RoleId} :
    parseRoles value = some roles ↔
      roles ≠ [] ∧ roles.Nodup ∧ Scans 0x2c value (roles.map (·.value)) := by
  have hloop : parseRoleList value.length [] value = some roles ↔
      roles.Nodup ∧ Scans 0x2c value (roles.map (·.value)) := by
    simp [parseRoleList_eq_some le_rfl List.nodup_nil]
  rw [← hloop]
  unfold parseRoles
  rcases parseRoleList value.length [] value with _ | _ | ⟨role, found⟩
  · simp
  · simp +contextual
  · simp +contextual [eq_comm]

theorem RoleNames.exists_roles {names : List Bytes} (h : RoleNames names) :
    ∃ roles : List RoleId, roles.map (·.value) = names :=
  ⟨names.pmap StrongId.mk h.named, by simp [List.map_pmap]⟩

/-- The scan of the text takes names that are told apart, as the text joins them or with a comma
more. -/
theorem parseRoles_eq_some {value : Bytes} {names : List Bytes} :
    (parseRoles value).map (·.map (·.value)) = some names ↔ RoleNames names
      ∧ (value = [0x2c].intercalate names ∨ value = [0x2c].intercalate names ++ [0x2c]) := by
  rw [Option.map_eq_some_iff]
  constructor
  · rintro ⟨roles, hparse, rfl⟩
    obtain ⟨hne, hnodup, hscans⟩ := parseRoles_eq_some_iff.1 hparse
    have hnamed : ∀ name ∈ roles.map (·.value), name ≠ [] := by
      simpa using fun role _ => role.nonempty
    obtain ⟨hcommaFree, hvalue⟩ := (scans_iff_of_forall_ne_nil hnamed).1 hscans
    refine ⟨⟨by simpa using hne, ?_, hnamed, hcommaFree⟩, hvalue.imp_right And.right⟩
    exact hnodup.map StrongId.value_injective
  · rintro ⟨hnames, hvalue⟩
    obtain ⟨roles, rfl⟩ := hnames.exists_roles
    refine ⟨roles, parseRoles_eq_some_iff.2 ⟨by simpa using hnames.nonempty, ?_, ?_⟩, rfl⟩
    · exact hnames.nodup.of_map
    · exact (scans_iff_of_forall_ne_nil hnames.named).2
        ⟨hnames.commaFree, hvalue.imp_right fun h => ⟨hnames.nonempty, h⟩⟩

/-- `parseRoles` reads a text as the comma-separated list it is, unless it is one with a comma at
its end: that comma is passed over. -/
theorem parsesExactly_iff (value : Bytes) : ParsesExactly value ↔ ¬EndsWithComma value := by
  constructor
  · rintro hexact ⟨names, hnames, hvalue⟩
    obtain ⟨-, hjoined⟩ := (hexact names).1 (parseRoles_eq_some.2 ⟨hnames, .inr hvalue⟩)
    exact intercalate_ne_append_sep hnames.nonempty hnames.nonempty hnames.commaFree
      hnames.commaFree (fun hempty => hnames.named [] hempty rfl) (hjoined.symm.trans hvalue)
  · intro hends names
    rw [parseRoles_eq_some]
    exact and_congr_right fun hnames => or_iff_left fun hvalue => hends ⟨names, hnames, hvalue⟩

theorem trailingComma_accepted : ¬ParsesExactly (bytes "speaker,") := by
  intro hexact
  have hparse : (parseRoles (bytes "speaker,")).map (·.map (·.value)) = some [bytes "speaker"] := by
    decide
  obtain ⟨-, hjoined⟩ := (hexact _).1 hparse
  rw [List.intercalate_singleton] at hjoined
  exact absurd hjoined (by decide)

end VoxTree.Network

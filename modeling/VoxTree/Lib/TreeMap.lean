import Mathlib.Data.List.Perm.Subperm
import Mathlib.Tactic.Common

/-!
# The entries of an ordered map as a list

`toList` lists every entry once. Inserting under a key that is not there adds one entry to the
list, erasing leaves the others, so a count over the entries changes by at most the entry in
question. A list of entries under different keys can be inserted without overwriting any.
-/

namespace TreeMap

open Std

variable {α β : Type*} {cmp : α → α → Ordering} [TransCmp cmp] [LawfulEqCmp cmp]

theorem nodup_toList (m : ExtTreeMap α β cmp) : m.toList.Nodup := by
  refine m.distinct_keys_toList.imp fun {a b} h hab => h ?_
  rw [hab]
  exact ReflCmp.compare_self

theorem nodup_map_fst_toList (m : ExtTreeMap α β cmp) : (m.toList.map Prod.fst).Nodup := by
  refine List.pairwise_map.2 (m.distinct_keys_toList.imp fun {a b} h hab => h ?_)
  rw [hab]
  exact ReflCmp.compare_self

omit [LawfulEqCmp cmp] in
theorem contains_iff {m : ExtTreeMap α β cmp} {k : α} :
    m.contains k = true ↔ ∃ v, m[k]? = some v := by
  rw [ExtTreeMap.contains_eq_isSome_getElem?, Option.isSome_iff_exists]

omit [LawfulEqCmp cmp] in
theorem getElem?_eq_none_iff {m : ExtTreeMap α β cmp} {k : α} :
    m[k]? = none ↔ ¬m.contains k = true := by
  rw [ExtTreeMap.contains_eq_isSome_getElem?, Option.not_isSome_iff_eq_none]

/-- A count over a map with fewer entries is at most the count over the map. -/
theorem countP_toList_le {m m' : ExtTreeMap α β cmp} {p : α × β → Bool}
    (h : ∀ (k : α) (v : β), m'[k]? = some v → m[k]? = some v) :
    m'.toList.countP p ≤ m.toList.countP p := by
  have hsub : m'.toList ⊆ m.toList := by
    rintro ⟨k, v⟩ hkv
    rw [ExtTreeMap.mem_toList_iff_getElem?_eq_some] at hkv ⊢
    exact h k v hkv
  exact (List.subperm_of_subset (nodup_toList m') hsub).countP_le p

/-- Inserting adds at most one to a count. -/
theorem countP_toList_insert_le {m : ExtTreeMap α β cmp} {k : α} {v : β} {p : α × β → Bool} :
    (m.insert k v).toList.countP p ≤ m.toList.countP p + if p (k, v) = true then 1 else 0 := by
  have hsub : (m.insert k v).toList ⊆ (k, v) :: m.toList := by
    rintro ⟨k', v'⟩ h
    rw [ExtTreeMap.mem_toList_iff_getElem?_eq_some, ExtTreeMap.getElem?_insert] at h
    rw [List.mem_cons, ExtTreeMap.mem_toList_iff_getElem?_eq_some]
    split_ifs at h with hk
    · obtain rfl := LawfulEqCmp.eq_of_compare hk
      exact .inl (by rw [Option.some.inj h])
    · exact .inr h
  have hle := (List.subperm_of_subset (nodup_toList _) hsub).countP_le p
  rwa [List.countP_cons] at hle

/-- An entry under a fresh key can be inserted and erased again. -/
theorem erase_insert_of_none {m : ExtTreeMap α β cmp} {k : α} {v : β} (h : m[k]? = none) :
    (m.insert k v).erase k = m := by
  refine ExtTreeMap.ext_getElem? fun k' => ?_
  rw [ExtTreeMap.getElem?_erase, ExtTreeMap.getElem?_insert]
  split_ifs with hk
  · obtain rfl := LawfulEqCmp.eq_of_compare hk
    exact h.symm
  · rfl

/-! ## Inserting a list of entries -/

section InsertAll

variable {γ : Type*} {key : γ → α} {value : γ → β}

/-- Under different keys nothing is overwritten. -/
theorem getElem?_foldl_insert_of_notMem {k : α} : ∀ {l : List γ} {m : ExtTreeMap α β cmp},
    (∀ c ∈ l, key c ≠ k) → (l.foldl (fun m c => m.insert (key c) (value c)) m)[k]? = m[k]?
  | [], _, _ => rfl
  | c :: l, m, h => by
    rw [List.foldl_cons,
      getElem?_foldl_insert_of_notMem fun d hd => h d (List.mem_cons_of_mem c hd),
      ExtTreeMap.getElem?_insert, if_neg]
    rw [LawfulEqCmp.compare_eq_iff_eq]
    exact h c List.mem_cons_self

theorem getElem?_foldl_insert_of_mem {c : γ} : ∀ {l : List γ} {m : ExtTreeMap α β cmp},
    (l.map key).Nodup → c ∈ l →
      (l.foldl (fun m c => m.insert (key c) (value c)) m)[key c]? = some (value c)
  | d :: l, m, h, hc => by
    rw [List.map_cons, List.nodup_cons] at h
    rw [List.foldl_cons]
    rcases List.mem_cons.1 hc with rfl | hc
    · rw [getElem?_foldl_insert_of_notMem fun e he hkey => h.1 (List.mem_map.2 ⟨e, he, hkey⟩),
        ExtTreeMap.getElem?_insert, if_pos ReflCmp.compare_self]
    · exact getElem?_foldl_insert_of_mem h.2 hc

theorem size_foldl_insert : ∀ {l : List γ} {m : ExtTreeMap α β cmp}, (l.map key).Nodup →
    (∀ c ∈ l, key c ∉ m) →
      (l.foldl (fun m c => m.insert (key c) (value c)) m).size = m.size + l.length
  | [], _, _, _ => rfl
  | c :: l, m, h, hm => by
    rw [List.map_cons, List.nodup_cons] at h
    have hfresh : ∀ d ∈ l, key d ∉ m.insert (key c) (value c) := by
      intro d hd hmem
      rw [ExtTreeMap.mem_insert, LawfulEqCmp.compare_eq_iff_eq] at hmem
      rcases hmem with heq | hmem
      · exact h.1 (heq ▸ List.mem_map_of_mem hd)
      · exact hm d (List.mem_cons_of_mem c hd) hmem
    have hnew : m.contains (key c) = false :=
      Bool.eq_false_iff.2 fun h => hm c List.mem_cons_self (ExtTreeMap.mem_iff_contains.2 h)
    rw [List.foldl_cons, size_foldl_insert h.2 hfresh, ExtTreeMap.size_insert, hnew,
      List.length_cons]
    simp only [Bool.false_eq_true, if_false]
    omega

end InsertAll

end TreeMap

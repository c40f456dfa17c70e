import Mathlib.Data.List.Dedup
import Mathlib.Data.String.Basic
import Mathlib.Tactic.NormNum

/-! # `std::map` and first-wins insertion

A `std::map` is an extensional tree map: two maps with the same bindings are
equal, and iteration runs in key order. `ofFirst` is the loop that calls
`try_emplace` for each pair in turn, so the first binding of a key stays. -/
namespace ParseX.Cpp

/-- `std::map<std::string, V>`. -/
abbrev StdMap (V : Type) := Std.ExtTreeMap String V compare

section FirstWins
variable {κ V : Type} [Ord κ] [Std.TransOrd κ] [Std.LawfulEqOrd κ] [DecidableEq κ]

/-- `try_emplace` for each pair of the list, from an empty map. -/
def ofFirst (kvs : List (κ × V)) : Std.ExtTreeMap κ V compare :=
  kvs.foldl (fun m kv => m.insertIfNew kv.1 kv.2) ∅

theorem getElem?_foldl_insertIfNew (kvs : List (κ × V)) (k : κ) :
    ∀ m : Std.ExtTreeMap κ V compare,
      (kvs.foldl (fun m kv => m.insertIfNew kv.1 kv.2) m)[k]? =
        m[k]?.or ((kvs.find? (fun kv => decide (kv.1 = k))).map Prod.snd) := by
  induction kvs with
  | nil => intro m; simp
  | cons kv kvs ih =>
    intro m
    rw [List.foldl_cons, ih, Std.ExtTreeMap.getElem?_insertIfNew]
    by_cases hk : kv.1 = k
    · subst hk
      cases hm : m[kv.1]? with
      | none =>
        have : kv.1 ∉ m := by
          intro h; rw [Std.ExtTreeMap.mem_iff_isSome_getElem?, hm] at h; cases h
        simp [this]
      | some v =>
        have : kv.1 ∈ m := by
          rw [Std.ExtTreeMap.mem_iff_isSome_getElem?, hm]; rfl
        simp [this]
    · have hc : compare kv.1 k ≠ .eq := fun h => hk (Std.LawfulEqOrd.eq_of_compare h)
      simp [hc, hk]

/-- A lookup finds the first pair with the key. -/
theorem getElem?_ofFirst (kvs : List (κ × V)) (k : κ) :
    (ofFirst kvs)[k]? = (kvs.find? (fun kv => decide (kv.1 = k))).map Prod.snd := by
  rw [ofFirst, getElem?_foldl_insertIfNew]
  simp

theorem mem_ofFirst (kvs : List (κ × V)) (k : κ) : k ∈ ofFirst kvs ↔ k ∈ kvs.map Prod.fst := by
  rw [Std.ExtTreeMap.mem_iff_isSome_getElem?, getElem?_ofFirst, Option.isSome_map,
    List.find?_isSome]
  simp

/-- With distinct keys every pair is found. -/
theorem getElem?_ofFirst_of_nodup {kvs : List (κ × V)} (hn : (kvs.map Prod.fst).Nodup) {k : κ}
    {v : V} : (ofFirst kvs)[k]? = some v ↔ (k, v) ∈ kvs := by
  rw [getElem?_ofFirst]
  induction kvs with
  | nil => simp
  | cons kv kvs ih =>
    obtain ⟨k', v'⟩ := kv
    obtain ⟨hk, hrest⟩ := List.nodup_cons.mp hn
    by_cases he : k' = k
    · subst he
      simp only [List.find?_cons, decide_true, Option.map_some, Option.some.injEq,
        List.mem_cons, Prod.mk.injEq, true_and]
      constructor
      · intro h; exact Or.inl h.symm
      · rintro (h | h)
        · exact h.symm
        · exact absurd (List.mem_map.mpr ⟨_, h, rfl⟩) hk
    · have he' : ¬ k = k' := fun h => he h.symm
      simp only [List.find?_cons, he, decide_false, List.mem_cons, Prod.mk.injEq, he', false_and,
        false_or]
      exact ih hrest

/-- Distinct keys leave no trace of the insertion order. -/
theorem ofFirst_perm {kvs kvs' : List (κ × V)} (hp : kvs.Perm kvs')
    (hn : (kvs.map Prod.fst).Nodup) : ofFirst kvs = ofFirst kvs' := by
  apply Std.ExtTreeMap.ext_getElem?
  intro k
  ext v
  rw [getElem?_ofFirst_of_nodup hn,
    getElem?_ofFirst_of_nodup ((hp.map Prod.fst).nodup_iff.mp hn), hp.mem_iff]

omit [Std.LawfulEqOrd κ] [DecidableEq κ] in
/-- Iteration visits the keys in order. -/
theorem keys_sorted (m : Std.ExtTreeMap κ V compare) :
    m.keys.Pairwise (fun a b => compare a b = .lt) := m.ordered_keys

omit [DecidableEq κ] in
theorem keys_nodup (m : Std.ExtTreeMap κ V compare) : m.keys.Nodup :=
  (keys_sorted m).imp fun h he => by subst he; simp at h

omit [DecidableEq κ] in
/-- The keys of a map are determined by membership. -/
theorem keys_congr {W : Type} {m : Std.ExtTreeMap κ V compare} {m' : Std.ExtTreeMap κ W compare}
    (h : ∀ k, k ∈ m ↔ k ∈ m') : m.keys = m'.keys := by
  have hperm : m.keys.Perm m'.keys :=
    (List.perm_ext_iff_of_nodup (keys_nodup m) (keys_nodup m')).mpr fun k => by
      rw [Std.ExtTreeMap.mem_keys, Std.ExtTreeMap.mem_keys, h]
  refine hperm.eq_of_pairwise (fun a b _ _ hab hba => ?_) (keys_sorted m) (keys_sorted m')
  exact absurd (Std.OrientedCmp.gt_of_lt hba) (by rw [hab]; decide)

/-- Every pair has its own binding exactly when the keys are distinct. -/
theorem size_ofFirst_iff (kvs : List (κ × V)) :
    (ofFirst kvs).size = kvs.length ↔ (kvs.map Prod.fst).Nodup := by
  have hperm : (ofFirst kvs).keys.Perm (kvs.map Prod.fst).dedup :=
    (List.perm_ext_iff_of_nodup (keys_nodup _) (List.nodup_dedup _)).mpr fun k => by
      rw [Std.ExtTreeMap.mem_keys, mem_ofFirst, List.mem_dedup]
  rw [← Std.ExtTreeMap.length_keys, hperm.length_eq, ← List.dedup_eq_self]
  constructor
  · intro h
    exact (List.dedup_sublist _).eq_of_length (by rw [h, List.length_map])
  · intro h
    rw [h, List.length_map]

end FirstWins

end ParseX.Cpp

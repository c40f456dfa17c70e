import ParseX.Write.WriteElements

/-! # Stable sorts by a key

A stable sort keeps the items of one key in their order. Its outcome is free of
the input order exactly in what the items of one key share. -/
namespace ParseX

section
variable {T : Type} {key : T → String} {items items' : List T}

theorem stableSort_perm (key : T → String) (items : List T) : (stableSort key items).Perm items :=
  List.perm_insertionSort _ _

@[simp] theorem mem_stableSort {x : T} : x ∈ stableSort key items ↔ x ∈ items :=
  (stableSort_perm key items).mem_iff

@[simp] theorem isEmpty_stableSort : (stableSort key items).isEmpty = items.isEmpty :=
  (stableSort_perm key items).isEmpty_eq

theorem pairwise_stableSort (key : T → String) (items : List T) :
    (stableSort key items).Pairwise fun a b => key a ≤ key b := by
  have : Std.Total fun a b : T => key a ≤ key b := ⟨fun a b => le_total (key a) (key b)⟩
  have : IsTrans T fun a b => key a ≤ key b := ⟨fun a b c => le_trans⟩
  exact List.pairwise_insertionSort _ _

/-- Sorting again changes nothing. -/
theorem stableSort_of_pairwise (h : items.Pairwise fun a b => key a ≤ key b) :
    stableSort key items = items :=
  h.insertionSort_eq

theorem stableSort_stableSort (key : T → String) (items : List T) :
    stableSort key (stableSort key items) = stableSort key items :=
  stableSort_of_pairwise (pairwise_stableSort key items)

/-- A change of the items that leaves the keys alone comes before or after the
sort. -/
theorem map_stableSort {T' : Type} {key' : T' → String} {f : T → T'}
    (h : ∀ x ∈ items, key' (f x) = key x) :
    (stableSort key items).map f = stableSort key' (items.map f) :=
  List.map_insertionSort _ _ _ _ fun a ha b hb => by rw [h a ha, h b hb]

/-- Related items with equal keys are sorted alike. -/
theorem forall₂_stableSort {T' : Type} {key' : T' → String} {R : T → T' → Prop}
    {items' : List T'} (hkey : ∀ x y, R x y → key x = key' y) (h : List.Forall₂ R items items') :
    List.Forall₂ R (stableSort key items) (stableSort key' items') := by
  -- the pairs are sorted by the key of either side
  obtain ⟨pairs, rfl, rfl, hpairs⟩ : ∃ pairs : List (T × T'), items = pairs.map Prod.fst ∧
      items' = pairs.map Prod.snd ∧ ∀ pair ∈ pairs, R pair.1 pair.2 := by
    induction h with
    | nil => exact ⟨[], rfl, rfl, by simp⟩
    | @cons x y _ _ hxy _ ih =>
      obtain ⟨pairs, rfl, rfl, hall⟩ := ih
      exact ⟨(x, y) :: pairs, rfl, rfl, List.forall_mem_cons.mpr ⟨hxy, hall⟩⟩
  rw [← @map_stableSort (T × T') (key ∘ Prod.fst) pairs T key Prod.fst fun _ _ => rfl,
    ← @map_stableSort (T × T') (key ∘ Prod.fst) pairs T' key' Prod.snd fun pair hpair =>
      (hkey _ _ (hpairs pair hpair)).symm, List.forall₂_map_left_iff, List.forall₂_map_right_iff,
    List.forall₂_same]
  exact fun pair hpair => hpairs pair (mem_stableSort.mp hpair)

/-- Related items that are mapped alike. -/
theorem map_eq_of_forall₂ {T T' V : Type} {R : T → T' → Prop} {items : List T} {items' : List T'}
    {f : T → V} {g : T' → V} (h : List.Forall₂ R items items')
    (hfg : ∀ x ∈ items, ∀ y, R x y → f x = g y) : items.map f = items'.map g := by
  induction h with
  | nil => rfl
  | cons hxy _ ih =>
    obtain ⟨hx, hitems⟩ := List.forall_mem_cons.mp hfg
    rw [List.map_cons, List.map_cons, hx _ hxy, ih hitems]

/-- The items of one key keep their order. -/
theorem filter_stableSort (value : String) :
    (stableSort key items).filter (fun x => key x = value) =
      items.filter fun x => key x = value := by
  have hequal : (items.filter fun x => key x = value).Pairwise fun a b => key a ≤ key b := by
    refine List.pairwise_filter.mpr (List.pairwise_of_forall fun a b ha hb => ?_)
    rw [of_decide_eq_true ha, of_decide_eq_true hb]
  have hsub : (items.filter fun x => key x = value).Sublist (stableSort key items) :=
    List.sublist_insertionSort hequal List.filter_sublist
  have hkeep := hsub.filter fun x => decide (key x = value)
  rw [List.filter_filter] at hkeep
  simp only [Bool.and_self] at hkeep
  exact (hkeep.eq_of_length ((stableSort_perm key items).filter _).length_eq.symm).symm

/-- What the items of one key share is sorted alike from any order. -/
theorem stableSort_perm_eq {V : Type} (key : T → String) (value : T → V) (h : items.Perm items')
    (htie : ∀ x ∈ items, ∀ y ∈ items, key x = key y → value x = value y) :
    (stableSort key items).map (fun x => (key x, value x)) =
      (stableSort key items').map fun x => (key x, value x) := by
  have hsorted (items : List T) : (stableSort key items).map (fun x => (key x, value x)) =
      stableSort Prod.fst (items.map fun x => (key x, value x)) := map_stableSort fun _ _ => rfl
  rw [hsorted, hsorted]
  refine List.Perm.eq_of_pairwise (fun a b ha hb hle hge => ?_)
    (pairwise_stableSort Prod.fst _) (pairwise_stableSort Prod.fst _)
    ((stableSort_perm _ _).trans ((h.map _).trans (stableSort_perm _ _).symm))
  obtain ⟨x, hx, rfl⟩ := List.mem_map.mp (mem_stableSort.mp ha)
  obtain ⟨y, hy, rfl⟩ := List.mem_map.mp (mem_stableSort.mp hb)
  have hkeys : key x = key y := le_antisymm hle hge
  exact Prod.ext hkeys (htie x hx y (h.mem_iff.mpr hy) hkeys)

/-- Items with distinct keys are sorted alike from any order. -/
theorem stableSort_perm_eq_of_nodup (h : items.Perm items') (hn : (items.map key).Nodup) :
    stableSort key items = stableSort key items' := by
  have heq := congrArg (List.map Prod.snd) (stableSort_perm_eq key id h fun x hx y hy hkey =>
    List.inj_on_of_nodup_map hn hx hy hkey)
  simpa [Function.comp_def] using heq

end

theorem sortedStrings_perm {names names' : List String} (h : names.Perm names') :
    sortedStrings names = sortedStrings names' := by
  have heq := congrArg (List.map Prod.fst)
    (stableSort_perm_eq id id h fun x _ y _ hkey => hkey)
  simpa [sortedStrings, Function.comp_def] using heq

end ParseX

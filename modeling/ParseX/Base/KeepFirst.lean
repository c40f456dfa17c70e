import Mathlib.Data.List.Induction

/-! # Lists that keep the first of each item

A loop that appends an item to a list, unless the item is one to skip or is
there already, and what a run of it leaves. -/
namespace ParseX.KeepFirst

section
variable {α β : Type*} [DecidableEq α] {keep : α → Prop} [DecidablePred keep]

/-- One turn of the loop. -/
def push (keep : α → Prop) [DecidablePred keep] (list : List α) (item : α) : List α :=
  if keep item ∧ item ∉ list then list ++ [item] else list

theorem push_of_mem {list : List α} {item : α} (h : keep item → item ∈ list) :
    push keep list item = list :=
  if_neg fun hpush => hpush.2 (h hpush.1)

theorem mem_push {list : List α} {item x : α} :
    x ∈ push keep list item ↔ x ∈ list ∨ keep x ∧ x = item := by
  unfold push
  split
  · rename_i h
    simp only [List.mem_append, List.mem_singleton]
    exact or_congr_right ⟨fun hx => ⟨hx ▸ h.1, hx⟩, And.right⟩
  · rename_i h
    refine ⟨Or.inl, Or.rec id ?_⟩
    rintro ⟨hkeep, rfl⟩
    exact not_not.mp fun hmem => h ⟨hkeep, hmem⟩

theorem mem_foldl_push {items list : List α} {x : α} :
    x ∈ items.foldl (push keep) list ↔ x ∈ list ∨ keep x ∧ x ∈ items := by
  induction items generalizing list with
  | nil => simp
  | cons item rest ih => rw [List.foldl_cons, ih, mem_push, List.mem_cons, or_assoc, ← and_or_left]

/-- A run that starts empty leaves the kept items, the first of each. -/
theorem foldl_push_nil (items : List α) :
    items.foldl (push keep) [] = (items.filter keep).eraseDups := by
  induction items using List.reverseRecOn with
  | nil => rfl
  | append_singleton items item ih =>
    rw [List.foldl_append, List.foldl_cons, List.foldl_nil, ih, push, List.filter_append, List.eraseDups_append]
    by_cases hkeep : keep item
    · by_cases hmem : item ∈ items
      · simp [hkeep, hmem, List.removeAll]
      · simp [hkeep, hmem, List.removeAll, List.eraseDups_cons]
    · simp [hkeep, List.removeAll]

/-- Sources that repeat their own item count once. -/
theorem foldl_push_flatMap {sources : List β} {name : β → α} {items : β → List α}
    (h : ∀ source ∈ sources, ∀ item ∈ items source, item = name source) (list : List α) :
    (sources.flatMap items).foldl (push keep) list =
      ((sources.filter fun source => items source ≠ []).map name).foldl (push keep) list := by
  induction sources generalizing list with
  | nil => rfl
  | cons source rest ih =>
    obtain ⟨hsource, hrest⟩ := List.forall_mem_cons.mp h
    rw [List.flatMap_cons, List.foldl_append, ih hrest]
    cases hitems : items source with
    | nil => simp [hitems]
    | cons item more =>
      rw [hitems] at hsource
      obtain ⟨hitem, hmore⟩ := List.forall_mem_cons.mp hsource
      -- the first of them is pushed, the further ones find it there
      have hstay : ∀ list : List α, (keep (name source) → name source ∈ list) →
          more.foldl (push keep) list = list := by
        intro list hlist
        clear hitems
        induction more with
        | nil => rfl
        | cons next more ihm =>
          obtain ⟨hnext, hmore⟩ := List.forall_mem_cons.mp hmore
          rw [List.foldl_cons, hnext, push_of_mem hlist]
          exact ihm (List.forall_mem_cons.mpr ⟨hitem, hmore⟩) hmore
      rw [List.filter_cons_of_pos (by simp [hitems]), List.map_cons, List.foldl_cons,
        List.foldl_cons, hitem, hstay]
      exact fun hkeep => mem_push.mpr (.inr ⟨hkeep, rfl⟩)

/-- Sources more or less change nothing when their items are skipped or there. -/
theorem foldl_push_filter_congr {sources : List β} {name : β → α} {p q : β → Bool} {list : List α}
    (hle : ∀ source ∈ sources, q source = true → p source = true)
    (h : ∀ source ∈ sources, p source = true → keep (name source) →
      name source ∈ list ∨ q source = true) :
    ((sources.filter p).map name).foldl (push keep) list =
      ((sources.filter q).map name).foldl (push keep) list := by
  induction sources generalizing list with
  | nil => rfl
  | cons source rest ih =>
    obtain ⟨hleHead, hleRest⟩ := List.forall_mem_cons.mp hle
    obtain ⟨hhead, hrest⟩ := List.forall_mem_cons.mp h
    have hgrow : ∀ other ∈ rest, p other = true → keep (name other) →
        name other ∈ push keep list (name source) ∨ q other = true := fun other hother hp hkeep =>
      (hrest other hother hp hkeep).imp_left fun hmem => mem_push.mpr (.inl hmem)
    rw [List.filter_cons, List.filter_cons]
    by_cases hq : q source = true
    · rw [if_pos (hleHead hq), if_pos hq]
      exact ih hleRest hgrow
    · rw [if_neg hq]
      split
      · rename_i hp
        rw [List.map_cons, List.foldl_cons,
          push_of_mem fun hkeep => (hhead hp hkeep).resolve_right hq]
        exact ih hleRest hrest
      · exact ih hleRest hrest

end

end ParseX.KeepFirst

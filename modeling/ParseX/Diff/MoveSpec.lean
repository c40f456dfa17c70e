import ParseX.Diff.DiffMoves

/-! # What move detection does to a report

`detectMovesForType` works by saved indices. This file gives its effect entry
by entry (`movedEntry`): which group an entry belongs to and how many members
the group has decide what becomes of it. -/
namespace ParseX
open Cpp

/-- The only elements of two lists. -/
def singlePair {α β : Type} : List α → List β → Option (α × β)
  | [a], [b] => some (a, b)
  | _, _ => none

/-- The diagnostic of a key with these removed and added paths: none when a
side is empty or when the paths are a pair. -/
def ambiguityOf (elementTypeName key : String) :
    List String → List String → Option DiffDiagnostic
  | [], _ => none
  | _, [] => none
  | [_], [_] => none
  | removed, added =>
    some ⟨ambiguityMessage elementTypeName key removed added, elementTypeName⟩

theorem singlePair_eq_some {α β : Type} {as : List α} {bs : List β} {pair : α × β} :
    singlePair as bs = some pair ↔ as = [pair.1] ∧ bs = [pair.2] := by
  rcases as with _ | ⟨a, _ | ⟨a', as⟩⟩ <;> rcases bs with _ | ⟨b, _ | ⟨b', bs⟩⟩ <;>
    simp [singlePair, Prod.ext_iff, eq_comm]

theorem singlePair_map {α β γ δ : Type} (f : α → γ) (g : β → δ) (as : List α) (bs : List β) :
    singlePair (as.map f) (bs.map g) = (singlePair as bs).map fun pair => (f pair.1, g pair.2) := by
  rcases as with _ | ⟨a, _ | ⟨a', as⟩⟩ <;> rcases bs with _ | ⟨b, _ | ⟨b', bs⟩⟩ <;> rfl

section
variable {T : Type} [SecondaryKey T] (oldIndex newIndex : StdMap T) (elementTypeName : String)

theorem addedKey_of_removedKey {oldIndex newIndex : StdMap T} {elementTypeName key : String}
    {entry : DiffEntry} (h : removedKey oldIndex elementTypeName entry = some key) :
    addedKey newIndex elementTypeName entry = none := by
  unfold removedKey at h
  split at h
  · rename_i hc
    simp [addedKey, hc.2]
  · cases h

theorem kind_of_removedKey {oldIndex : StdMap T} {elementTypeName key : String} {entry : DiffEntry}
    (h : removedKey oldIndex elementTypeName entry = some key) :
    entry.elementType = elementTypeName ∧ entry.kind = .removed := by
  unfold removedKey at h
  split at h
  · assumption
  · cases h

theorem kind_of_addedKey {newIndex : StdMap T} {elementTypeName key : String} {entry : DiffEntry}
    (h : addedKey newIndex elementTypeName entry = some key) :
    entry.elementType = elementTypeName ∧ entry.kind = .added := by
  unfold addedKey at h
  split at h
  · assumption
  · cases h

/-! ## The groups -/

/-- The removed entries of a key, with their positions. -/
def removedAt (items : List (DiffEntry × Nat)) (key : String) : List (DiffEntry × Nat) :=
  items.filter fun item => removedKey oldIndex elementTypeName item.1 == some key

/-- The added entries of a key, with their positions. -/
def addedAt (items : List (DiffEntry × Nat)) (key : String) : List (DiffEntry × Nat) :=
  items.filter fun item => addedKey newIndex elementTypeName item.1 == some key

theorem foldl_groupEntry_getD (items : List (DiffEntry × Nat)) (key : String) :
    ∀ groups : StdMap MoveGroup,
      (items.foldl (groupEntry oldIndex newIndex elementTypeName) groups).getD key {} =
        ⟨(groups.getD key {}).removedIdx ++
            (removedAt oldIndex elementTypeName items key).map Prod.snd,
          (groups.getD key {}).addedIdx ++
            (addedAt newIndex elementTypeName items key).map Prod.snd⟩ := by
  induction items with
  | nil => intro groups; simp [removedAt, addedAt]
  | cons item items ih =>
    intro groups
    rw [List.foldl_cons, ih]
    cases hr : removedKey oldIndex elementTypeName item.1 with
    | some k =>
      have ha : addedKey newIndex elementTypeName item.1 = none := addedKey_of_removedKey hr
      by_cases hk : k = key
      · subst hk
        simp [groupEntry, hr, ha, removedAt, addedAt]
      · simp [groupEntry, hr, ha, removedAt, addedAt, Std.ExtTreeMap.getD_insert, hk]
    | none =>
      cases ha : addedKey newIndex elementTypeName item.1 with
      | some k =>
        by_cases hk : k = key
        · subst hk
          simp [groupEntry, hr, ha, removedAt, addedAt]
        · simp [groupEntry, hr, ha, removedAt, addedAt, Std.ExtTreeMap.getD_insert, hk]
      | none => simp [groupEntry, hr, ha, removedAt, addedAt]

theorem foldl_groupEntry_mem (items : List (DiffEntry × Nat)) (key : String) :
    ∀ groups : StdMap MoveGroup,
      key ∈ items.foldl (groupEntry oldIndex newIndex elementTypeName) groups ↔
        key ∈ groups ∨ ∃ item ∈ items, removedKey oldIndex elementTypeName item.1 = some key ∨
          addedKey newIndex elementTypeName item.1 = some key := by
  induction items with
  | nil => intro groups; simp
  | cons item items ih =>
    intro groups
    rw [List.foldl_cons, ih]
    cases hr : removedKey oldIndex elementTypeName item.1 with
    | some k =>
      have ha : addedKey newIndex elementTypeName item.1 = none := addedKey_of_removedKey hr
      simp only [groupEntry, hr, Std.ExtTreeMap.mem_insert, List.exists_mem_cons_iff, ha,
        Option.some.injEq, Std.LawfulEqOrd.compare_eq_iff_eq]
      simp [or_assoc, or_left_comm]
    | none =>
      cases ha : addedKey newIndex elementTypeName item.1 with
      | some k =>
        simp only [groupEntry, hr, ha, Std.ExtTreeMap.mem_insert, List.exists_mem_cons_iff,
          Option.some.injEq, Std.LawfulEqOrd.compare_eq_iff_eq]
        simp [or_assoc, or_left_comm]
      | none => simp [groupEntry, hr, ha]

/-- A key has a group exactly when some entry has the key. -/
theorem mem_moveGroups {entries : List DiffEntry} {key : String} :
    key ∈ moveGroups oldIndex newIndex elementTypeName entries ↔
      ∃ entry ∈ entries, removedKey oldIndex elementTypeName entry = some key ∨
        addedKey newIndex elementTypeName entry = some key := by
  rw [moveGroups, foldl_groupEntry_mem]
  constructor
  · rintro (h | ⟨item, hi, h⟩)
    · simp at h
    · exact ⟨item.1, List.fst_mem_of_mem_zipIdx hi, h⟩
  · rintro ⟨entry, he, h⟩
    obtain ⟨idx, hidx⟩ := List.mem_iff_getElem?.mp he
    exact Or.inr ⟨(entry, idx), List.mem_zipIdx_iff_getElem?.mpr hidx, h⟩

/-- The group of a key holds the positions of its entries. -/
theorem mem_toList_moveGroups {entries : List DiffEntry} {item : String × MoveGroup}
    (h : item ∈ (moveGroups oldIndex newIndex elementTypeName entries).toList) :
    item.2 = ⟨(removedAt oldIndex elementTypeName entries.zipIdx item.1).map Prod.snd,
      (addedAt newIndex elementTypeName entries.zipIdx item.1).map Prod.snd⟩ := by
  obtain ⟨key, group⟩ := item
  have hg := Std.ExtTreeMap.mem_toList_iff_getElem?_eq_some.mp h
  have hd := foldl_groupEntry_getD oldIndex newIndex elementTypeName entries.zipIdx key ∅
  rw [← moveGroups, Std.ExtTreeMap.getD_eq_getD_getElem?, hg] at hd
  simpa using hd

/-! ## The effect by entry -/

def removedOf (entries : List DiffEntry) (key : String) : List DiffEntry :=
  entries.filter fun entry => removedKey oldIndex elementTypeName entry == some key

def addedOf (entries : List DiffEntry) (key : String) : List DiffEntry :=
  entries.filter fun entry => addedKey newIndex elementTypeName entry == some key

/-- The removed and the added entry of a key that has one of each. -/
def movePair (entries : List DiffEntry) (key : String) : Option (DiffEntry × DiffEntry) :=
  singlePair (removedOf oldIndex elementTypeName entries key)
    (addedOf newIndex elementTypeName entries key)

/-- The diagnostic of a key with entries on both sides that are not a pair. -/
def ambiguity (entries : List DiffEntry) (key : String) : Option DiffDiagnostic :=
  ambiguityOf elementTypeName key
    ((removedOf oldIndex elementTypeName entries key).map DiffEntry.oldPath)
    ((addedOf newIndex elementTypeName entries key).map DiffEntry.newPath)

/-- A removed entry whose key is a pair among the keys becomes a moved one. -/
def rewriteRemoved (entries : List DiffEntry) (keys : List String) (entry : DiffEntry) :
    DiffEntry :=
  match (removedKey oldIndex elementTypeName entry).bind fun key =>
      if key ∈ keys then movePair oldIndex newIndex elementTypeName entries key else none with
  | some pair => { entry with kind := .moved, newPath := pair.2.newPath }
  | none => entry

/-- The added entry of a pair goes away. -/
def isErased (entries : List DiffEntry) (entry : DiffEntry) : Bool :=
  ((addedKey newIndex elementTypeName entry).bind
    (movePair oldIndex newIndex elementTypeName entries)).isSome

theorem removedAt_map_fst (entries : List DiffEntry) (key : String) :
    (removedAt oldIndex elementTypeName entries.zipIdx key).map Prod.fst =
      removedOf oldIndex elementTypeName entries key := by
  rw [removedAt, removedOf]
  conv_rhs => rw [← List.zipIdx_map_fst 0 entries, List.filter_map]
  rfl

theorem addedAt_map_fst (entries : List DiffEntry) (key : String) :
    (addedAt newIndex elementTypeName entries.zipIdx key).map Prod.fst =
      addedOf newIndex elementTypeName entries key := by
  rw [addedAt, addedOf]
  conv_rhs => rw [← List.zipIdx_map_fst 0 entries, List.filter_map]
  rfl

theorem mem_removedAt {entries : List DiffEntry} {key : String} {item : DiffEntry × Nat} :
    item ∈ removedAt oldIndex elementTypeName entries.zipIdx key ↔
      entries[item.2]? = some item.1 ∧
        removedKey oldIndex elementTypeName item.1 = some key := by
  simp [removedAt, List.mem_zipIdx_iff_getElem?]

theorem mem_addedAt {entries : List DiffEntry} {key : String} {item : DiffEntry × Nat} :
    item ∈ addedAt newIndex elementTypeName entries.zipIdx key ↔
      entries[item.2]? = some item.1 ∧ addedKey newIndex elementTypeName item.1 = some key := by
  simp [addedAt, List.mem_zipIdx_iff_getElem?]

@[simp] theorem rewriteRemoved_nil (entries : List DiffEntry) (entry : DiffEntry) :
    rewriteRemoved oldIndex newIndex elementTypeName entries [] entry = entry := by
  cases h : removedKey oldIndex elementTypeName entry <;> simp [rewriteRemoved, h]

@[simp] theorem rewriteRemoved_oldPath (entries : List DiffEntry) (keys : List String)
    (entry : DiffEntry) :
    (rewriteRemoved oldIndex newIndex elementTypeName entries keys entry).oldPath =
      entry.oldPath := by
  unfold rewriteRemoved
  split <;> rfl

/-- Only removed entries are rewritten. -/
theorem rewriteRemoved_of_addedKey {entries : List DiffEntry} {keys : List String}
    {entry : DiffEntry} {key : String}
    (h : addedKey newIndex elementTypeName entry = some key) :
    rewriteRemoved oldIndex newIndex elementTypeName entries keys entry = entry := by
  have hr : removedKey oldIndex elementTypeName entry = none := by
    cases hr : removedKey oldIndex elementTypeName entry with
    | none => rfl
    | some k => rw [addedKey_of_removedKey hr] at h; cases h
  simp [rewriteRemoved, hr]

/-- A key that is no pair changes nothing. -/
theorem rewriteRemoved_append_of_none {entries : List DiffEntry} {keys : List String}
    {key : String} (h : movePair oldIndex newIndex elementTypeName entries key = none)
    (entry : DiffEntry) :
    rewriteRemoved oldIndex newIndex elementTypeName entries (keys ++ [key]) entry =
      rewriteRemoved oldIndex newIndex elementTypeName entries keys entry := by
  cases hr : removedKey oldIndex elementTypeName entry with
  | none => simp [rewriteRemoved, hr]
  | some k =>
    by_cases hk : k = key
    · subst hk
      simp [rewriteRemoved, hr, h]
    · simp [rewriteRemoved, hr, hk]

/-- Rewriting at the position of a pair's removed entry extends the rewritten
keys by the key of the pair. -/
theorem modify_rewriteRemoved {entries : List DiffEntry} {keys : List String} {key : String}
    {removed added : DiffEntry × Nat}
    (hr : removedAt oldIndex elementTypeName entries.zipIdx key = [removed])
    (ha : addedAt newIndex elementTypeName entries.zipIdx key = [added]) :
    ((entries.map (rewriteRemoved oldIndex newIndex elementTypeName entries keys)).modify removed.2
        fun e => { e with kind := .moved, newPath := added.1.newPath }) =
      entries.map (rewriteRemoved oldIndex newIndex elementTypeName entries (keys ++ [key])) := by
  have hpair : movePair oldIndex newIndex elementTypeName entries key =
      some (removed.1, added.1) := by
    simp [movePair, ← removedAt_map_fst, ← addedAt_map_fst, hr, ha, singlePair]
  have hmem : entries[removed.2]? = some removed.1 ∧
      removedKey oldIndex elementTypeName removed.1 = some key :=
    (mem_removedAt oldIndex elementTypeName).mp (hr ▸ List.mem_singleton.mpr rfl)
  apply List.ext_getElem?
  intro idx
  rw [List.getElem?_modify, List.getElem?_map, List.getElem?_map]
  cases he : entries[idx]? with
  | none => rfl
  | some e =>
    by_cases hidx : removed.2 = idx
    · subst hidx
      obtain rfl : removed.1 = e := Option.some.inj (hmem.1.symm.trans he)
      by_cases hk : key ∈ keys <;> simp [rewriteRemoved, hmem.2, hpair, hk]
    · have hne : removedKey oldIndex elementTypeName e ≠ some key := by
        intro hk
        have : (e, idx) ∈ removedAt oldIndex elementTypeName entries.zipIdx key :=
          (mem_removedAt oldIndex elementTypeName).mpr ⟨he, hk⟩
        rw [hr, List.mem_singleton] at this
        exact hidx (by rw [← this])
      cases hk : removedKey oldIndex elementTypeName e with
      | none => simp [rewriteRemoved, hk, hidx]
      | some k =>
        have : k ≠ key := fun h => hne (h ▸ hk)
        simp [rewriteRemoved, hk, hidx, this]

/-- The position a group puts on the erase list. -/
def erasedIdx (group : MoveGroup) : Option Nat :=
  match group.removedIdx, group.addedIdx with
  | [_], [added] => some added
  | _, _ => none

/-- Removed entries keep their old path while the groups are resolved. -/
theorem removedPaths_read (entries : List DiffEntry) (keys : List String) (key : String) :
    ((removedAt oldIndex elementTypeName entries.zipIdx key).map Prod.snd).map (fun idx =>
        ((entries.map (rewriteRemoved oldIndex newIndex elementTypeName entries keys)).getD idx
          {}).oldPath) =
      (removedOf oldIndex elementTypeName entries key).map DiffEntry.oldPath := by
  rw [← removedAt_map_fst, List.map_map, List.map_map]
  apply List.map_congr_left
  intro item hitem
  have hget := ((mem_removedAt oldIndex elementTypeName).mp hitem).1
  simp [hget]

/-- Added entries keep their new path while the groups are resolved. -/
theorem addedPath_read {entries : List DiffEntry} (keys : List String) {key : String}
    {item : DiffEntry × Nat} (h : item ∈ addedAt newIndex elementTypeName entries.zipIdx key) :
    ((entries.map (rewriteRemoved oldIndex newIndex elementTypeName entries keys)).getD item.2
      {}).newPath = item.1.newPath := by
  obtain ⟨hget, hkey⟩ := (mem_addedAt newIndex elementTypeName).mp h
  simp [hget, rewriteRemoved_of_addedKey _ _ _ hkey]

theorem addedPaths_read (entries : List DiffEntry) (keys : List String) (key : String) :
    ((addedAt newIndex elementTypeName entries.zipIdx key).map Prod.snd).map (fun idx =>
        ((entries.map (rewriteRemoved oldIndex newIndex elementTypeName entries keys)).getD idx
          {}).newPath) =
      (addedOf newIndex elementTypeName entries key).map DiffEntry.newPath := by
  rw [← addedAt_map_fst, List.map_map, List.map_map]
  exact List.map_congr_left fun item hitem => addedPath_read _ _ _ _ hitem

/-- One step of the loop over the groups. -/
theorem resolveGroup_step (entries : List DiffEntry) (keys : List String) (key : String)
    (diagnostics : List DiffDiagnostic) (addedToErase : List Nat) :
    let group : MoveGroup :=
      ⟨(removedAt oldIndex elementTypeName entries.zipIdx key).map Prod.snd,
        (addedAt newIndex elementTypeName entries.zipIdx key).map Prod.snd⟩
    resolveGroup elementTypeName
        ⟨entries.map (rewriteRemoved oldIndex newIndex elementTypeName entries keys),
          diagnostics, addedToErase⟩ (key, group) =
      ⟨entries.map (rewriteRemoved oldIndex newIndex elementTypeName entries (keys ++ [key])),
        diagnostics ++ (ambiguity oldIndex newIndex elementTypeName entries key).toList,
        addedToErase ++ (erasedIdx group).toList⟩ := by
  have hRead := removedPaths_read oldIndex newIndex elementTypeName entries keys key
  have hARead := addedPaths_read oldIndex newIndex elementTypeName entries keys key
  have hRf := removedAt_map_fst oldIndex elementTypeName entries key
  have hAf := addedAt_map_fst newIndex elementTypeName entries key
  have hstay : movePair oldIndex newIndex elementTypeName entries key = none →
      entries.map (rewriteRemoved oldIndex newIndex elementTypeName entries (keys ++ [key])) =
        entries.map (rewriteRemoved oldIndex newIndex elementTypeName entries keys) := fun h =>
    List.map_congr_left fun e _ => rewriteRemoved_append_of_none _ _ _ h e
  cases hR : removedAt oldIndex elementTypeName entries.zipIdx key with
  | nil =>
    have hRnil : removedOf oldIndex elementTypeName entries key = [] := by rw [← hRf, hR]; rfl
    rw [hstay (by simp [movePair, hRnil, singlePair])]
    simp [resolveGroup, erasedIdx, ambiguity, ambiguityOf, hRnil]
  | cons removed R =>
    rw [hR, List.map_cons] at hRf
    cases hA : addedAt newIndex elementTypeName entries.zipIdx key with
    | nil =>
      have hAnil : addedOf newIndex elementTypeName entries key = [] := by rw [← hAf, hA]; rfl
      rw [hstay (by simp [movePair, hAnil, singlePair])]
      simp [resolveGroup, erasedIdx, ambiguity, ambiguityOf, hAnil, ← hRf]
    | cons added A =>
      rw [hA, List.map_cons] at hAf
      simp only [hR, hA, ← hRf, ← hAf, List.map_cons] at hRead hARead
      rcases R with _ | ⟨removed', R⟩ <;> rcases A with _ | ⟨added', A⟩
      · have hmod := @modify_rewriteRemoved _ _ oldIndex newIndex elementTypeName _ keys _ _ _
          hR hA
        simp only [List.map_cons, List.map_nil, resolveGroup, (List.cons.inj hARead).1, hmod]
        simp [erasedIdx, ambiguity, ambiguityOf, ← hRf, ← hAf]
      all_goals
        rw [hstay (by simp [movePair, ← hRf, ← hAf, singlePair])]
        simp only [List.map_cons, List.map_nil, resolveGroup] at hRead hARead ⊢
        rw [hRead, hARead]
        simp [erasedIdx, ambiguity, ambiguityOf, ← hRf, ← hAf]

theorem foldl_resolveGroup (report : DiffReport) (items : List (String × MoveGroup)) :
    (∀ item ∈ items, item.2 =
      ⟨(removedAt oldIndex elementTypeName report.entries.zipIdx item.1).map Prod.snd,
        (addedAt newIndex elementTypeName report.entries.zipIdx item.1).map Prod.snd⟩) →
    items.foldl (resolveGroup elementTypeName)
        { entries := report.entries, diagnostics := report.diagnostics } =
      { entries := report.entries.map (rewriteRemoved oldIndex newIndex elementTypeName
          report.entries (items.map Prod.fst))
        diagnostics := report.diagnostics ++
          (items.map Prod.fst).filterMap
            (ambiguity oldIndex newIndex elementTypeName report.entries)
        addedToErase := items.filterMap fun item => erasedIdx item.2 } := by
  -- the groups resolved so far are a prefix of the list
  induction items using List.reverseRecOn with
  | nil =>
    intro _
    simp [List.map_id'' (rewriteRemoved_nil oldIndex newIndex elementTypeName report.entries)]
  | append_singleton items item ih =>
    intro hitems
    rw [List.foldl_append, ih fun it hit => hitems it (List.mem_append_left _ hit)]
    obtain ⟨key, group⟩ := item
    have hgroup := hitems (key, group) (by simp)
    simp only at hgroup
    subst hgroup
    rw [List.foldl_cons, List.foldl_nil, resolveGroup_step]
    simp only [List.map_append, List.map_cons, List.map_nil, List.filterMap_append,
      List.append_assoc, MoveState.mk.injEq, true_and, List.append_cancel_left_eq]
    constructor
    · cases h : ambiguity oldIndex newIndex elementTypeName report.entries key <;> simp [h]
    · cases h : erasedIdx _ <;> simp [h]

/-! ## The erase loop -/

/-- The erase loop keeps the entries whose position is not listed. -/
theorem eraseLoop_eq (entries : List DiffEntry) :
    ∀ (erase : List Nat) (idx : Nat), erase.Pairwise (· < ·) → (∀ x ∈ erase, idx ≤ x) →
      eraseLoop entries erase idx =
        ((entries.zipIdx idx).filter fun item => decide (item.2 ∉ erase)).map Prod.fst := by
  induction entries with
  | nil => intro erase idx _ _; cases erase <;> rfl
  | cons entry entries ih =>
    intro erase idx hsorted hle
    cases erase with
    | nil =>
      rw [eraseLoop, ih [] (idx + 1) List.Pairwise.nil (by simp)]
      simp [List.zipIdx_cons]
    | cons x rest =>
      obtain ⟨hx, hrest⟩ := List.pairwise_cons.mp hsorted
      by_cases he : x = idx
      · subst he
        have hafter : ∀ y ∈ rest, x + 1 ≤ y := fun y hy => hx y hy
        simp only [eraseLoop, if_true, ih rest (x + 1) hrest hafter, List.zipIdx_cons]
        rw [List.filter_cons_of_neg (by simp)]
        congr 1
        apply List.filter_congr
        rintro ⟨e, i⟩ hi
        have : x + 1 ≤ i := List.le_snd_of_mem_zipIdx hi
        have : i ≠ x := by omega
        simp [this]
      · have hlt : ∀ y ∈ x :: rest, idx + 1 ≤ y := by
          intro y hy
          rcases List.mem_cons.mp hy with rfl | hy
          · have := hle y (by simp); omega
          · have := hle x (by simp); have := hx y hy; omega
        simp only [eraseLoop, if_neg he, ih (x :: rest) (idx + 1) hsorted hlt, List.zipIdx_cons]
        rw [List.filter_cons_of_pos]
        · rfl
        · have : idx ∉ x :: rest := fun h => by have := hlt idx h; omega
          simpa using this

section
variable (report : DiffReport)

/-- The positions erased after all groups. -/
def erasedPositions : List Nat :=
  (moveGroups oldIndex newIndex elementTypeName report.entries).toList.filterMap fun item =>
    erasedIdx item.2

theorem erasedIdx_moveGroup {item : String × MoveGroup} {idx : Nat}
    (hi : item ∈ (moveGroups oldIndex newIndex elementTypeName report.entries).toList)
    (h : erasedIdx item.2 = some idx) :
    ∃ removed added, removedOf oldIndex elementTypeName report.entries item.1 = [removed] ∧
      addedAt newIndex elementTypeName report.entries.zipIdx item.1 = [(added, idx)] := by
  rw [mem_toList_moveGroups _ _ _ hi, erasedIdx] at h
  rw [← removedAt_map_fst]
  split at h
  · rename_i _ _ r a hr ha
    obtain ⟨removed, hr', -⟩ := List.map_eq_singleton_iff.mp hr
    obtain ⟨added, ha', hidx⟩ := List.map_eq_singleton_iff.mp ha
    rw [hr', ha']
    refine ⟨removed.1, added.1, rfl, ?_⟩
    rw [← Option.some.inj h, ← hidx]
  · cases h

theorem mem_erasedPositions {entry : DiffEntry} {idx : Nat}
    (hget : report.entries[idx]? = some entry) :
    idx ∈ erasedPositions oldIndex newIndex elementTypeName report ↔
      isErased oldIndex newIndex elementTypeName report.entries entry = true := by
  constructor
  · intro h
    obtain ⟨item, hi, hidx⟩ := List.mem_filterMap.mp h
    obtain ⟨removed, added, hR, hA⟩ := erasedIdx_moveGroup _ _ _ _ hi hidx
    have hmem : report.entries[idx]? = some added ∧
        addedKey newIndex elementTypeName added = some item.1 :=
      (mem_addedAt newIndex elementTypeName).mp (hA ▸ List.mem_singleton.mpr rfl)
    obtain rfl : added = entry := Option.some.inj (hmem.1.symm.trans hget)
    simp [isErased, hmem.2, movePair, hR, ← addedAt_map_fst, hA, singlePair]
  · intro h
    cases hk : addedKey newIndex elementTypeName entry with
    | none => simp [isErased, hk] at h
    | some key =>
      simp only [isErased, hk, Option.bind_some, movePair] at h
      obtain ⟨pair, hpair⟩ := Option.isSome_iff_exists.mp h
      obtain ⟨hR, hadded⟩ := singlePair_eq_some.mp hpair
      have hA : (entry, idx) ∈ addedAt newIndex elementTypeName report.entries.zipIdx key :=
        (mem_addedAt newIndex elementTypeName).mpr ⟨hget, hk⟩
      have hkey : key ∈ moveGroups oldIndex newIndex elementTypeName report.entries :=
        (mem_moveGroups _ _ _).mpr ⟨entry, List.mem_of_getElem? hget, Or.inr hk⟩
      obtain ⟨group, hgroup⟩ := Option.isSome_iff_exists.mp
        (Std.ExtTreeMap.mem_iff_isSome_getElem?.mp hkey)
      have hi := Std.ExtTreeMap.mem_toList_iff_getElem?_eq_some.mpr hgroup
      refine List.mem_filterMap.mpr ⟨(key, group), hi, ?_⟩
      rw [mem_toList_moveGroups _ _ _ hi, erasedIdx]
      rw [← removedAt_map_fst] at hR
      rw [← addedAt_map_fst] at hadded
      obtain ⟨item, hA', -⟩ := List.map_eq_singleton_iff.mp hadded
      obtain ⟨item', hR', -⟩ := List.map_eq_singleton_iff.mp hR
      rw [hA', List.mem_singleton] at hA
      simp [hR', hA', ← hA]

theorem erasedPositions_nodup :
    (erasedPositions oldIndex newIndex elementTypeName report).Nodup := by
  rw [erasedPositions, List.Nodup, List.pairwise_filterMap]
  have hkeys := (moveGroups oldIndex newIndex elementTypeName report.entries).distinct_keys_toList
  refine hkeys.imp_of_mem ?_
  rintro item item' hi hi' hne idx hidx idx' hidx' rfl
  obtain ⟨-, added, -, hA⟩ := erasedIdx_moveGroup _ _ _ _ hi hidx
  obtain ⟨-, added', -, hA'⟩ := erasedIdx_moveGroup _ _ _ _ hi' hidx'
  have member {key : String} {added : DiffEntry} {pos : Nat}
      (hA : addedAt newIndex elementTypeName report.entries.zipIdx key = [(added, pos)]) :
      report.entries[pos]? = some added ∧ addedKey newIndex elementTypeName added = some key :=
    (mem_addedAt newIndex elementTypeName).mp (hA ▸ List.mem_singleton.mpr rfl)
  obtain ⟨hget, hkey⟩ := member hA
  obtain ⟨hget', hkey'⟩ := member hA'
  rw [hget] at hget'
  obtain rfl := Option.some.inj hget'
  rw [hkey] at hkey'
  exact hne (by simp [Option.some.inj hkey'])

/-- What move detection makes of one entry. -/
def movedEntry (entries : List DiffEntry) (entry : DiffEntry) : Option DiffEntry :=
  match (removedKey oldIndex elementTypeName entry).bind
      (movePair oldIndex newIndex elementTypeName entries) with
  | some pair => some { entry with kind := .moved, newPath := pair.2.newPath }
  | none => if isErased oldIndex newIndex elementTypeName entries entry then none else some entry

/-- Resolving all groups rewrites every removed entry whose key is a pair. -/
theorem movedEntry_eq {entry : DiffEntry} (h : entry ∈ report.entries) :
    movedEntry oldIndex newIndex elementTypeName report.entries entry =
      if isErased oldIndex newIndex elementTypeName report.entries entry then none
      else some (rewriteRemoved oldIndex newIndex elementTypeName report.entries
        (moveGroups oldIndex newIndex elementTypeName report.entries).keys entry) := by
  cases hk : removedKey oldIndex elementTypeName entry with
  | none => simp [movedEntry, rewriteRemoved, hk]
  | some key =>
    have hmem : key ∈ (moveGroups oldIndex newIndex elementTypeName report.entries).keys :=
      Std.ExtTreeMap.mem_keys.mpr ((mem_moveGroups _ _ _).mpr ⟨entry, h, Or.inl hk⟩)
    have he : isErased oldIndex newIndex elementTypeName report.entries entry = false := by
      simp [isErased, addedKey_of_removedKey hk]
    simp only [movedEntry, rewriteRemoved, hk, Option.bind_some, hmem, if_true, he]
    cases movePair oldIndex newIndex elementTypeName report.entries key <;> simp

theorem eraseLoop_erasedPositions (entries : List DiffEntry) (erase : List Nat)
    (hn : erase.Nodup) :
    (if erase.isEmpty then entries else eraseLoop entries (erase.insertionSort (· ≤ ·)) 0) =
      (entries.zipIdx.filter fun item => decide (item.2 ∉ erase)).map Prod.fst := by
  have hsorted : (erase.insertionSort (· ≤ ·)).Pairwise (· < ·) := by
    have hle := List.pairwise_insertionSort (· ≤ ·) erase
    have hne : (erase.insertionSort (· ≤ ·)).Nodup :=
      (List.perm_insertionSort _ _).nodup_iff.mpr hn
    exact (hle.and hne).imp fun h => lt_of_le_of_ne h.1 h.2
  split
  · rename_i h
    simp [List.isEmpty_iff.mp h]
  · rw [eraseLoop_eq _ _ _ hsorted fun _ _ => Nat.zero_le _]
    simp only [(List.perm_insertionSort _ _).mem_iff]

/-- Move detection acts entry by entry and adds one diagnostic for each
ambiguous key, in key order. -/
theorem detectMovesForType_eq :
    detectMovesForType oldIndex newIndex elementTypeName report =
      ⟨report.entries.filterMap (movedEntry oldIndex newIndex elementTypeName report.entries),
        report.diagnostics ++
          (moveGroups oldIndex newIndex elementTypeName report.entries).keys.filterMap
            (ambiguity oldIndex newIndex elementTypeName report.entries)⟩ := by
  have hn := erasedPositions_nodup oldIndex newIndex elementTypeName report
  have herased {entry : DiffEntry} {idx : Nat} (hget : report.entries[idx]? = some entry) :=
    mem_erasedPositions oldIndex newIndex elementTypeName report hget
  simp only [erasedPositions] at hn herased
  simp only [detectMovesForType, foldl_resolveGroup oldIndex newIndex elementTypeName report _
    fun item hi => mem_toList_moveGroups _ _ _ hi, Std.ExtTreeMap.map_fst_toList_eq_keys]
  rw [eraseLoop_erasedPositions _ _ hn, List.zipIdx_map, List.filter_map, List.map_map]
  congr 1
  conv_rhs => rw [← List.zipIdx_map_fst 0 report.entries, List.filterMap_map]
  rw [← List.filterMap_eq_map, List.filterMap_filter]
  apply List.filterMap_congr
  rintro ⟨entry, idx⟩ hitem
  have hget := List.mem_zipIdx_iff_getElem?.mp hitem
  simp only [List.zipIdx_map_fst, Function.comp_apply,
    movedEntry_eq _ _ _ _ (List.mem_of_getElem? hget), Prod.map_apply, id_eq, herased hget]
  cases isErased oldIndex newIndex elementTypeName report.entries entry <;> rfl

end

end

end ParseX

import Mathlib.Data.List.Perm.Basic
import ParseX.Diff.TypePass

/-! # Mirror symmetry

Comparing two projects the other way round exchanges removed and added
entries and the two sides of everything else. -/
namespace ParseX
open Cpp

def DiffKind.mirror : DiffKind → DiffKind
  | .added => .removed
  | .removed => .added
  | .moved => .moved
  | .modified => .modified

def FieldDiff.mirror (d : FieldDiff) : FieldDiff := ⟨d.fieldName, d.newValue, d.oldValue⟩

/-- The second entry is the first seen from the other side. -/
structure MirrorEntry (first second : DiffEntry) : Prop where
  kind : second.kind = first.kind.mirror
  elementType : second.elementType = first.elementType
  oldPath : second.oldPath = first.newPath
  newPath : second.newPath = first.oldPath
  fieldDiffs : second.fieldDiffs.Perm (first.fieldDiffs.map FieldDiff.mirror)

/-! ## Field differences -/

/-- A comparison reports the same from the other side. -/
def MirrorCompare {T : Type} (compare : T → T → List FieldDiff) : Prop :=
  ∀ a b, (compare b a).Perm ((compare a b).map FieldDiff.mirror)

theorem diffStruct_mirror {T : Type} [DiffStruct T] (a b : T) :
    diffStruct b a = (diffStruct a b).map FieldDiff.mirror := by
  rw [diffStruct, diffStruct, List.map_filterMap]
  apply List.filterMap_congr
  intro field _
  by_cases h : field.2 a = field.2 b
  · simp [diffOne, h]
  · simp [diffOne, h, Ne.symm h, FieldDiff.mirror]

theorem eraseFields_mirror (names : List String) (diffs : List FieldDiff) :
    eraseFields names (diffs.map FieldDiff.mirror) =
      (eraseFields names diffs).map FieldDiff.mirror := by
  rw [eraseFields, List.filter_map]
  rfl

theorem eraseFields_perm {names : List String} {diffs diffs' : List FieldDiff}
    (h : diffs.Perm diffs') : (eraseFields names diffs).Perm (eraseFields names diffs') :=
  h.filter _

section
variable {T : Type} [DiffValue T]

omit [DiffValue T] in
/-- The changed part of a nested comparison goes over the common keys. -/
theorem changed_eq_commonKeys (o n : StdMap T) (sub : String → T → T → List FieldDiff) :
    (o.toList.flatMap fun kv => match n[kv.1]? with
      | none => []
      | some newItem => sub kv.1 kv.2 newItem) =
    (o.keys.filter fun k => n.contains k).flatMap fun k => match o[k]?, n[k]? with
      | some oldItem, some newItem => sub k oldItem newItem
      | _, _ => [] := by
  rw [← Std.ExtTreeMap.map_fst_toList_eq_keys, List.filter_map, List.flatMap_map]
  have hmem : ∀ kv ∈ o.toList, o[kv.1]? = some kv.2 := fun kv h =>
    Std.ExtTreeMap.mem_toList_iff_getElem?_eq_some.mp h
  generalize o.toList = items at hmem ⊢
  induction items with
  | nil => rfl
  | cons kv rest ih =>
    have hkv := hmem kv List.mem_cons_self
    have hrest := ih fun kv' h => hmem kv' (List.mem_cons_of_mem _ h)
    rw [List.flatMap_cons, hrest]
    cases hn : n[kv.1]? with
    | none =>
      have hc : n.contains kv.1 = false := by
        rw [Std.ExtTreeMap.contains_eq_isSome_getElem?, hn]; rfl
      simp [hc]
    | some newItem =>
      have hc : n.contains kv.1 = true := by
        rw [Std.ExtTreeMap.contains_eq_isSome_getElem?, hn]; rfl
      simp [hc, hkv, hn]

theorem diffNestedCollectionWith_mirror (oldItems newItems : List T) (keyOf : T → String)
    (fieldName : String) {itemDiff : T → T → List FieldDiff}
    (hitem : ∀ a b, itemDiff b a = (itemDiff a b).map FieldDiff.mirror) :
    (diffNestedCollectionWith newItems oldItems keyOf fieldName itemDiff).Perm
      ((diffNestedCollectionWith oldItems newItems keyOf fieldName itemDiff).map
        FieldDiff.mirror) := by
  simp only [diffNestedCollectionWith, List.map_append, List.map_map, Function.comp_def,
    FieldDiff.mirror]
  refine List.Perm.append ?_ ?_
  · exact List.perm_append_comm
  · generalize firstByKey keyOf oldItems = o
    generalize firstByKey keyOf newItems = n
    have hkeys : (n.keys.filter fun k => o.contains k).Perm
        (o.keys.filter fun k => n.contains k) := by
      apply (List.perm_ext_iff_of_nodup ((keys_nodup _).filter _) ((keys_nodup _).filter _)).mpr
      intro k
      simp [and_comm]
    let sub (key : String) (a b : T) : List FieldDiff := (itemDiff a b).map fun sub =>
      ⟨fieldName ++ "[" ++ key ++ "]." ++ sub.fieldName, sub.oldValue, sub.newValue⟩
    have hsub (key : String) (a b : T) : sub key b a = (sub key a b).map FieldDiff.mirror := by
      simp only [sub, hitem a b, List.map_map]
      rfl
    refine (List.Perm.of_eq (changed_eq_commonKeys n o sub)).trans (.trans ?_
      (List.Perm.of_eq (congrArg (List.map FieldDiff.mirror) (changed_eq_commonKeys o n sub).symm)))
    rw [List.map_flatMap]
    refine (hkeys.flatMap_right _).trans (List.Perm.of_eq ?_)
    apply List.flatMap_congr
    intro k _
    cases o[k]? with
    | none => cases n[k]? <;> rfl
    | some a => cases n[k]? with
      | none => rfl
      | some b => exact hsub k a b

theorem diffNestedStrings_mirror (oldItems newItems : List String) (keyOf : String → String)
    (fieldName : String) :
    (diffNestedStrings newItems oldItems keyOf fieldName).Perm
      ((diffNestedStrings oldItems newItems keyOf fieldName).map FieldDiff.mirror) :=
  diffNestedCollectionWith_mirror _ _ _ _ fun _ _ => rfl

theorem diffNestedCollection_mirror [DiffStruct T] (oldItems newItems : List T)
    (keyOf : T → String) (fieldName : String) :
    (diffNestedCollection newItems oldItems keyOf fieldName).Perm
      ((diffNestedCollection oldItems newItems keyOf fieldName).map FieldDiff.mirror) :=
  diffNestedCollectionWith_mirror _ _ _ _ diffStruct_mirror

end

theorem mirrorCompare_diffStruct {T : Type} [DiffStruct T] :
    MirrorCompare (diffStruct : T → T → List FieldDiff) := fun a b => by
  rw [diffStruct_mirror]

theorem eraseStruct_mirror {T : Type} [DiffStruct T] (names : List String) (a b : T) :
    eraseFields names (diffStruct b a) =
      (eraseFields names (diffStruct a b)).map FieldDiff.mirror := by
  rw [diffStruct_mirror, eraseFields_mirror]

theorem mirrorCompare_signalGroup : MirrorCompare diffSignalGroupElements := fun a b => by
  rw [diffSignalGroupElements, diffSignalGroupElements, List.map_append, eraseStruct_mirror]
  exact (diffNestedStrings_mirror _ _ _ _).append_left _

theorem mirrorCompare_pdu : MirrorCompare diffPduElements := fun a b => by
  rw [diffPduElements, diffPduElements, List.map_append, eraseStruct_mirror]
  exact (diffNestedCollection_mirror _ _ _ _).append_left _

theorem mirrorCompare_frame : MirrorCompare diffFrameElements := fun a b => by
  have hdiffs : (eraseFields ["pdus"] (diffStruct b a) ++
      diffNestedCollection b.pdus a.pdus framePduMappingKey "pdus").Perm
      ((eraseFields ["pdus"] (diffStruct a b) ++
        diffNestedCollection a.pdus b.pdus framePduMappingKey "pdus").map FieldDiff.mirror) := by
    rw [List.map_append, eraseStruct_mirror]
    exact (diffNestedCollection_mirror _ _ _ _).append_left _
  have hopaque : ((diffStruct b a).filter fun d => d.fieldName == "transmitters").isEmpty =
      ((diffStruct a b).filter fun d => d.fieldName == "transmitters").isEmpty := by
    rw [diffStruct_mirror, List.filter_map, List.isEmpty_map]
    rfl
  simp only [diffFrameElements, hopaque]
  split
  · exact hdiffs
  · rw [List.map_append, ← eraseFields_mirror]
    exact (eraseFields_perm hdiffs).append (diffNestedStrings_mirror _ _ _ _)

theorem diffSignalValueTable_mirror (oldTable newTable : Option (List ValueTableEntry)) :
    (diffSignalValueTable newTable oldTable).Perm
      ((diffSignalValueTable oldTable newTable).map FieldDiff.mirror) := by
  have hguard : ((newTable.getD []).isEmpty && (oldTable.getD []).isEmpty &&
      newTable.isSome == oldTable.isSome) = ((oldTable.getD []).isEmpty &&
      (newTable.getD []).isEmpty && oldTable.isSome == newTable.isSome) := by
    rw [Bool.and_comm (newTable.getD []).isEmpty, Bool.beq_comm]
  simp only [diffSignalValueTable, hguard]
  split
  · exact .refl _
  · exact diffNestedCollection_mirror _ _ _ _

theorem mirrorCompare_signal {D : Type} [Double D] :
    MirrorCompare (diffSignalElements : Signal D → Signal D → List FieldDiff) := fun a b => by
  rw [diffSignalElements, diffSignalElements, List.map_append, List.map_append,
    eraseStruct_mirror]
  exact ((diffSignalValueTable_mirror _ _).append_left _).append (diffNestedStrings_mirror _ _ _ _)

/-! ## Blocks -/

/-- The entry seen from the other side. -/
def DiffEntry.mirror (e : DiffEntry) : DiffEntry :=
  ⟨e.kind.mirror, e.elementType, e.newPath, e.oldPath, e.fieldDiffs.map FieldDiff.mirror⟩

namespace TypePass
variable (pass : TypePass)

/-- The pass of the comparison the other way round. -/
def mirror : TypePass := { pass with oldIndex := pass.newIndex, newIndex := pass.oldIndex }

theorem singlePair_swap {α β : Type} (as : List α) (bs : List β) :
    singlePair bs as = (singlePair as bs).map Prod.swap := by
  rcases as with _ | ⟨a, _ | ⟨a', as⟩⟩ <;> rcases bs with _ | ⟨b, _ | ⟨b', bs⟩⟩ <;> rfl

theorem mirror_pairOf (key : String) :
    pass.mirror.pairOf key = (pass.pairOf key).map Prod.swap :=
  singlePair_swap (pass.oldWith key) (pass.newWith key)

theorem mirror_name : pass.mirror.name = pass.name := rfl

theorem mirror_oldWith (key : String) : pass.mirror.oldWith key = pass.newWith key := rfl

theorem mirror_newWith (key : String) : pass.mirror.newWith key = pass.oldWith key := rfl

theorem mirror_movedTo (path : String) : pass.mirror.movedTo path = pass.movedFrom path := by
  change ((pass.newKey path).bind pass.mirror.pairOf).map Prod.snd = _
  rw [funext pass.mirror_pairOf, movedFrom]
  cases pass.newKey path with
  | none => rfl
  | some key => cases h : pass.pairOf key <;> simp [h]

theorem mirror_movedFrom (path : String) : pass.mirror.movedFrom path = pass.movedTo path := by
  change ((pass.oldKey path).bind pass.mirror.pairOf).map Prod.fst = _
  rw [funext pass.mirror_pairOf, movedTo]
  cases pass.oldKey path with
  | none => rfl
  | some key => cases h : pass.pairOf key <;> simp [h]

theorem mirror_unpairedOld : pass.mirror.unpairedOld = pass.unpairedNew := by
  simp only [unpairedOld, mirror_movedTo]
  rfl

theorem mirror_unpairedNew : pass.mirror.unpairedNew = pass.unpairedOld := by
  simp only [unpairedNew, mirror_movedFrom]
  rfl

theorem mirror_pairs_perm : pass.mirror.pairs.Perm (pass.pairs.map Prod.swap) := by
  apply (List.perm_ext_iff_of_nodup pass.mirror.pairs_nodup
    (pass.pairs_nodup.map Prod.swap_injective)).mpr
  rintro ⟨newPath, oldPath⟩
  rw [mem_pairs]
  simp only [mirror_pairOf, Option.map_eq_some_iff, List.mem_map]
  constructor
  · rintro ⟨key, pair, hpair, hswap⟩
    exact ⟨pair, pass.mem_pairs.mpr ⟨key, hpair⟩, hswap⟩
  · rintro ⟨pair, hmem, hswap⟩
    obtain ⟨key, hpair⟩ := pass.mem_pairs.mp hmem
    exact ⟨key, pair, hpair, hswap⟩

theorem mirror_both_perm : pass.mirror.both.Perm pass.both := by
  apply (List.perm_ext_iff_of_nodup pass.mirror.both_nodup pass.both_nodup).mpr
  intro path
  rw [mem_both, mem_both, and_comm]
  rfl

/-- A block by kind, up to order. -/
theorem settled_perm : pass.settled.Perm
    (pass.pairs.map (fun pair => pass.movedEntry pair.1 pair.2) ++
      pass.unpairedOld.map pass.removedEntry ++ pass.unpairedNew.map pass.addedEntry ++
      pass.both.map pass.matchedEntry) := by
  rw [settled, settleAdded_eq]
  exact (pass.settleRemoved_perm.append_right _).append_right _

/-- The block from the other side holds the mirrored entries. -/
theorem mirror_settled_perm : pass.mirror.settled.Perm (pass.settled.map DiffEntry.mirror) := by
  refine pass.mirror.settled_perm.trans (.trans ?_ (pass.settled_perm.map _).symm)
  simp only [List.map_append, List.map_map, mirror_unpairedOld, mirror_unpairedNew]
  refine List.Perm.append ?_ (pass.mirror_both_perm.map _)
  have hmoved := pass.mirror_pairs_perm.map fun pair => pass.mirror.movedEntry pair.1 pair.2
  rw [List.map_map] at hmoved
  have hsides : (pass.unpairedNew.map pass.mirror.removedEntry ++
      pass.unpairedOld.map pass.mirror.addedEntry).Perm
      (pass.unpairedOld.map (DiffEntry.mirror ∘ pass.removedEntry) ++
        pass.unpairedNew.map (DiffEntry.mirror ∘ pass.addedEntry)) := List.perm_append_comm
  rw [List.append_assoc, List.append_assoc]
  exact hmoved.append hsides

theorem mirror_groupKeys : pass.mirror.groupKeys = pass.groupKeys := by
  have hself (pass : TypePass) :
      pass.base.filter (fun e => e.elementType == pass.name) = pass.base :=
    List.filter_eq_self.mpr fun e he => by simpa using pass.elementType_of_mem_base he
  apply keys_congr
  intro key
  rw [pass.mirror.mem_moveGroups_of_type (hself _), pass.mem_moveGroups_of_type (hself _), or_comm]
  rfl

theorem ambiguityOf_swap (elementTypeName key : String) (removed added : List String) :
    (ambiguityOf elementTypeName key added removed).map DiffDiagnostic.elementType =
      (ambiguityOf elementTypeName key removed added).map DiffDiagnostic.elementType := by
  rcases removed with _ | ⟨r, _ | ⟨r', removed⟩⟩ <;>
    rcases added with _ | ⟨a, _ | ⟨a', added⟩⟩ <;> simp [ambiguityOf]

theorem mirror_diagnostics :
    pass.mirror.diagnostics.map DiffDiagnostic.elementType =
      pass.diagnostics.map DiffDiagnostic.elementType := by
  rw [diagnostics, diagnostics, mirror_groupKeys, List.map_filterMap, List.map_filterMap]
  apply List.filterMap_congr
  intro key _
  rw [ambiguous, ambiguous, mirror_oldWith, mirror_newWith, mirror_name, ambiguityOf_swap]

end TypePass

/-! ## The report -/

/-- Entries that mirror each other, or two dropped ones. -/
def MirrorOption : Option DiffEntry → Option DiffEntry → Prop
  | some first, some second => MirrorEntry first second
  | none, none => True
  | _, _ => False

theorem diffLookup_mirror {T : Type} {compare : T → T → List FieldDiff}
    (hcompare : MirrorCompare compare) (oldIndex newIndex : StdMap T) (oldPath newPath : String) :
    (diffLookup compare newIndex oldIndex newPath oldPath).Perm
      ((diffLookup compare oldIndex newIndex oldPath newPath).map FieldDiff.mirror) := by
  unfold diffLookup
  cases oldIndex[oldPath]? with
  | none => cases newIndex[newPath]? <;> exact .refl _
  | some a => cases newIndex[newPath]? with
    | none => exact .refl _
    | some b => exact hcompare a b

/-- Reading two mirrored lists through mirrored functions gives mirrored
lists. -/
theorem filterMap_mirror {f g : DiffEntry → Option DiffEntry} {entries : List DiffEntry}
    (h : ∀ e ∈ entries, MirrorOption (f e) (g e.mirror)) :
    List.Forall₂ MirrorEntry (entries.filterMap f) ((entries.map DiffEntry.mirror).filterMap g) := by
  induction entries with
  | nil => exact .nil
  | cons e entries ih =>
    have hrest := ih fun e' he => h e' (List.mem_cons_of_mem _ he)
    have he := h e List.mem_cons_self
    rw [List.map_cons, List.filterMap_cons, List.filterMap_cons]
    cases hf : f e with
    | none => cases hg : g e.mirror with
      | none => exact hrest
      | some _ => rw [hf, hg] at he; cases he
    | some _ => cases hg : g e.mirror with
      | none => rw [hf, hg] at he; cases he
      | some _ => rw [hf, hg] at he; exact .cons he hrest

section
variable {D : Type} [Double D]

theorem passes_mirror (oldProject newProject : ParsedProject D) :
    passes newProject oldProject = (passes oldProject newProject).map TypePass.mirror := by
  simp only [passes, passesOf, List.map_cons, List.map_nil]
  rfl

theorem passes_mirrorCompare {oldProject newProject : ParsedProject D} {pass : TypePass}
    (h : pass ∈ passes oldProject newProject) : MirrorCompare pass.compare := by
  simp only [passes, passesOf, List.mem_cons, List.not_mem_nil, or_false] at h
  rcases h with rfl | rfl | rfl | rfl | rfl | rfl
  · exact @mirrorCompare_diffStruct Cluster _
  · exact @mirrorCompare_diffStruct EcuInstance _
  · exact mirrorCompare_frame
  · exact mirrorCompare_pdu
  · exact mirrorCompare_signal
  · exact mirrorCompare_signalGroup

theorem fieldDiffs_of_mem_settled {pass : TypePass} {e : DiffEntry} (h : e ∈ pass.settled) :
    e.fieldDiffs = [] := by
  rcases pass.mem_settled.mp h with ⟨_, _, rfl⟩ | ⟨_, _, rfl⟩ | ⟨_, _, rfl⟩ | ⟨_, _, rfl⟩ <;> rfl

theorem populateEntry_mirror {oldProject newProject : ParsedProject D} {pass : TypePass}
    (h : pass ∈ passes oldProject newProject) {e : DiffEntry} (he : e ∈ pass.settled) :
    MirrorOption (populateEntry (indexProject oldProject) (indexProject newProject) e)
      (populateEntry (indexProject newProject) (indexProject oldProject) e.mirror) := by
  have hpair : (diffPair e.elementType e.newPath e.oldPath (indexProject newProject)
      (indexProject oldProject)).Perm ((diffPair e.elementType e.oldPath e.newPath
        (indexProject oldProject) (indexProject newProject)).map FieldDiff.mirror) := by
    have hm : pass.mirror ∈ passes newProject oldProject :=
      passes_mirror oldProject newProject ▸ List.mem_map_of_mem h
    rw [pass.elementType_of_mem_settled he, diffPair_of_pass h, ← pass.mirror_name,
      diffPair_of_pass hm]
    exact diffLookup_mirror (passes_mirrorCompare h) _ _ _ _
  have hnil := fieldDiffs_of_mem_settled he
  have hsame : MirrorEntry e e.mirror := ⟨rfl, rfl, rfl, rfl, .refl _⟩
  obtain ⟨kind, elementType, oldPath, newPath, fieldDiffs⟩ := e
  cases kind with
  | added => exact hsame
  | removed => exact hsame
  | moved => exact ⟨rfl, rfl, rfl, rfl, hpair⟩
  | modified =>
    simp only at hpair
    by_cases hhere : diffPair elementType oldPath newPath (indexProject oldProject)
        (indexProject newProject) = []
    · rw [hhere] at hpair
      simp [populateEntry, DiffEntry.mirror, DiffKind.mirror, hhere, hpair.eq_nil, MirrorOption]
    · have hthere : diffPair elementType newPath oldPath (indexProject newProject)
          (indexProject oldProject) ≠ [] := by
        intro hnone
        rw [hnone] at hpair
        exact hhere (List.map_eq_nil_iff.mp hpair.symm.eq_nil)
      simp only [populateEntry, DiffEntry.mirror, DiffKind.mirror, reduceCtorEq, ne_eq,
        not_false_eq_true, hhere, hthere, or_true, if_true, not_true_eq_false, false_and, if_false]
      exact ⟨rfl, rfl, rfl, rfl, hpair⟩

theorem flatMap_mirror_perm (ps : List TypePass) :
    ((ps.map TypePass.mirror).flatMap TypePass.settled).Perm
      ((ps.flatMap TypePass.settled).map DiffEntry.mirror) := by
  rw [List.flatMap_map, List.map_flatMap]
  exact List.Perm.flatMap_left _ fun pass _ => pass.mirror_settled_perm

theorem diff_entries_perm (a b : ParsedProject D) :
    (diff a b).entries.Perm (((passes a b).flatMap TypePass.settled).filterMap
      (populateEntry (indexProject a) (indexProject b))) := by
  rw [diff_eq_sort]
  exact List.perm_insertionSort _ _

theorem diff_diagnostics_perm (a b : ParsedProject D) :
    (diff a b).diagnostics.Perm ((passes a b).flatMap TypePass.diagnostics) := by
  rw [diff_eq_sort]
  exact List.perm_insertionSort _ _

/-- The report of the comparison the other way round is the mirror image. -/
theorem diff_mirror (a b : ParsedProject D) :
    (∃ entries, entries.Perm (diff b a).entries ∧
      List.Forall₂ MirrorEntry (diff a b).entries entries) ∧
    ∀ elementType, ((diff b a).diagnostics.countP fun d => d.elementType = elementType) =
      (diff a b).diagnostics.countP fun d => d.elementType = elementType := by
  constructor
  · have hreports : List.Forall₂ MirrorEntry
        (((passes a b).flatMap TypePass.settled).filterMap
          (populateEntry (indexProject a) (indexProject b)))
        ((((passes a b).flatMap TypePass.settled).map DiffEntry.mirror).filterMap
          (populateEntry (indexProject b) (indexProject a))) := by
      apply filterMap_mirror
      intro e he
      obtain ⟨pass, hp, he⟩ := List.mem_flatMap.mp he
      exact populateEntry_mirror hp he
    obtain ⟨entries, hmirror, hperm⟩ :=
      List.perm_comp_forall₂ (diff_entries_perm a b) hreports
    refine ⟨entries, hperm.trans ?_, hmirror⟩
    refine .trans ?_ (diff_entries_perm b a).symm
    rw [passes_mirror]
    exact ((flatMap_mirror_perm _).filterMap _).symm
  · intro elementType
    rw [(diff_diagnostics_perm b a).countP_eq, (diff_diagnostics_perm a b).countP_eq,
      passes_mirror]
    have htypes (ps : List TypePass) :
        ((ps.map TypePass.mirror).flatMap TypePass.diagnostics).map DiffDiagnostic.elementType =
          (ps.flatMap TypePass.diagnostics).map DiffDiagnostic.elementType := by
      simp only [List.flatMap_map, List.map_flatMap, TypePass.mirror_diagnostics]
    have hcount (ds : List DiffDiagnostic) : ds.countP (fun d => d.elementType = elementType) =
        (ds.map DiffDiagnostic.elementType).countP fun ty => ty = elementType := by
      rw [List.countP_map]
      rfl
    rw [hcount, hcount, htypes]

end

end ParseX

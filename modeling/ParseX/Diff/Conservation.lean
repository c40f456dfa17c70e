import ParseX.Diff.TypePass

/-! # Conservation of short names

Matching and move detection account for every short name exactly once on its
side, and produce no other entry of the type. -/
namespace ParseX
open Cpp

section
variable {T : Type} [DomainElement T]

/-- The path of one of the elements. -/
def IsPathOf (elements : List T) (path : String) : Prop :=
  ∃ e ∈ elements, shortName e ≠ "" ∧ path = diffPathForShortName (shortName e)

/-- The entries of a type account for the short names of two element lists. -/
structure Conserved (oldElements newElements : List T) (name : String)
    (entries : List DiffEntry) : Prop where
  /-- Every old name is the old path of one removed, moved or modified entry. -/
  old_once : ∀ e ∈ oldElements, shortName e ≠ "" →
    entries.countP (fun entry => entry.elementType = name ∧
      (entry.kind = .removed ∨ entry.kind = .moved ∨ entry.kind = .modified) ∧
      entry.oldPath = diffPathForShortName (shortName e)) = 1
  /-- Every new name is the new path of one added, moved or modified entry. -/
  new_once : ∀ e ∈ newElements, shortName e ≠ "" →
    entries.countP (fun entry => entry.elementType = name ∧
      (entry.kind = .added ∨ entry.kind = .moved ∨ entry.kind = .modified) ∧
      entry.newPath = diffPathForShortName (shortName e)) = 1
  /-- The modified entries are those of the names on both sides. -/
  modified_iff : ∀ entry ∈ entries, entry.elementType = name →
    (entry.kind = .modified ↔ ∃ path, IsPathOf oldElements path ∧ IsPathOf newElements path ∧
      (entry.oldPath = path ∨ entry.newPath = path))
  /-- The paths of an entry are those its kind has, and paths of elements. -/
  no_other : ∀ entry ∈ entries, entry.elementType = name →
    match entry.kind with
    | .removed => IsPathOf oldElements entry.oldPath ∧ entry.newPath = ""
    | .added => entry.oldPath = "" ∧ IsPathOf newElements entry.newPath
    | .moved => IsPathOf oldElements entry.oldPath ∧ IsPathOf newElements entry.newPath
    | .modified => IsPathOf oldElements entry.oldPath ∧ entry.newPath = entry.oldPath

theorem diffPath_isEmpty (name : String) :
    (diffPathForShortName name).isEmpty = true ↔ name = "" := by
  by_cases h : name = ""
  · subst h; decide
  · have hne : name.isEmpty = false := by simpa [String.isEmpty_iff] using h
    simp [diffPathForShortName, hne, h]

theorem mem_indexByPath {elements : List T} {path : String} :
    path ∈ indexByPath elements ↔ IsPathOf elements path := by
  rw [indexByPath, mem_ofFirst]
  simp only [pathPairs, List.map_map, List.mem_map, List.mem_filter, Function.comp_apply,
    Bool.not_eq_true', ← Bool.not_eq_true, diffPath_isEmpty, IsPathOf]
  constructor
  · rintro ⟨e, ⟨he, hne⟩, rfl⟩
    exact ⟨e, he, hne, rfl⟩
  · rintro ⟨e, he, hne, rfl⟩
    exact ⟨e, ⟨he, hne⟩, rfl⟩

theorem IsPathOf.ne_empty {elements : List T} {path : String} (h : IsPathOf elements path) :
    path ≠ "" := by
  obtain ⟨e, -, hne, rfl⟩ := h
  intro hp
  exact hne ((diffPath_isEmpty _).mp (by rw [hp]; rfl))

end

/-! ## One block -/

namespace TypePass
variable (pass : TypePass)

/-- The old paths of a block, in order. -/
theorem settled_oldPaths :
    (pass.settled.filter fun e => decide (e.kind ≠ .added)).map DiffEntry.oldPath =
      pass.oldOnly ++ pass.both := by
  have hremoved (path : String) : (pass.settleRemoved path).oldPath = path ∧
      (pass.settleRemoved path).kind ≠ .added := by
    unfold settleRemoved
    split <;> simp [movedEntry, removedEntry]
  rw [settled, settleAdded_eq]
  simp [List.filter_map, Function.comp_def, hremoved, addedEntry, matchedEntry]

/-- The new paths of a block, up to order. -/
theorem settled_newPaths_perm :
    ((pass.settled.filter fun e => decide (e.kind ≠ .removed)).map DiffEntry.newPath).Perm
      (pass.newOnly ++ pass.both) := by
  have hsettle := pass.settleRemoved_perm.append_right
    (pass.unpairedNew.map pass.addedEntry ++ pass.both.map pass.matchedEntry)
  rw [← List.append_assoc, ← settleAdded_eq, ← settled] at hsettle
  refine ((hsettle.filter _).map _).trans ?_
  have hpaths : (((pass.pairs.map (fun pair => pass.movedEntry pair.1 pair.2) ++
      pass.unpairedOld.map pass.removedEntry) ++ (pass.unpairedNew.map pass.addedEntry ++
      pass.both.map pass.matchedEntry)).filter fun e => decide (e.kind ≠ .removed)).map
        DiffEntry.newPath = pass.pairs.map Prod.snd ++ pass.unpairedNew ++ pass.both := by
    simp [List.filter_map, Function.comp_def, movedEntry, removedEntry, addedEntry, matchedEntry]
  rw [settleAdded_eq, hpaths]
  refine List.Perm.append_right _ ?_
  refine (pass.pairs_new_perm.append_right _).trans (List.perm_append_comm.trans ?_)
  exact List.filter_append_perm (fun path => (pass.movedFrom path).isNone) pass.newOnly

/-- Counting entries by kind and path is counting the path in a list of
paths. -/
theorem countP_path (entries : List DiffEntry) (kind : DiffEntry → Prop) [DecidablePred kind]
    (pathOf : DiffEntry → String) (path : String) :
    entries.countP (fun e => kind e ∧ pathOf e = path) =
      ((entries.filter fun e => kind e).map pathOf).count path := by
  rw [List.count, List.countP_map, List.countP_filter]
  apply List.countP_congr
  intro e _
  simp [and_comm]

theorem oldPath_count {path : String} (h : path ∈ pass.oldIndex) :
    pass.settled.countP (fun e => e.kind ≠ .added ∧ e.oldPath = path) = 1 := by
  rw [countP_path, settled_oldPaths]
  refine List.count_eq_one_of_mem ?_ ?_
  · refine List.nodup_append.mpr ⟨pass.oldOnly_nodup, pass.both_nodup, ?_⟩
    rintro a ha b hb rfl
    exact (pass.mem_oldOnly.mp ha).2 (pass.mem_both.mp hb).2
  · by_cases hn : path ∈ pass.newIndex
    · exact List.mem_append_right _ (pass.mem_both.mpr ⟨h, hn⟩)
    · exact List.mem_append_left _ (pass.mem_oldOnly.mpr ⟨h, hn⟩)

theorem newPath_count {path : String} (h : path ∈ pass.newIndex) :
    pass.settled.countP (fun e => e.kind ≠ .removed ∧ e.newPath = path) = 1 := by
  rw [countP_path, pass.settled_newPaths_perm.count_eq]
  refine List.count_eq_one_of_mem ?_ ?_
  · refine List.nodup_append.mpr ⟨pass.newOnly_nodup, pass.both_nodup, ?_⟩
    rintro a ha b hb rfl
    exact (pass.mem_newOnly.mp ha).2 (pass.mem_both.mp hb).1
  · by_cases ho : path ∈ pass.oldIndex
    · exact List.mem_append_right _ (pass.mem_both.mpr ⟨ho, h⟩)
    · exact List.mem_append_left _ (pass.mem_newOnly.mpr ⟨h, ho⟩)

end TypePass

/-! ## The whole report -/

section
variable {D : Type} [Double D]

theorem conserved_of_pass {T : Type} [DomainElement T] [SecondaryKey T]
    {oldElements newElements : List T} {name : String} {compare : T → T → List FieldDiff}
    {ps : List TypePass}
    (h : ⟨T, name, indexByPath oldElements, indexByPath newElements, compare⟩ ∈ ps)
    (hnames : (ps.map TypePass.name).Nodup) :
    Conserved oldElements newElements name (ps.flatMap TypePass.settled) := by
  have hblock := TypePass.filter_settled h hnames
  generalize hpass : TypePass.mk T name (indexByPath oldElements) (indexByPath newElements)
    compare = pass at hblock
  have hname : pass.name = name := by rw [← hpass]
  have hold {path : String} : path ∈ pass.oldIndex ↔ IsPathOf oldElements path := by
    subst hpass; exact mem_indexByPath
  have hnew {path : String} : path ∈ pass.newIndex ↔ IsPathOf newElements path := by
    subst hpass; exact mem_indexByPath
  rw [hname] at hblock
  have hcount (q : DiffEntry → Prop) [DecidablePred q] :
      (ps.flatMap TypePass.settled).countP (fun e => e.elementType = name ∧ q e) =
        pass.settled.countP fun e => q e := by
    rw [← hblock, List.countP_filter]
    exact List.countP_congr fun e _ => by simp [and_comm]
  have hmem {entry : DiffEntry} (he : entry ∈ ps.flatMap TypePass.settled)
      (ht : entry.elementType = name) : entry ∈ pass.settled := by
    rw [← hblock]
    exact List.mem_filter.mpr ⟨he, by simpa using ht⟩
  constructor
  · intro e he hne
    rw [hcount, ← pass.oldPath_count (hold.mpr ⟨e, he, hne, rfl⟩)]
    apply List.countP_congr
    intro entry _
    cases entry.kind <;> simp
  · intro e he hne
    rw [hcount, ← pass.newPath_count (hnew.mpr ⟨e, he, hne, rfl⟩)]
    apply List.countP_congr
    intro entry _
    cases entry.kind <;> simp
  · intro entry he ht
    constructor
    · intro hkind
      rcases pass.mem_settled.mp (hmem he ht) with ⟨_, _, rfl⟩ | ⟨_, _, rfl⟩ | ⟨_, _, rfl⟩ |
        ⟨path, hp, rfl⟩
      · cases hkind
      · cases hkind
      · cases hkind
      · obtain ⟨ho, hn⟩ := pass.mem_both.mp hp
        exact ⟨path, hold.mp ho, hnew.mp hn, Or.inl rfl⟩
    · rintro ⟨path, ho, hn, hpath⟩
      rcases pass.mem_settled.mp (hmem he ht) with ⟨⟨o, n⟩, hp, rfl⟩ | ⟨a, hp, rfl⟩ |
        ⟨a, hp, rfl⟩ | ⟨_, _, rfl⟩
      · obtain ⟨key, hkey⟩ := pass.mem_pairs.mp hp
        obtain ⟨ho', hn'⟩ := pass.mem_of_pairOf hkey
        rcases hpath with rfl | rfl
        · exact absurd (hnew.mpr hn) (pass.mem_oldOnly.mp ho').2
        · exact absurd (hold.mpr ho) (pass.mem_newOnly.mp hn').2
      · rcases hpath with rfl | rfl
        · exact absurd (hnew.mpr hn) (pass.mem_oldOnly.mp (List.mem_of_mem_filter hp)).2
        · exact absurd rfl ho.ne_empty
      · rcases hpath with rfl | rfl
        · exact absurd rfl ho.ne_empty
        · exact absurd (hold.mpr ho) (pass.mem_newOnly.mp (List.mem_of_mem_filter hp)).2
      · rfl
  · intro entry he ht
    rcases pass.mem_settled.mp (hmem he ht) with ⟨⟨o, n⟩, hp, rfl⟩ | ⟨path, hp, rfl⟩ |
      ⟨path, hp, rfl⟩ | ⟨path, hp, rfl⟩
    · obtain ⟨key, hkey⟩ := pass.mem_pairs.mp hp
      obtain ⟨ho, hn⟩ := pass.mem_of_pairOf hkey
      exact ⟨hold.mp (pass.mem_oldOnly.mp ho).1, hnew.mp (pass.mem_newOnly.mp hn).1⟩
    · exact ⟨hold.mp (pass.mem_oldOnly.mp (List.mem_of_mem_filter hp)).1, rfl⟩
    · exact ⟨rfl, hnew.mp (pass.mem_newOnly.mp (List.mem_of_mem_filter hp)).1⟩
    · exact ⟨hold.mp (pass.mem_both.mp hp).1, rfl⟩

/-- Every distinct non-empty short name of a type is accounted for exactly once
on its side after matching and move detection, whatever the two projects. -/
theorem applyMoveDetection_conserves (oldProject newProject : ParsedProject D) :
    let entries := (applyMoveDetection oldProject newProject
      (matchParsedProjects oldProject newProject)).entries
    let conserved {T : Type} [DomainElement T] (member : ParsedFile D → List T) (name : String) :=
      Conserved (collectAll oldProject member) (collectAll newProject member) name entries
    conserved ParsedFile.clusters "Cluster" ∧ conserved ParsedFile.ecuInstances "EcuInstance" ∧
      conserved ParsedFile.frames "Frame" ∧ conserved ParsedFile.pdus "Pdu" ∧
      conserved ParsedFile.signals "Signal" ∧
      conserved ParsedFile.signalGroups "SignalGroup" := by
  intro entries conserved
  have hentries : entries = (passes oldProject newProject).flatMap TypePass.settled := by
    simp only [entries, applyMoveDetection_passes]
  have hpass {T : Type} [DomainElement T] [SecondaryKey T] {member : ParsedFile D → List T}
      {name : String} {compare : T → T → List FieldDiff}
      (h : ⟨T, name, indexByPath (collectAll oldProject member),
        indexByPath (collectAll newProject member), compare⟩ ∈ passes oldProject newProject) :
      conserved member name := by
    simp only [conserved, hentries]
    exact conserved_of_pass h (passes_names oldProject newProject)
  exact ⟨hpass (.head _), hpass (.tail _ (.head _)), hpass (.tail _ (.tail _ (.head _))),
    hpass (.tail _ (.tail _ (.tail _ (.head _)))),
    hpass (.tail _ (.tail _ (.tail _ (.tail _ (.head _))))),
    hpass (.tail _ (.tail _ (.tail _ (.tail _ (.tail _ (.head _))))))⟩

end

end ParseX

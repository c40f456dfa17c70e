import ParseX.Diff.Diagnostics

/-! # Moves are inferred as specified

Which removed and added paths become a move, which keys get a diagnostic, and
what stays as it was. -/
namespace ParseX
open Cpp

namespace TypePass
variable (pass : TypePass)

/-- A path of the old side only, whose element has the secondary key. -/
def RemovedWith (key path : String) : Prop :=
  path ∈ pass.oldIndex ∧ path ∉ pass.newIndex ∧ pass.oldKey path = some key

/-- A path of the new side only, whose element has the secondary key. -/
def AddedWith (key path : String) : Prop :=
  path ∈ pass.newIndex ∧ path ∉ pass.oldIndex ∧ pass.newKey path = some key

instance (key path : String) : Decidable (pass.RemovedWith key path) :=
  inferInstanceAs (Decidable (_ ∧ _))

instance (key path : String) : Decidable (pass.AddedWith key path) :=
  inferInstanceAs (Decidable (_ ∧ _))

/-- The two paths are the only ones of their key, one on each side. -/
def Moves (oldPath newPath : String) : Prop :=
  ∃ key, (∀ path, pass.RemovedWith key path ↔ path = oldPath) ∧
    ∀ path, pass.AddedWith key path ↔ path = newPath

/-- Both sides have paths of the key, and they are not one pair. -/
def Ambiguous (key : String) : Prop :=
  (∃ path, pass.RemovedWith key path) ∧ (∃ path, pass.AddedWith key path) ∧
    ¬ ∃ oldPath newPath, (∀ path, pass.RemovedWith key path ↔ path = oldPath) ∧
      ∀ path, pass.AddedWith key path ↔ path = newPath

/-- The entry reports a removed or an added path of the key. -/
def Reports (key : String) (entry : DiffEntry) : Prop :=
  entry.elementType = pass.name ∧
    (entry.kind = .removed ∧ pass.RemovedWith key entry.oldPath ∨
      entry.kind = .added ∧ pass.AddedWith key entry.newPath)

instance (key : String) (entry : DiffEntry) : Decidable (pass.Reports key entry) :=
  inferInstanceAs (Decidable (_ ∧ _))

/-- The diagnostic lists every path of the key exactly once. -/
def Lists (key : String) (diagnostic : DiffDiagnostic) : Prop :=
  ∃ removed added : List String, removed.Nodup ∧ added.Nodup ∧
    (∀ path, path ∈ removed ↔ pass.RemovedWith key path) ∧
    (∀ path, path ∈ added ↔ pass.AddedWith key path) ∧
    diagnostic = ⟨ambiguityMessage pass.name key removed added, pass.name⟩

end TypePass

/-- What move detection owes one type, from the report before to the report
after. -/
structure MovesInferred (pass : TypePass) (before after : DiffReport) : Prop where
  moved_iff : ∀ oldPath newPath, (∃ entry ∈ after.entries, entry.elementType = pass.name ∧
    entry.kind = .moved ∧ entry.oldPath = oldPath ∧ entry.newPath = newPath) ↔
      pass.Moves oldPath newPath
  /-- One diagnostic for each ambiguous key, and no other. -/
  diagnosed : ∃ keys : List String, keys.Nodup ∧ (∀ key, key ∈ keys ↔ pass.Ambiguous key) ∧
    List.Forall₂ pass.Lists keys
      (after.diagnostics.filter fun diagnostic => diagnostic.elementType = pass.name)
  /-- The entries of an ambiguous key stay, in number and order. -/
  unchanged : ∀ key, pass.Ambiguous key →
    after.entries.filter (fun entry => pass.Reports key entry) =
      before.entries.filter fun entry => pass.Reports key entry

namespace TypePass
variable {pass : TypePass}

/-! ## Keys and their paths -/

theorem removedWith_iff {key path : String} :
    pass.RemovedWith key path ↔ path ∈ pass.oldWith key := by
  rw [mem_oldWith, mem_oldOnly, RemovedWith, and_assoc]

theorem addedWith_iff {key path : String} :
    pass.AddedWith key path ↔ path ∈ pass.newWith key := by
  rw [mem_newWith, mem_newOnly, AddedWith, and_assoc]

theorem oldWith_nodup (key : String) : (pass.oldWith key).Nodup := pass.oldOnly_nodup.filter _
theorem newWith_nodup (key : String) : (pass.newWith key).Nodup := pass.newOnly_nodup.filter _

/-- A list without repetitions whose only member is `a`. -/
theorem eq_singleton_iff {α : Type} {l : List α} {a : α} (hn : l.Nodup) :
    (∀ x, x ∈ l ↔ x = a) ↔ l = [a] := by
  rw [← List.perm_singleton, List.perm_ext_iff_of_nodup hn (List.nodup_singleton a)]
  simp only [List.mem_singleton]

/-- The paths of a key are one pair. -/
theorem only_pair_iff {key oldPath newPath : String} :
    ((∀ path, pass.RemovedWith key path ↔ path = oldPath) ∧
      ∀ path, pass.AddedWith key path ↔ path = newPath) ↔
        pass.pairOf key = some (oldPath, newPath) := by
  simp only [removedWith_iff, addedWith_iff, eq_singleton_iff (oldWith_nodup key),
    eq_singleton_iff (newWith_nodup key), pairOf_eq_some]

theorem moves_iff {oldPath newPath : String} :
    pass.Moves oldPath newPath ↔ (oldPath, newPath) ∈ pass.pairs := by
  simp only [Moves, only_pair_iff, mem_pairs]

theorem ambiguous_iff {key : String} : pass.Ambiguous key ↔
    pass.oldWith key ≠ [] ∧ pass.newWith key ≠ [] ∧ pass.pairOf key = none := by
  have hne (paths : List String) : (∃ path, path ∈ paths) ↔ paths ≠ [] :=
    ⟨fun ⟨_, h⟩ => List.ne_nil_of_mem h, List.exists_mem_of_ne_nil paths⟩
  simp only [Ambiguous, only_pair_iff]
  simp only [removedWith_iff, addedWith_iff, hne]
  refine and_congr_right fun _ => and_congr_right fun _ => ?_
  rw [Option.eq_none_iff_forall_ne_some]
  exact ⟨fun h pair hpair => h ⟨pair.1, pair.2, hpair⟩, fun h ⟨o, n, hpair⟩ => h (o, n) hpair⟩

/-! ## Diagnostics -/

theorem ambiguityOf_isSome {elementTypeName key : String} {removed added : List String} :
    (ambiguityOf elementTypeName key removed added).isSome = true ↔
      removed ≠ [] ∧ added ≠ [] ∧ singlePair removed added = none := by
  rcases removed with _ | ⟨r, _ | ⟨r', removed⟩⟩ <;>
    rcases added with _ | ⟨a, _ | ⟨a', added⟩⟩ <;> simp [ambiguityOf, singlePair]

theorem mem_groupKeys {key : String} :
    key ∈ pass.groupKeys ↔ pass.oldWith key ≠ [] ∨ pass.newWith key ≠ [] := by
  have hself : pass.base.filter (fun e => e.elementType == pass.name) = pass.base :=
    List.filter_eq_self.mpr fun e he => by simpa using pass.elementType_of_mem_base he
  rw [groupKeys, Std.ExtTreeMap.mem_keys, pass.mem_moveGroups_of_type hself]

/-- A partial map relates the items it maps with their images. -/
theorem forall₂_filterMap {α β : Type} {R : α → β → Prop} {f : α → Option β}
    (hf : ∀ x y, f x = some y → R x y) (l : List α) :
    List.Forall₂ R (l.filter fun x => (f x).isSome) (l.filterMap f) := by
  induction l with
  | nil => exact .nil
  | cons x l ih =>
    cases h : f x with
    | none => simpa [h] using ih
    | some y => simpa [h] using ⟨hf x y h, ih⟩

theorem diagnostics_ambiguous (pass : TypePass) :
    ∃ keys : List String, keys.Nodup ∧ (∀ key, key ∈ keys ↔ pass.Ambiguous key) ∧
      List.Forall₂ pass.Lists keys pass.diagnostics := by
  refine ⟨_, (keys_nodup _).filter _, fun key => ?_, forall₂_filterMap (fun key d hd => ?_) _⟩
  · rw [List.mem_filter, ambiguous, ambiguityOf_isSome, ambiguous_iff, ← groupKeys, mem_groupKeys]
    exact ⟨And.right, fun h => ⟨.inl h.1, h⟩⟩
  · exact ⟨_, _, oldWith_nodup key, newWith_nodup key, fun path => removedWith_iff.symm,
      fun path => addedWith_iff.symm, ambiguityOf_eq_some hd⟩

/-! ## Entries -/

/-- An entry of a block reports a key as the matching step would. -/
theorem reports_iff {key : String} {entry : DiffEntry} : pass.Reports key entry ↔
    entry.elementType = pass.name ∧ (entry.kind = .removed ∧ entry.oldPath ∈ pass.oldWith key ∨
      entry.kind = .added ∧ entry.newPath ∈ pass.newWith key) := by
  rw [Reports, removedWith_iff, addedWith_iff]

theorem filter_oldWith (key : String) :
    pass.oldOnly.filter (fun path => path ∈ pass.oldWith key) = pass.oldWith key := by
  refine List.filter_congr fun path hpath => ?_
  rw [Bool.eq_iff_iff]
  simp [mem_oldWith, hpath]

theorem filter_newWith (key : String) :
    pass.newOnly.filter (fun path => path ∈ pass.newWith key) = pass.newWith key := by
  refine List.filter_congr fun path hpath => ?_
  rw [Bool.eq_iff_iff]
  simp [mem_newWith, hpath]

theorem filter_reports_base (key : String) : pass.base.filter (fun e => pass.Reports key e) =
    (pass.oldWith key).map pass.removedEntry ++ (pass.newWith key).map pass.addedEntry := by
  simp only [base, List.filter_append, List.filter_map, Function.comp_def, reports_iff]
  simp [removedEntry, addedEntry, matchedEntry, filter_oldWith, filter_newWith]

/-- The entries of a key that is no pair settle as they are. -/
theorem filter_reports_settled {key : String} (h : pass.pairOf key = none) :
    pass.settled.filter (fun e => pass.Reports key e) =
      pass.base.filter fun e => pass.Reports key e := by
  have hstay {path : String} (hpath : path ∈ pass.oldWith key) :
      pass.settleRemoved path = pass.removedEntry path := by
    have hnone : pass.movedTo path = none := by
      simp [movedTo, (pass.mem_oldWith.mp hpath).2, h]
    simp [settleRemoved, hnone]
  have hremoved (path : String) :
      pass.Reports key (pass.settleRemoved path) ↔ path ∈ pass.oldWith key := by
    rw [settleRemoved]
    split
    · rename_i newPath hmoved
      have hnot : path ∉ pass.oldWith key := by
        intro hpath
        simp [movedTo, (pass.mem_oldWith.mp hpath).2, h] at hmoved
      simp [reports_iff, movedEntry, hnot]
    · simp [reports_iff, removedEntry]
  have hadded : pass.unpairedNew.filter (fun path => path ∈ pass.newWith key) =
      pass.newWith key := by
    rw [unpairedNew, List.filter_filter, ← filter_newWith key]
    refine List.filter_congr fun path _ => ?_
    by_cases hpath : path ∈ pass.newWith key
    · have hnone : pass.movedFrom path = none := by
        simp [movedFrom, (pass.mem_newWith.mp hpath).2, h]
      simp [filter_newWith, hpath, hnone]
    · simp [filter_newWith, hpath]
  have hsettled : (pass.oldOnly.map pass.settleRemoved).filter (fun e => pass.Reports key e) =
      (pass.oldWith key).map pass.removedEntry := by
    rw [List.filter_map, ← filter_oldWith key]
    simp only [Function.comp_def, hremoved, filter_oldWith]
    exact List.map_congr_left fun path hpath => hstay hpath
  rw [filter_reports_base, settled, settleAdded_eq, List.filter_append, List.filter_append, hsettled]
  simp only [List.filter_map, Function.comp_def, reports_iff]
  simp [addedEntry, matchedEntry, hadded]

/-- The pass of one type leaves the entries of the others alone. -/
theorem detectMovesForType_others (pass : TypePass) (report : DiffReport) :
    (detectMovesForType pass.oldIndex pass.newIndex pass.name report).entries.filter
        (fun entry => entry.elementType ≠ pass.name) =
      report.entries.filter fun entry => entry.elementType ≠ pass.name := by
  have htype {entry out : DiffEntry} (h : ParseX.movedEntry pass.oldIndex pass.newIndex pass.name
      report.entries entry = some out) : out.elementType = entry.elementType := by
    rw [ParseX.movedEntry] at h
    split at h
    · rw [← Option.some.inj h]
    · split at h
      · cases h
      · rw [← Option.some.inj h]
  rw [detectMovesForType_eq, List.filter_filterMap, ← List.filterMap_eq_filter]
  refine List.filterMap_congr fun entry _ => ?_
  by_cases hother : entry.elementType = pass.name
  · cases hout : ParseX.movedEntry pass.oldIndex pass.newIndex pass.name report.entries entry with
    | none => simp [Option.guard, hother]
    | some out => simp [Option.guard, Option.filter, htype hout, hother]
  · rw [pass.movedEntry_of_other hother]
    simp [Option.guard, Option.filter, hother]

end TypePass

section
variable {D : Type} [Double D]

/-- Move detection infers, for each type, the moves of the keys with one path on
each side, adds a diagnostic for every other key with paths on both sides, and
leaves what remains as the matching step made it. -/
theorem applyMoveDetection_infers (oldProject newProject : ParsedProject D) :
    let before := matchParsedProjects oldProject newProject
    let after := applyMoveDetection oldProject newProject before
    (∀ pass ∈ passes oldProject newProject, MovesInferred pass before after ∧
      ∀ report : DiffReport, (detectMovesForType pass.oldIndex pass.newIndex pass.name
          report).entries.filter (fun entry => entry.elementType ≠ pass.name) =
        report.entries.filter fun entry => entry.elementType ≠ pass.name) ∧
    ∀ diagnostic ∈ after.diagnostics, ∃ pass ∈ passes oldProject newProject,
      diagnostic.elementType = pass.name := by
  intro before after
  have hnames := passes_names oldProject newProject
  have hafter : after = ⟨(passes oldProject newProject).flatMap TypePass.settled,
      (passes oldProject newProject).flatMap TypePass.diagnostics⟩ :=
    applyMoveDetection_passes oldProject newProject
  have hbefore : before = ⟨(passes oldProject newProject).flatMap TypePass.base, []⟩ :=
    matchParsedProjects_passes oldProject newProject
  rw [hafter, hbefore]
  refine ⟨fun pass hpass => ⟨⟨?_, ?_, ?_⟩, pass.detectMovesForType_others⟩, ?_⟩
  · intro oldPath newPath
    have hblock := TypePass.filter_settled hpass hnames
    rw [TypePass.moves_iff]
    constructor
    · rintro ⟨entry, hentry, htype, hkind, rfl, rfl⟩
      have hmem : entry ∈ pass.settled := by
        rw [← hblock]
        exact List.mem_filter.mpr ⟨hentry, by simpa using htype⟩
      rcases pass.mem_settled.mp hmem with ⟨pair, hpair, rfl⟩ | ⟨_, _, rfl⟩ | ⟨_, _, rfl⟩ |
        ⟨_, _, rfl⟩
      · exact hpair
      · cases hkind
      · cases hkind
      · cases hkind
    · intro hpair
      refine ⟨_, List.mem_flatMap.mpr ⟨pass, hpass, pass.mem_settled.mpr (.inl ⟨_, hpair, rfl⟩)⟩,
        rfl, rfl, rfl, rfl⟩
  · obtain ⟨keys, hn, hkeys, hlists⟩ := TypePass.diagnostics_ambiguous pass
    refine ⟨keys, hn, hkeys, ?_⟩
    rw [TypePass.filter_blocks (fun pass _ => pass.elementType_of_mem_diagnostics) hpass hnames]
    exact hlists
  · intro key hkey
    have hother {blocks : TypePass → List DiffEntry}
        (htype : ∀ pass, ∀ e ∈ blocks pass, e.elementType = pass.name) :
        ((passes oldProject newProject).flatMap blocks).filter (fun e => pass.Reports key e) =
          (blocks pass).filter fun e => pass.Reports key e := by
      rw [← TypePass.filter_blocks htype hpass hnames, List.filter_filter]
      refine List.filter_congr fun e _ => ?_
      rw [Bool.eq_iff_iff]
      simp only [Bool.and_eq_true, decide_eq_true_eq]
      exact ⟨fun h => ⟨h, h.1⟩, And.left⟩
    dsimp only
    rw [hother fun pass _ => pass.elementType_of_mem_settled,
      hother fun pass _ => pass.elementType_of_mem_base]
    exact TypePass.filter_reports_settled (TypePass.ambiguous_iff.mp hkey).2.2
  · intro diagnostic hmem
    obtain ⟨pass, hpass, hmem⟩ := List.mem_flatMap.mp hmem
    exact ⟨pass, hpass, pass.elementType_of_mem_diagnostics hmem⟩

end

end ParseX

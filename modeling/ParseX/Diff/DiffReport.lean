import Mathlib.Data.List.Sort
import Mathlib.Data.String.Basic

/-! # Diff reports

The plain data of the diff engine and its deterministic ordering pass. -/
namespace ParseX

inductive DiffKind where
  | added
  | removed
  | moved
  | modified
  deriving DecidableEq, Repr

structure FieldDiff where
  fieldName : String
  oldValue : String
  newValue : String
  deriving DecidableEq, Repr

structure DiffEntry where
  kind : DiffKind := .added
  elementType : String := ""
  /-- Set for removed, moved and modified entries. -/
  oldPath : String := ""
  /-- Set for added, moved and modified entries. -/
  newPath : String := ""
  fieldDiffs : List FieldDiff := []
  deriving DecidableEq, Repr, Inhabited

structure DiffDiagnostic where
  message : String
  elementType : String
  deriving DecidableEq, Repr

structure DiffReport where
  entries : List DiffEntry := []
  diagnostics : List DiffDiagnostic := []
  deriving DecidableEq, Repr

@[ext] theorem DiffReport.ext' {r s : DiffReport} (he : r.entries = s.entries)
    (hd : r.diagnostics = s.diagnostics) : r = s := by
  cases r; cases s; simp_all

/-- `DiffReport::merge`. -/
def DiffReport.merge (report other : DiffReport) : DiffReport :=
  ⟨report.entries ++ other.entries, report.diagnostics ++ other.diagnostics⟩

@[simp] theorem DiffReport.merge_entries (r s : DiffReport) :
    (r.merge s).entries = r.entries ++ s.entries := rfl
@[simp] theorem DiffReport.merge_diagnostics (r s : DiffReport) :
    (r.merge s).diagnostics = r.diagnostics ++ s.diagnostics := rfl

/-- The path an entry sorts by: the new path for a moved entry. -/
def sortKeyFor (entry : DiffEntry) : String :=
  match entry.kind with
  | .added | .modified | .moved => entry.newPath
  | .removed => entry.oldPath

/-- The comparator of the entry sort. -/
def entryBefore (first second : DiffEntry) : Bool :=
  if sortKeyFor first ≠ sortKeyFor second then decide (sortKeyFor first < sortKeyFor second)
  else decide (first.elementType < second.elementType)

/-- The comparator of the diagnostic sort. -/
def diagnosticBefore (first second : DiffDiagnostic) : Bool :=
  if first.message ≠ second.message then decide (first.message < second.message)
  else decide (first.elementType < second.elementType)

/-- `DiffReport::sortDeterministically`. `std::ranges::sort` is not stable;
this is one of its outcomes. -/
def DiffReport.sortDeterministically (report : DiffReport) : DiffReport :=
  ⟨report.entries.insertionSort fun a b => entryBefore b a = false,
    report.diagnostics.insertionSort fun a b => diagnosticBefore b a = false⟩

end ParseX

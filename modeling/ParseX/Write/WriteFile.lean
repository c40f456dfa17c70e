import ParseX.Write.Fidelity
import Mathlib.Logic.Function.Basic

/-! # Saving the document

`WriteEngine::write` saves the document to a temporary path with a fixed suffix,
renames it to the target and removes it when a step fails. The call is all or
nothing exactly when nobody else uses the temporary path. -/
namespace ParseX
open Cpp

/-! ## The file system -/

abbrev Path := String

/-- What a path holds. -/
inductive Entry where
  | file (content : String)
  | directory
  deriving DecidableEq, Repr

abbrev FileSystem := Path → Option Entry

/-- `std::filesystem::rename` that succeeds: the target is replaced. -/
def renamePath (fs : FileSystem) (source target : Path) : FileSystem :=
  Function.update (Function.update fs target (fs source)) source none

/-- `std::filesystem::remove` that succeeds. -/
def removePath (fs : FileSystem) (path : Path) : FileSystem := Function.update fs path none

/-- What `xmlSaveFormatFileEnc` does to its path: all of the document stands
there, or what a failed save leaves. -/
inductive SaveOutcome where
  | saved
  | failed (left : Option Entry)
  deriving DecidableEq, Repr

/-- What libxml2 and the operating system do during one call; errors come with
their texts. -/
structure Environment where
  treeError : Option String := none
  save : SaveOutcome := .saved
  renameError : Option String := none
  /-- Whether the clean-up can remove the temporary path. -/
  removed : Bool := true

/-! ## The call -/

/-- What `WriteEngine::write` throws. -/
inductive SaveFailure where
  | document (failure : WriteFailure)
  | tree (message : String)
  | unwritable (path : Path)
  | notMoved (path : Path) (message : String)
  deriving DecidableEq, Repr

/-- `what()` of the failures of saving. -/
def SaveFailure.message : SaveFailure → Option String
  | .document _ => none
  | .tree message => some message
  | .unwritable path =>
    some ("parsex: failed to write XML file '" ++ path ++ "' (unwritable path or I/O error)")
  | .notMoved path message =>
    some ("parsex: failed to move written file into place '" ++ path ++ "': " ++ message)

/-- The temporary path beside the target. -/
def tempPathOf (outputPath : Path) : Path := outputPath ++ ".parsex-tmp"

/-- The handler around saving and renaming: remove the temporary path, ignore
errors, throw on. -/
def dropTemp (env : Environment) (tempPath : Path) (failure : SaveFailure) (fs : FileSystem) :
    Except SaveFailure Unit × FileSystem :=
  (.error failure, if env.removed then removePath fs tempPath else fs)

/-- Save to the temporary path and rename it into place. -/
def saveAndMove (env : Environment) (content : String) (outputPath : Path) (fs : FileSystem) :
    Except SaveFailure Unit × FileSystem :=
  let tempPath := tempPathOf outputPath
  match env.save with
  | .failed left =>
    dropTemp env tempPath (.unwritable tempPath) (Function.update fs tempPath left)
  | .saved =>
    let fs := Function.update fs tempPath (some (.file content))
    match env.renameError with
    | some message => dropTemp env tempPath (.notMoved outputPath message) fs
    | none => (.ok (), renamePath fs tempPath outputPath)

section
variable {D : Type} [Double D] [LibXml] (serialize : XmlDocument → String)

/-- `WriteEngine::write` on a file system. -/
def WriteEngine.writeTo (env : Environment) (project : ParsedProject D) (outputPath : Path)
    (fs : FileSystem) : Except SaveFailure Unit × FileSystem :=
  if (WriteEngine.validate project).hasErrors then
    (.error (.document (.writeError (WriteEngine.validate project))), fs)
  else
    match env.treeError with
    | some message => (.error (.tree message), fs)
    | none =>
      if hasBlankText (buildDocument project).root then (.error (.document .blankText), fs)
      else saveAndMove env (serialize (buildDocument project)) outputPath fs

/-- A call that throws changes nothing; one that returns puts the content at the
target and changes nothing else. -/
def AllOrNothing (content : String) (outputPath : Path) (fs : FileSystem)
    (outcome : Except SaveFailure Unit × FileSystem) : Prop :=
  match outcome.1 with
  | .error _ => outcome.2 = fs
  | .ok () => outcome.2 = Function.update fs outputPath (some (.file content))

/-- Nothing is at the temporary path, and the clean-up after a failure succeeds.
A clean-up that fails must leave what was there before. -/
def TempUndisturbed (env : Environment) (content : String) (before : Option Entry) : Prop :=
  match env.save with
  | .failed left => if env.removed then before = none else before = left
  | .saved =>
    if env.renameError = none ∨ env.removed = true then before = none
    else before = some (.file content)

/-- The call stops before it saves. -/
def StopsEarly (env : Environment) (project : ParsedProject D) : Prop :=
  (WriteEngine.validate project).hasErrors = true ∨ env.treeError ≠ none ∨
    hasBlankText (buildDocument project).root = true

end

/-! ## All or nothing -/

theorem tempPathOf_ne (outputPath : Path) : tempPathOf outputPath ≠ outputPath := by
  intro he
  have hlength := congrArg String.length he
  rw [tempPathOf, String.length_append, show ".parsex-tmp".length = 11 from rfl] at hlength
  omega

theorem update_eq_self {fs : FileSystem} {path : Path} {entry : Option Entry} :
    Function.update fs path entry = fs ↔ fs path = entry := by
  rw [Function.update_eq_self_iff, eq_comm]

/-- The clean-up restores the file system exactly when it leaves what was there. -/
theorem dropTemp_iff {env : Environment} {tempPath outputPath : Path} {failure : SaveFailure}
    {fs : FileSystem} {left : Option Entry} {content : String} :
    AllOrNothing content outputPath fs
      (dropTemp env tempPath failure (Function.update fs tempPath left)) ↔
      if env.removed then fs tempPath = none else fs tempPath = left := by
  by_cases hremoved : env.removed = true
  · rw [dropTemp, if_pos hremoved, if_pos hremoved, removePath, Function.update_idem]
    exact update_eq_self
  · rw [dropTemp, if_neg hremoved, if_neg hremoved]
    exact update_eq_self

/-- The rename takes the temporary path away, so it must not have been there. -/
theorem renamed_iff {content : String} {outputPath : Path} {fs : FileSystem} :
    AllOrNothing content outputPath fs (.ok (), renamePath
      (Function.update fs (tempPathOf outputPath) (some (.file content))) (tempPathOf outputPath)
        outputPath) ↔ fs (tempPathOf outputPath) = none := by
  have hne := tempPathOf_ne outputPath
  have hrename : renamePath (Function.update fs (tempPathOf outputPath) (some (.file content)))
      (tempPathOf outputPath) outputPath = Function.update
        (Function.update fs outputPath (some (.file content))) (tempPathOf outputPath) none := by
    rw [renamePath, Function.update_self, Function.update_comm hne.symm, Function.update_idem,
      Function.update_comm hne]
  show renamePath _ _ _ = _ ↔ _
  rw [hrename, update_eq_self, Function.update_of_ne hne]

theorem saveAndMove_iff {env : Environment} {content : String} {outputPath : Path}
    {fs : FileSystem} : AllOrNothing content outputPath fs (saveAndMove env content outputPath fs) ↔
      TempUndisturbed env content (fs (tempPathOf outputPath)) := by
  unfold saveAndMove TempUndisturbed
  cases env.save with
  | failed left => exact dropTemp_iff
  | saved =>
    cases hrename : env.renameError with
    | none => simpa using renamed_iff
    | some message => simpa [hrename] using dropTemp_iff

/-- A call is all or nothing exactly when it stops before it saves or does not
disturb the temporary path. -/
theorem write_all_or_nothing_iff {D : Type} [Double D] [LibXml] (serialize : XmlDocument → String)
    (env : Environment) (project : ParsedProject D) (outputPath : Path) (fs : FileSystem) :
    AllOrNothing (serialize (buildDocument project)) outputPath fs
      (WriteEngine.writeTo serialize env project outputPath fs) ↔
      StopsEarly env project ∨ TempUndisturbed env (serialize (buildDocument project))
        (fs (tempPathOf outputPath)) := by
  unfold WriteEngine.writeTo StopsEarly
  by_cases herrors : (WriteEngine.validate project).hasErrors = true
  · simp [herrors, AllOrNothing]
  · cases htree : env.treeError with
    | some message => simp [herrors, AllOrNothing]
    | none =>
      by_cases hblank : hasBlankText (buildDocument project).root = true
      · simp [herrors, hblank, AllOrNothing]
      · simpa [herrors, hblank] using saveAndMove_iff

namespace Literal

/-- A successful call takes somebody else's file at the temporary path away. -/
theorem foreign_file_lost :
    let fs : FileSystem := fun path =>
      if path = "out.arxml.parsex-tmp" then some (.file "keep") else none
    let outcome := WriteEngine.writeTo (fun _ => "<AUTOSAR/>") {}
      ({} : ParsedProject WholeDouble) "out.arxml" fs
    outcome.1 = .ok () ∧ outcome.2 "out.arxml.parsex-tmp" = none ∧
      ¬ AllOrNothing "<AUTOSAR/>" "out.arxml" fs outcome := by
  intro fs outcome
  have hok : outcome.1 = .ok () := by decide +kernel
  have hgone : outcome.2 "out.arxml.parsex-tmp" = none := by decide +kernel
  refine ⟨hok, hgone, fun h => ?_⟩
  rw [AllOrNothing, hok] at h
  have hkept := congrFun h "out.arxml.parsex-tmp"
  rw [hgone, Function.update_of_ne (by decide)] at hkept
  exact absurd hkept (by decide)

end Literal

end ParseX

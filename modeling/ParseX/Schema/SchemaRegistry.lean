import ParseX.Schema.AtomicWrite

/-! # The schema registry

`resolveSchema`: the source schema of a release, or the copy that an earlier
call left in the cache. A call may fail to write the cache and may die between
any two of its steps. -/
namespace ParseX
open Cpp

/-- The regular files of a tree, by path. -/
abbrev Files := String → Option Bytes

/-! ## Failures and results -/

inductive SchemaResolutionReason where
  | unsupportedRelease
  | schemaFileMissing
  | schemaFileCorrupt
  deriving DecidableEq, Repr

structure SchemaResolutionError where
  release : String
  reason : SchemaResolutionReason
  detail : String
  deriving DecidableEq, Repr

structure SchemaResolutionResult (Schema : Type) where
  autosarRelease : String
  sourceXsdPath : String
  schema : Schema
  wasCacheHit : Bool
  deriving DecidableEq, Repr

/-- Where the registry looks, and what libxml2 makes of a schema and the `xml.xsd`
beside it. -/
structure Registry (Schema : Type) where
  /-- `$PARSEX_SCHEMA_DIR` when it is set, the install default, the source tree. -/
  schemaDirs : List String
  cacheDir : String
  parse : Bytes → Option Bytes → Except String Schema

/-- Where a call can die: its steps in between read only. -/
inductive CrashPoint where
  | beforeEntry
  | beforeSidecar
  | beforeDrop
  | beforeParse
  deriving DecidableEq, Repr

/-- What goes wrong in one call. -/
structure Faults where
  /-- Reading the source or writing its copy throws. -/
  entryFails : Bool := false
  sidecarFails : Bool := false
  /-- The entry cannot be removed again. -/
  dropFails : Bool := false
  crash : Option CrashPoint := none
  deriving DecidableEq, Repr

/-! ## Paths -/

/-- The `xml.xsd` beside a schema. -/
def siblingPath (path : String) : String := appendPath (parentPath path) "xml.xsd"

variable {Schema : Type}

def Registry.cachePathFor (registry : Registry Schema) (release : String) : String :=
  appendPath registry.cacheDir (release ++ ".xsd.cache")

/-- The path of the sidecar beside the entry of a release. -/
def Registry.sidecarFor (registry : Registry Schema) (release : String) : String :=
  siblingPath (registry.cachePathFor release)

def Registry.findSourceFile (registry : Registry Schema) (sources : Files) (release : String) :
    Option String :=
  (registry.schemaDirs.map fun directory => appendPath directory (release ++ ".xsd")).find?
    fun candidate => (sources candidate).isSome

/-! ## The call -/

def Registry.parseSchemaFile (registry : Registry Schema) (files : Files) (xsdPath release : String) :
    Except SchemaResolutionError Schema :=
  let corrupt (firstError : String) : SchemaResolutionError :=
    { release, reason := .schemaFileCorrupt, detail := "cannot parse schema: " ++ xsdPath ++
        if firstError = "" then "" else " (" ++ firstError ++ ")" }
  match files xsdPath with
  | none => .error (corrupt "")
  | some bytes =>
    match registry.parse bytes (files (siblingPath xsdPath)) with
    | .error firstError => .error (corrupt firstError)
    | .ok schema => .ok schema

def unsupportedRelease (release : String) : SchemaResolutionError where
  release := release
  reason := .unsupportedRelease
  detail := "no " ++ release ++ ".xsd in schema sources ($PARSEX_SCHEMA_DIR, install default, " ++
    "source tree); see resources/schemas/README.md"

/-- The handler: remove the entry, ignore errors. A result says whether to parse
the cached copy; no result that the call died. -/
def dropEntry (faults : Faults) (cachePath : String) (cache : Files) : Option Bool × Files :=
  if faults.crash = some .beforeDrop then (none, cache)
  else (some false, if faults.dropFails then cache else Function.update cache cachePath none)

/-- The `try` block: copy the schema, then the `xml.xsd` beside it. -/
def stage (faults : Faults) (xsd : Bytes) (sibling : Option Bytes) (cachePath : String)
    (cache : Files) : Option Bool × Files :=
  if faults.crash = some .beforeEntry then (none, cache)
  else if faults.entryFails then dropEntry faults cachePath cache
  else
    let cache := Function.update cache cachePath (some xsd)
    if faults.crash = some .beforeSidecar then (none, cache)
    else
      match sibling with
      | none => (some true, cache)
      | some bytes =>
        if faults.sidecarFails then dropEntry faults cachePath cache
        else (some true, Function.update cache (siblingPath cachePath) (some bytes))

/-- The end of the call: parse at `parsePath`, unless the call dies before. -/
def Registry.finish (registry : Registry Schema) (faults : Faults) (files : Files)
    (originPath parsePath release : String) (hit : Bool) :
    Option (Except SchemaResolutionError (SchemaResolutionResult Schema)) :=
  if faults.crash = some .beforeParse then none
  else
    match registry.parseSchemaFile files parsePath release with
    | .error failure => some (.error failure)
    | .ok schema => some (.ok {
        autosarRelease := release, sourceXsdPath := originPath, schema, wasCacheHit := hit })

/-- `resolveSchema`: its outcome, none for a call that dies, and the cache it
leaves. -/
def Registry.resolveSchema (registry : Registry Schema) (sources : Files) (faults : Faults)
    (cache : Files) (release : String) :
    Option (Except SchemaResolutionError (SchemaResolutionResult Schema)) × Files :=
  let cachePath := registry.cachePathFor release
  match cache cachePath with
  | some _ => (registry.finish faults cache cachePath cachePath release true, cache)
  | none =>
    match registry.findSourceFile sources release with
    | none => (some (.error (unsupportedRelease release)), cache)
    | some sourcePath =>
      match stage faults ((sources sourcePath).getD []) (sources (siblingPath sourcePath)) cachePath
        cache with
      | (none, cache) => (none, cache)
      | (some true, cache) =>
        (registry.finish faults cache sourcePath cachePath release false, cache)
      | (some false, cache) =>
        (registry.finish faults sources sourcePath sourcePath release false, cache)

/-! ## Paths apart -/

theorem appendPath_inj {directory path other : String}
    (h : appendPath directory path = appendPath directory other) : path = other := by
  unfold appendPath at h
  have hletters := congrArg String.toList h
  simp only [String.toList_append] at hletters
  exact String.toList_inj.mp (List.append_cancel_left hletters)

theorem getLast?_appendPath {directory path : String} {c : Char}
    (h : path.toList.getLast? = some c) : (appendPath directory path).toList.getLast? = some c := by
  rw [appendPath, String.toList_append, List.getLast?_append, h, Option.some_or]

/-- Different releases have different entries. -/
theorem Registry.cachePathFor_inj {registry : Registry Schema} {release other : String}
    (h : registry.cachePathFor release = registry.cachePathFor other) : release = other := by
  have hname := congrArg String.toList (appendPath_inj h)
  simp only [String.toList_append] at hname
  exact String.toList_inj.mp (List.append_cancel_right hname)

/-- No entry is a sidecar. -/
theorem Registry.cachePathFor_ne_siblingPath (registry : Registry Schema) (release path : String) :
    registry.cachePathFor release ≠ siblingPath path := by
  intro h
  have hentry : (registry.cachePathFor release).toList.getLast? = some 'e' := by
    refine getLast?_appendPath ?_
    rw [String.toList_append, List.getLast?_append]
    rfl
  have hsidecar : (siblingPath path).toList.getLast? = some 'd' := getLast?_appendPath rfl
  rw [h, hsidecar] at hentry
  exact absurd hentry (by decide)

/-! ## What a call leaves in the cache -/

/-- The entry that a call writes is there when it ends. -/
def Faults.keepsEntry (faults : Faults) (sibling : Option Bytes) : Bool :=
  faults.crash != some .beforeEntry && !faults.entryFails &&
    (faults.crash == some .beforeSidecar || sibling.isNone || !faults.sidecarFails ||
      faults.dropFails || faults.crash == some .beforeDrop)

/-- The call writes the sidecar. -/
def Faults.writesSidecar (faults : Faults) (sibling : Option Bytes) : Bool :=
  faults.crash != some .beforeEntry && !faults.entryFails &&
    faults.crash != some .beforeSidecar && sibling.isSome && !faults.sidecarFails

/-- The sidecar beside the entry when the call ends. -/
def Faults.sidecarAfter (faults : Faults) (sibling before : Option Bytes) : Option Bytes :=
  if faults.writesSidecar sibling then sibling else before

/-- What the `try` block and its handler leave: nothing, the entry alone, or the
entry and its sidecar. -/
inductive Staged (faults : Faults) (xsd : Bytes) (sibling : Option Bytes) (cachePath : String)
    (cache : Files) : Option Bool × Files → Prop where
  | nothing {parseCopy : Option Bool} : faults.keepsEntry sibling = false →
      parseCopy ≠ some true → Staged faults xsd sibling cachePath cache (parseCopy, cache)
  | entry {parseCopy : Option Bool} : faults.keepsEntry sibling = true →
      faults.writesSidecar sibling = false → Staged faults xsd sibling cachePath cache
        (parseCopy, Function.update cache cachePath (some xsd))
  | both {bytes : Bytes} : sibling = some bytes → faults.keepsEntry sibling = true →
      faults.writesSidecar sibling = true → Staged faults xsd sibling cachePath cache
        (some true, Function.update (Function.update cache cachePath (some xsd))
          (siblingPath cachePath) (some bytes))

theorem stage_staged {faults : Faults} {xsd : Bytes} {sibling : Option Bytes} {cachePath : String}
    {cache : Files} (habsent : cache cachePath = none) :
    Staged faults xsd sibling cachePath cache (stage faults xsd sibling cachePath cache) := by
  have hsame : Function.update cache cachePath none = cache :=
    Function.update_eq_self_iff.mpr habsent.symm
  rw [stage]
  split
  case isTrue hcrash => exact .nothing (by simp [Faults.keepsEntry, hcrash]) nofun
  case isFalse hentry =>
    split
    case isTrue hfails =>
      have hkeeps : faults.keepsEntry sibling = false := by simp [Faults.keepsEntry, hfails]
      rw [dropEntry, hsame, ite_self]
      split
      · exact .nothing hkeeps nofun
      · exact .nothing hkeeps nofun
    case isFalse hwritten =>
      dsimp only
      split
      case isTrue hcrash =>
        exact .entry (by simp [Faults.keepsEntry, hwritten, hcrash])
          (by simp [Faults.writesSidecar, hcrash])
      case isFalse hsidecar =>
        cases sibling with
        | none =>
          exact .entry (by simp [Faults.keepsEntry, hentry, hwritten])
            (by simp [Faults.writesSidecar])
        | some bytes =>
          dsimp only
          split
          case isTrue hfails =>
            have hwrites : faults.writesSidecar (some bytes) = false := by
              simp [Faults.writesSidecar, hfails]
            rw [dropEntry]
            split
            case isTrue hcrash =>
              exact .entry (by simp [Faults.keepsEntry, hwritten, hcrash]) hwrites
            case isFalse hdrop =>
              split
              case isTrue hdropFails =>
                exact .entry (by simp [Faults.keepsEntry, hentry, hwritten, hdropFails]) hwrites
              case isFalse hdropped =>
                rw [Function.update_idem, hsame]
                exact .nothing (by simp [Faults.keepsEntry, hsidecar, hfails, hdropped, hdrop]) nofun
          case isFalse hstaged =>
            exact .both rfl (by simp [Faults.keepsEntry, hentry, hwritten, hstaged])
              (by simp [Faults.writesSidecar, hentry, hwritten, hsidecar, hstaged])

end ParseX

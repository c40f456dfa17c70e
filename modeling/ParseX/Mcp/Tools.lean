import ParseX.Cli.ExitCode
import ParseX.Export.CsvWriter
import ParseX.Export.DbcWriter
import ParseX.JsonContract.Conformance
import ParseX.Mcp.Server

/-! # The five tools

What each tool does with its arguments, and that its answers meet the contract. -/
namespace ParseX
open Cpp Mcp CanDb

/-! ## The engine -/

/-- What both surfaces call: the parser over a disk, the schema registry, the validator and the write
engine, in the state in which one call finds them. -/
structure Engine (D : Type) [Double D] where
  deliver : Bytes → Loader.Delivery
  disk : String → Option Bytes
  /-- What loading a file throws, with the texts of the system and of libxml2. -/
  loadFailure : String → EngineException
  spoken : ∀ path, (loadFailure path).what ≠ ""
  library : SchemaLibrary
  registry : Registry library.XmlSchema
  sources : Files
  cache : Files
  faults : Faults
  serialize : XmlDocument → String
  environment : Environment
  files : FileSystem

section
variable {D : Type} [Double D] (engine : Engine D)

def Engine.raised : ParseError → EngineException
  | .unread path | .unloaded path => engine.loadFailure path
  | .rejected failure => failure.exception

def Engine.parseFile (path : String) : Except EngineException (ParsedFile D) :=
  (ParseX.parseFile engine.deliver engine.disk path).mapError engine.raised

/-- None for a call that dies. -/
def Engine.resolveSchema (release : String) :
    Option (Except EngineException (SchemaResolutionResult engine.library.XmlSchema)) :=
  (engine.registry.resolveSchema engine.sources engine.faults engine.cache release).1.map fun outcome =>
    outcome.mapError SchemaResolutionError.exception

def Engine.write [LibXml] (project : ParsedProject D) (outputPath : Path) : Except EngineException Unit :=
  (WriteEngine.writeTo engine.serialize engine.environment project outputPath engine.files).1.mapError
    SaveFailure.exception

/-! ## Arguments and results -/

def cannotUseAt (value : Json) : Thrown :=
  .exception (utf8 ("[json.exception.type_error.304] cannot use at() with " ++ typeName value))

def keyNotFound (key : String) : Thrown :=
  .exception (utf8 ("[json.exception.out_of_range.403] key '" ++ key ++ "' not found"))

def mustBeBoolean (value : Json) : Thrown :=
  .exception (utf8 ("[json.exception.type_error.302] type must be boolean, but is " ++ typeName value))

/-- `args.at(key).get<std::string>()`; a string that was parsed is UTF-8. -/
def textAt (args : Json) (key : String) : Except Thrown String :=
  match args with
  | .object _ =>
    match args.member? key with
    | none => .error (keyNotFound key)
    | some value =>
      match value.text? with
      | some text => .ok text
      | none => .error (mustBeString value)
  | _ => .error (cannotUseAt args)

/-- `args.value(key, false)`. -/
def flagOr (args : Json) (key : String) : Except Thrown Bool :=
  match args with
  | .object _ =>
    match args.member? key with
    | none => .ok false
    | some (.boolean flag) => .ok flag
    | some value => .error (mustBeBoolean value)
  | _ => .error (cannotUseValue args)

theorem textAt_ofMembers {members : List (String × Json)}
    (hdistinct : ((members.map Prod.fst).map utf8).Nodup) {key text : String}
    (h : (key, .text text) ∈ members) : textAt (.ofMembers members) key = .ok text := by
  obtain ⟨object, hobject⟩ : ∃ object, Json.ofMembers members = .object object := Json.ofMembers_object _
  have hmember := Json.member?_ofMembers hdistinct h
  rw [hobject] at hmember ⊢
  simp [textAt, hmember]

theorem flagOr_ofMembers {members : List (String × Json)}
    (hdistinct : ((members.map Prod.fst).map utf8).Nodup) {key : String} {flag : Bool}
    (h : (key, .boolean flag) ∈ members) : flagOr (.ofMembers members) key = .ok flag := by
  obtain ⟨object, hobject⟩ : ∃ object, Json.ofMembers members = .object object := Json.ofMembers_object _
  have hmember := Json.member?_ofMembers hdistinct h
  rw [hobject] at hmember ⊢
  simp [flagOr, hmember]

/-- The exception reaches the caller of the tool. -/
def thrown {α : Type} (outcome : Except EngineException α) : Except Thrown α :=
  outcome.mapError fun ex => .exception (utf8 ex.what)

def packed (structured : Json) (summary : String) : Json :=
  .ofMembers [("structuredContent", structured), ("summary", .text summary)]

/-! ## Parse -/

def humanParseSummary (file : ParsedFile D) : String :=
  "Parsed " ++ file.sourcePath ++ "\n" ++
  "  release: " ++ (if file.autosarRelease = "" then "(unknown)" else file.autosarRelease) ++ "\n" ++
  "  clusters: " ++ toString file.clusters.length ++ "\n" ++
  "  ecuInstances: " ++ toString file.ecuInstances.length ++ "\n" ++
  "  frames: " ++ toString file.frames.length ++ "\n" ++
  "  pdus: " ++ toString file.pdus.length ++ "\n" ++
  "  signals: " ++ toString file.signals.length ++ "\n" ++
  "  signalGroups: " ++ toString file.signalGroups.length ++ "\n"

def warningToJson (warning : Warning) : Json := .ofPresent [("message", some (.text warning.message))]

def parseEnvelope (file : ParsedFile D) : Json :=
  wrapEnvelope "parseReport" (.ofPresent [("sourcePath", some (.text file.sourcePath)),
    ("autosarRelease", some (.text file.autosarRelease)),
    ("counts", some (.ofMembers [("clusters", .integer file.clusters.length),
      ("ecuInstances", .integer file.ecuInstances.length), ("frames", .integer file.frames.length),
      ("pdus", .integer file.pdus.length), ("signals", .integer file.signals.length),
      ("signalGroups", .integer file.signalGroups.length)])),
    ("warnings", some (.array (file.warnings.map warningToJson)))])

def parseTool (args : Json) : Except Thrown Json := do
  let path ← textAt args "path"
  let file ← thrown (engine.parseFile path)
  return packed (parseEnvelope file) (humanParseSummary file)

/-! ## Validate -/

def strictModeOf (strict : Bool) : StrictMode := if strict then .strict else .lenient

def humanErrorLines (error : ValidationError) : String :=
  "  [" ++ (if error.severity = .warning then "warning" else "error") ++ "] " ++ error.code ++ ": " ++
    error.message ++ "\n" ++
    match error.path with
    | some path => "    path: " ++ path ++ "\n"
    | none => ""

def humanValidateSummary (result : ValidationResult) (strict : Bool) : String :=
  (if overallPassed result (strictModeOf strict) then "Validation passed" else "Validation failed") ++
    " (" ++ toString result.errors.length ++ " issues)\n" ++
    String.join (result.errors.map humanErrorLines)

/-- The verdict of the mode overwrites the one of the result. -/
def validateEnvelope (result : ValidationResult) (strict : Bool) : Json :=
  let envelope := result.toJson
  envelope.set "payload" (((envelope.member? "payload").getD .null).set "passed"
    (.boolean (overallPassed result (strictModeOf strict))))

def failureFinding (code message : String) : ValidationError := { severity := .error, code, message }

def noReleaseFinding : ValidationError :=
  failureFinding "schema.no_release" "cannot determine AUTOSAR release for validation"

/-- What is found in a file that was parsed; undefined where the checks are. -/
def Engine.validateParsed (file : ParsedFile D) : Option ValidationResult :=
  if file.autosarRelease = "" then some ⟨[noReleaseFinding]⟩
  else
    match engine.resolveSchema file.autosarRelease with
    | none => none
    | some (.error ex) => some ⟨[failureFinding "validator.error" ex.what]⟩
    | some (.ok resolved) =>
      (validateAll engine.library { files := [file] } (some resolved.schema)).map
        (ValidationResult.merge {})

/-- The body that `validateTool` and `runValidateCommand` have in common. -/
def Engine.validateReport (path : String) : Option ValidationResult :=
  match engine.parseFile path with
  | .error ex => some ⟨[failureFinding "parse.failed" ex.what]⟩
  | .ok file => engine.validateParsed file

def validateTool (args : Json) : Option (Except Thrown Json) :=
  match textAt args "path", flagOr args "strict" with
  | .ok path, .ok strict => (engine.validateReport path).map fun result =>
      .ok (packed (validateEnvelope result strict) (humanValidateSummary result strict))
  | .error ex, _ | .ok _, .error ex => some (.error ex)

/-! ## Diff -/

def humanDiffSummary (report : DiffReport) : String :=
  if report.entries = [] ∧ report.diagnostics = [] then "No differences\n" else report.toText

/-- The body that `diffTool` and `runDiffCommand` have in common. -/
def Engine.diffFiles (base target : String) : Except EngineException DiffReport := do
  let oldFile ← engine.parseFile base
  let newFile ← engine.parseFile target
  return diff { files := [oldFile] } { files := [newFile] }

def diffTool (args : Json) : Except Thrown Json := do
  let base ← textAt args "basePath"
  let target ← textAt args "targetPath"
  let report ← thrown (engine.diffFiles base target)
  return packed report.toJson (humanDiffSummary report)

/-! ## Write -/

def writeEnvelope (input output : Path) (applied success : Bool) : Json :=
  wrapEnvelope "writeResult" (.ofPresent [("input", some (.text input)), ("output", some (.text output)),
    ("applied", some (.boolean applied)), ("success", some (.boolean success))])

def humanWriteSummary (input output : Path) (applied : Bool) : String :=
  if applied then "Wrote " ++ output ++ " from " ++ input ++ "\n"
  else "DRY RUN — no changes written. Would write " ++ output ++ " from " ++ input ++
    " (use apply:true to apply)\n"

/-- The body that `writeTool` and `runWriteCommand` have in common: whether it succeeds. -/
def Engine.writeFile [LibXml] (input output : Path) (apply : Bool) : Except EngineException Bool := do
  let file ← engine.parseFile input
  if apply then
    engine.write { files := [file] } output
    return true
  else return !(WriteEngine.validate { files := [file] : ParsedProject D }).hasErrors

def writeTool [LibXml] (args : Json) : Except Thrown Json := do
  let path ← textAt args "path"
  let output ← textAt args "outputPath"
  let apply ← flagOr args "apply"
  let success ← thrown (engine.writeFile path output apply)
  return packed (writeEnvelope path output apply success) (humanWriteSummary path output apply)

/-! ## Export -/

def exportSignalCount (database : ExportDatabase D) : Nat :=
  (database.frames.map fun frame => frame.signals.length).sum

/-- The text is in the payload when it is written to no file. -/
def exportEnvelope (path format : String) (output : Option String) (database : ExportDatabase D)
    (text : String) : Json :=
  wrapEnvelope "exportResult" (.ofPresent [("sourcePath", some (.text path)),
    ("format", some (.text format)), ("output", some ((output.map Json.text).getD .null)),
    ("counts", some (.ofPresent [("frames", some (.integer database.frames.length)),
      ("signals", some (.integer (exportSignalCount database)))])),
    ("warnings", some (.array (database.warnings.map warningToJson))),
    ("content", if output.isNone then some (.text text) else none)])

def exportText [CharsDouble D] (format : String) (database : ExportDatabase D) : String :=
  if format = "dbc" then toDbc database else toCsv database

def unknownFormat : Thrown := .exception (utf8 "format must be \"dbc\" or \"csv\"")

def humanExportSummary (path format : String) (database : ExportDatabase D) : String :=
  "Exported " ++ toString database.frames.length ++ " frames, " ++
    toString (exportSignalCount database) ++ " signals as " ++ format ++ " from " ++ path ++
    if database.warnings = [] then "" else " (" ++ toString database.warnings.length ++ " warnings)"

def exportTool [CharsDouble D] (args : Json) : Except Thrown Json := do
  let path ← textAt args "path"
  let format ← textAt args "format"
  if format ≠ "dbc" ∧ format ≠ "csv" then .error unknownFormat
  else
    let file ← thrown (engine.parseFile path)
    let database := buildExportDatabase file
    return packed (exportEnvelope path format none database (exportText format database))
      (humanExportSummary path format database)

end

end ParseX

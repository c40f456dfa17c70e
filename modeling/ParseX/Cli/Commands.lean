import ParseX.Mcp.ToolAnswers
import ParseX.Telemetry.TraceJson

/-! # The command line

The five commands with their streams, the checks of their options and the error boundary of `main`, and
that they report what the tools report. -/
namespace ParseX
open Cpp Mcp CanDb Telemetry

/-! ## The process -/

structure CliOptions where
  jsonOutput : Bool := false
  trace : Bool := false

/-- The options of a subcommand as they are given; none for one that is left out. -/
inductive CommandLine where
  | parseCmd (parseInput : Option String)
  | validateCmd (validateInput : Option String) (validateStrict : Bool)
  | diffCmd (diffBase diffTarget : Option String)
  | writeCmd (writeInput writeOutput : Option String) (writeApply : Bool)
  | exportCmd (exportInput exportFormat : Option String) (exportOutput : String)
  /-- Another line that CLI11 rejects: an option that does not exist, or no subcommand. -/
  | malformed (args : List String)

/-- What `app.exit` makes of a `CLI::ParseError`: CLI11's message on the standard error and CLI11's exit
code, which is not that of success. -/
structure CliFailure where
  message : String
  status : Nat
  failed : status ≠ 0

/-- What the process has from outside. -/
structure Invocation where
  argv : List String
  /-- `PARSEX_SCHEMA_CACHE_DIR`. -/
  cacheDirEnv : Option String
  /-- The value that CLI11 has bound to the option. -/
  schemaCacheDir : String
  defaultCacheDir : String
  /-- `dump(2)` of a value whose strings are UTF-8. -/
  dump : Json → String
  /-- The trace when the command ends. -/
  spans : List Span
  /-- What `writeCacheAtomically` does. -/
  writeCacheAtomically : Path → String → Except EngineException Unit
  /-- `CLI::ExistingFile`. -/
  existingFile : String → Bool
  /-- How CLI11 ends a line that it rejects. -/
  exit : CommandLine → CliFailure

def resolveSchemaCacheDir (argv : List String) (env : Option String) (boundValue : String) :
    String × String :=
  if argv.tail.any fun arg => arg = "--schema-cache-dir" || arg.startsWith "--schema-cache-dir=" then
    (boundValue, "flag")
  else if (env.getD "") ≠ "" then (env.getD "", "env")
  else if boundValue ≠ "" then (boundValue, "config")
  else ("", "default")

/-- The line that `applySchemaCacheDir` logs. -/
def Invocation.debugLine (call : Invocation) : String :=
  let (effective, source) := resolveSchemaCacheDir call.argv call.cacheDirEnv call.schemaCacheDir
  "[debug] schema-cache-dir=" ++ (if effective ≠ "" then effective else call.defaultCacheDir) ++ " (" ++
    source ++ ")\n"

/-- What `emitTraceIfEnabled` writes. -/
def Invocation.traceText (call : Invocation) (opts : CliOptions) : String :=
  if opts.trace then call.dump (traceToJson call.spans) ++ "\n" else ""

/-- How a command ends: what it has written and what it throws. -/
structure Ended where
  stdout : String
  stderr : String
  pendingException : Option EngineException := none

/-- The pending exception is thrown on after the trace. -/
def Invocation.rethrow (call : Invocation) (opts : CliOptions) (ex : EngineException) : Ended where
  stdout := ""
  stderr := call.debugLine ++ call.traceText opts
  pendingException := some ex

/-- The report, in one of its two forms, and the trace. -/
def Invocation.report (call : Invocation) (opts : CliOptions) (envelope : Json) (human : String)
    (warnings : String := "") : Ended where
  stdout := if opts.jsonOutput then call.dump envelope ++ "\n" else human
  stderr := call.debugLine ++ (if opts.jsonOutput then "" else warnings) ++ call.traceText opts

/-! ## The commands -/

section
variable {D : Type} [Double D] (engine : Engine D) (call : Invocation) (opts : CliOptions)

def formatHumanParse (parsed : ParsedFile D) : String :=
  humanParseSummary parsed ++
    if parsed.warnings = [] then ""
    else "  warnings: " ++ toString parsed.warnings.length ++ "\n" ++
      String.join (parsed.warnings.map fun warning => "    - " ++ warning.message ++ "\n")

def buildJsonParse (parsed : ParsedFile D) : Json := parseEnvelope parsed

def runParseCommand (parseInput : String) : Ended :=
  match engine.parseFile parseInput with
  | .error ex => call.rethrow opts ex
  | .ok parsedFile => call.report opts (buildJsonParse parsedFile) (formatHumanParse parsedFile)

def formatHumanValidate (result : ValidationResult) (strict : Bool) : String :=
  humanValidateSummary result strict

def buildJsonValidate (result : ValidationResult) (strict : Bool) : Json := validateEnvelope result strict

/-- Findings do not change the exit code; undefined where the checks are. -/
def runValidateCommand (validateInput : String) (validateStrict : Bool) : Option Ended :=
  (engine.validateReport validateInput).map fun result =>
    call.report opts (buildJsonValidate result validateStrict) (formatHumanValidate result validateStrict)

def formatHumanDiff (report : DiffReport) : String := humanDiffSummary report

def buildJsonDiff (report : DiffReport) : Json := report.toJson

def runDiffCommand (diffBase diffTarget : String) : Ended :=
  match engine.diffFiles diffBase diffTarget with
  | .error ex => call.rethrow opts ex
  | .ok report => call.report opts (buildJsonDiff report) (formatHumanDiff report)

def formatHumanWrite (input output : Path) (applied : Bool) : String :=
  if applied then "Wrote " ++ output ++ " from " ++ input ++ "\n"
  else "Dry-run: would write " ++ output ++ " from " ++ input ++ " (use --apply to apply)\n"

def buildJsonWrite (input output : Path) (applied success : Bool) : Json :=
  writeEnvelope input output applied success

def runWriteCommand [LibXml] (writeInput writeOutput : Path) (writeApply : Bool) : Ended :=
  match engine.writeFile writeInput writeOutput writeApply with
  | .error ex => call.rethrow opts ex
  | .ok success => call.report opts (buildJsonWrite writeInput writeOutput writeApply success)
      (formatHumanWrite writeInput writeOutput writeApply ++
        if !writeApply && !success then "  (would fail: project has write validation errors)\n" else "")

def buildJsonExport (input format outputPath : String) (database : ExportDatabase D) (text : String) :
    Json :=
  exportEnvelope input format (if outputPath = "" then none else some outputPath) database text

def exportWarnings (database : ExportDatabase D) : String :=
  String.join (database.warnings.map fun warning => "parsex: warning: " ++ warning.message ++ "\n")

def humanExport (format outputPath : String) (database : ExportDatabase D) (text : String) : String :=
  if outputPath = "" then text
  else "Exported " ++ toString database.frames.length ++ " frames, " ++
    toString (exportSignalCount database) ++ " signals to " ++ outputPath ++ " (" ++ format ++ ")\n"

/-- The database and the text, which is saved when there is an output. -/
def exportFile [CharsDouble D] (exportInput exportFormat exportOutput : String) :
    Except EngineException (ExportDatabase D × String) := do
  let file ← engine.parseFile exportInput
  let database := buildExportDatabase file
  let text := exportText exportFormat database
  if exportOutput = "" then return (database, text)
  else
    call.writeCacheAtomically exportOutput text
    return (database, text)

def runExportCommand [CharsDouble D] (exportInput exportFormat exportOutput : String) : Ended :=
  match exportFile engine call exportInput exportFormat exportOutput with
  | .error ex => call.rethrow opts ex
  | .ok (database, text) =>
    call.report opts (buildJsonExport exportInput exportFormat exportOutput database text)
      (humanExport exportFormat exportOutput database text) (exportWarnings database)

/-! ## The error boundary -/

/-- A subcommand whose options CLI11 has accepted. -/
inductive Subcommand where
  | parseCmd (input : String)
  | validateCmd (input : String) (strict : Bool)
  | diffCmd (base target : String)
  | writeCmd (input output : String) (apply : Bool)
  | exportCmd (input : String) (format : String) (output : String) (member : format ∈ ["dbc", "csv"])

/-- `required()` and `check(CLI::ExistingFile)`. -/
def Invocation.inputFile (value : Option String) : Option String := value.filter call.existingFile

/-- The subcommand that CLI11 calls back, when the options pass their checks. -/
def Invocation.accept : CommandLine → Option Subcommand
  | .parseCmd parseInput => (call.inputFile parseInput).map .parseCmd
  | .validateCmd validateInput validateStrict =>
    (call.inputFile validateInput).map fun input => .validateCmd input validateStrict
  | .diffCmd diffBase diffTarget => do
    let base ← call.inputFile diffBase
    let target ← call.inputFile diffTarget
    return .diffCmd base target
  | .writeCmd writeInput writeOutput writeApply => do
    let input ← call.inputFile writeInput
    let output ← writeOutput
    return .writeCmd input output writeApply
  | .exportCmd exportInput exportFormat exportOutput => do
    let input ← call.inputFile exportInput
    let format ← exportFormat
    if member : format ∈ ["dbc", "csv"] then return .exportCmd input format exportOutput member
    else none
  | .malformed _ => none

/-- The callback of the subcommand. -/
def runSubcommand [LibXml] [CharsDouble D] : Subcommand → Option Ended
  | .parseCmd input => some (runParseCommand engine call opts input)
  | .validateCmd input strict => runValidateCommand engine call opts input strict
  | .diffCmd base target => some (runDiffCommand engine call opts base target)
  | .writeCmd input output apply => some (runWriteCommand engine call opts input output apply)
  | .exportCmd input format output _ => some (runExportCommand engine call opts input format output)

/-- Line breaks become blanks. -/
def oneLine (msg : String) : String :=
  String.ofList (msg.toList.map fun currentChar =>
    if currentChar = '\n' ∨ currentChar = '\r' then ' ' else currentChar)

theorem oneLine_breaks (msg : String) : '\n' ∉ (oneLine msg).toList ∧ '\r' ∉ (oneLine msg).toList := by
  have hnone (c : Char) (hc : c = '\n' ∨ c = '\r') : c ∉ (oneLine msg).toList := by
    rw [oneLine, String.toList_ofList]
    intro hmem
    obtain ⟨currentChar, -, heq⟩ := List.mem_map.mp hmem
    split at heq
    · rcases hc with rfl | rfl <;> cases heq
    · rename_i hplain
      exact hplain (heq ▸ hc)
  exact ⟨hnone _ (.inl rfl), hnone _ (.inr rfl)⟩

structure Exited where
  stdout : String
  stderr : String
  status : Nat

/-- How the process ends when a callback has ended. -/
def Ended.exited (ended : Ended) : Exited :=
  match ended.pendingException with
  | none => ⟨ended.stdout, ended.stderr, ExitCode.ok.status⟩
  | some ex =>
    ⟨ended.stdout, ended.stderr ++ "parsex: " ++ oneLine ex.what ++ "\n", (classify ex).status⟩

def runMain [LibXml] [CharsDouble D] (line : CommandLine) : Option Exited :=
  match call.accept line with
  | none => some ⟨"", (call.exit line).message, (call.exit line).status⟩
  | some command => (runSubcommand engine call opts command).map Ended.exited

/-! ## How a command ends -/

def Subcommand.kind : Subcommand → String
  | .parseCmd .. => "parseReport"
  | .validateCmd .. => "validationResult"
  | .diffCmd .. => "diffReport"
  | .writeCmd .. => "writeResult"
  | .exportCmd .. => "exportResult"

def Subcommand.IsValidate : Subcommand → Prop
  | .validateCmd .. => True
  | _ => False

def Subcommand.IsExport : Subcommand → Prop
  | .exportCmd .. => True
  | _ => False

variable [LibXml] [CharsDouble D]

/-- The document, the text for people and the warnings that a command has for one result. -/
inductive Reports : Subcommand → Json → String → String → Prop where
  | parseCmd {input : String} {parsed : ParsedFile D} : engine.parseFile input = .ok parsed →
      Reports (.parseCmd input) (buildJsonParse parsed) (formatHumanParse parsed) ""
  | validateCmd {input : String} {strict : Bool} {result : ValidationResult} :
      engine.validateReport input = some result →
      Reports (.validateCmd input strict) (buildJsonValidate result strict)
        (formatHumanValidate result strict) ""
  | diffCmd {base target : String} {report : DiffReport} :
      engine.diffFiles base target = .ok report →
      Reports (.diffCmd base target) (buildJsonDiff report) (formatHumanDiff report) ""
  | writeCmd {input output : String} {apply success : Bool} :
      engine.writeFile input output apply = .ok success →
      Reports (.writeCmd input output apply) (buildJsonWrite input output apply success)
        (formatHumanWrite input output apply ++ if !apply && !success then
          "  (would fail: project has write validation errors)\n" else "") ""
  | exportCmd {input format output : String} {member : format ∈ ["dbc", "csv"]}
      {database : ExportDatabase D} {text : String} :
      exportFile engine call input format output = .ok (database, text) →
      Reports (.exportCmd input format output member)
        (buildJsonExport input format output database text)
        (humanExport format output database text) (exportWarnings database)

/-- The command has reported, or throws on; only the checks of `validate` may be undefined. -/
inductive Ends (command : Subcommand) : Ended → Prop where
  | reported {envelope : Json} {human warnings : String} :
      Reports engine call command envelope human warnings → Contract command.kind envelope →
      Ends command (call.report opts envelope human warnings)
  | rethrown (ex : EngineException) : ¬ command.IsValidate → Ends command (call.rethrow opts ex)

/-- Only an export warns. -/
theorem Reports.warnings_eq {command : Subcommand} {envelope : Json} {human warnings : String}
    (h : Reports engine call command envelope human warnings) : warnings = "" ∨ command.IsExport := by
  cases h with
  | exportCmd _ => exact .inr trivial
  | _ => exact .inl rfl

theorem ends_of_runSubcommand {command : Subcommand} {ended : Ended}
    (h : runSubcommand engine call opts command = some ended) :
    Ends engine call opts command ended := by
  cases command with
  | parseCmd input =>
    obtain rfl := Option.some.inj h
    unfold runParseCommand
    cases hfile : engine.parseFile input with
    | error ex => exact .rethrown _ id
    | ok file => exact .reported (.parseCmd hfile) (parseEnvelope_contract _)
  | validateCmd input strict =>
    obtain ⟨result, hresult, rfl⟩ := Option.map_eq_some_iff.mp h
    exact .reported (.validateCmd hresult)
      (validateEnvelope_contract (validateReport_named engine hresult) strict)
  | diffCmd base target =>
    obtain rfl := Option.some.inj h
    unfold runDiffCommand
    cases hreport : engine.diffFiles base target with
    | error ex => exact .rethrown _ id
    | ok report => exact .reported (.diffCmd hreport) (toJson_contract (diffFiles_named engine hreport))
  | writeCmd input output apply =>
    obtain rfl := Option.some.inj h
    unfold runWriteCommand
    cases hsuccess : engine.writeFile input output apply with
    | error ex => exact .rethrown _ id
    | ok success => exact .reported (.writeCmd hsuccess) (writeEnvelope_contract input output apply _)
  | exportCmd input format output member =>
    obtain rfl := Option.some.inj h
    unfold runExportCommand
    cases hexport : exportFile engine call input format output with
    | error ex => exact .rethrown _ id
    | ok out => exact .reported (.exportCmd hexport) (exportEnvelope_contract input member _ _ _)

/-- The call of a tool with what the command is given. -/
def Subcommand.callTool : Subcommand → Option (Except Thrown Json)
  | .parseCmd input => some (parseTool engine (.ofMembers [("path", .text input)]))
  | .validateCmd input strict =>
    validateTool engine (.ofMembers [("path", .text input), ("strict", .boolean strict)])
  | .diffCmd base target =>
    some (diffTool engine (.ofMembers [("basePath", .text base), ("targetPath", .text target)]))
  | .writeCmd input output apply => some (writeTool engine (.ofMembers [("path", .text input),
      ("outputPath", .text output), ("apply", .boolean apply)]))
  | .exportCmd input format _ _ =>
    some (exportTool engine (.ofMembers [("path", .text input), ("format", .text format)]))

/-- The text of an export is given back, not saved. -/
def Subcommand.Inline : Subcommand → Prop
  | .exportCmd _ _ output _ => output = ""
  | _ => True

/-- The command reports what the tool returns, or fails on what the tool throws. -/
inductive Agree : Except Thrown Json → Ended → Prop where
  | reported {envelope : Json} (summary human warnings : String) :
      Agree (.ok (packed envelope summary)) (call.report opts envelope human warnings)
  | rethrown (ex : EngineException) :
      Agree (.error (.exception (utf8 ex.what))) (call.rethrow opts ex)

theorem agree_of_inline {command : Subcommand} (h : command.Inline) :
    match command.callTool engine, runSubcommand engine call opts command with
    | some outcome, some ended => Agree call opts outcome ended
    | none, none => True
    | _, _ => False := by
  cases command with
  | parseCmd input =>
    have hdistinct : (["path"].map utf8).Nodup := by decide
    have hpath := @textAt_ofMembers [("path", .text input)] (by exact hdistinct) "path" input (by simp)
    simp only [Subcommand.callTool, runSubcommand, parseTool, runParseCommand, hpath, bind, Except.bind]
    cases engine.parseFile input with
    | error ex => exact .rethrown ex
    | ok file => exact .reported _ _ _
  | validateCmd input strict =>
    have hdistinct : (["path", "strict"].map utf8).Nodup := by decide
    have hpath := @textAt_ofMembers [("path", .text input), ("strict", .boolean strict)]
      (by exact hdistinct) "path" input (by simp)
    have hstrict := @flagOr_ofMembers [("path", .text input), ("strict", .boolean strict)]
      (by exact hdistinct) "strict" strict (by simp)
    simp only [Subcommand.callTool, runSubcommand, validateTool, runValidateCommand, hpath, hstrict]
    cases engine.validateReport input with
    | none => trivial
    | some result => exact .reported _ _ _
  | diffCmd base target =>
    have hdistinct : (["basePath", "targetPath"].map utf8).Nodup := by decide
    have hbase := @textAt_ofMembers [("basePath", .text base), ("targetPath", .text target)]
      (by exact hdistinct) "basePath" base (by simp)
    have htarget := @textAt_ofMembers [("basePath", .text base), ("targetPath", .text target)]
      (by exact hdistinct) "targetPath" target (by simp)
    simp only [Subcommand.callTool, runSubcommand, diffTool, runDiffCommand, hbase, htarget, bind,
      Except.bind]
    cases engine.diffFiles base target with
    | error ex => exact .rethrown ex
    | ok report => exact .reported _ _ _
  | writeCmd input output apply =>
    have hdistinct : (["path", "outputPath", "apply"].map utf8).Nodup := by decide
    have hpath := @textAt_ofMembers [("path", .text input), ("outputPath", .text output),
      ("apply", .boolean apply)] (by exact hdistinct) "path" input (by simp)
    have houtput := @textAt_ofMembers [("path", .text input), ("outputPath", .text output),
      ("apply", .boolean apply)] (by exact hdistinct) "outputPath" output (by simp)
    have happly := @flagOr_ofMembers [("path", .text input), ("outputPath", .text output),
      ("apply", .boolean apply)] (by exact hdistinct) "apply" apply (by simp)
    simp only [Subcommand.callTool, runSubcommand, writeTool, runWriteCommand, hpath, houtput, happly,
      bind, Except.bind]
    cases engine.writeFile input output apply with
    | error ex => exact .rethrown ex
    | ok success => exact .reported _ _ _
  | exportCmd input format output member =>
    have hinline : output = "" := h
    have hdistinct : (["path", "format"].map utf8).Nodup := by decide
    have hpath := @textAt_ofMembers [("path", .text input), ("format", .text format)]
      (by exact hdistinct) "path" input (by simp)
    have hformat := @textAt_ofMembers [("path", .text input), ("format", .text format)]
      (by exact hdistinct) "format" format (by simp)
    have hknown : ¬ (format ≠ "dbc" ∧ format ≠ "csv") := by
      simpa [or_iff_not_imp_left] using member
    subst hinline
    simp only [Subcommand.callTool, runSubcommand, exportTool, runExportCommand, exportFile, hpath, hformat,
      bind, Except.bind, if_neg hknown]
    cases engine.parseFile input with
    | error ex => exact .rethrown ex
    | ok file => exact .reported _ _ _

end

/-! ## Commands on one file -/

section
open Literal

def pduInvocation : Invocation where
  argv := ["parsex", "--json", "export"]
  cacheDirEnv := none
  schemaCacheDir := ""
  defaultCacheDir := ".cache/parsex/schemas"
  dump _ := "{}"
  spans := []
  writeCacheAtomically _ _ := .ok ()
  existingFile path := path = "a.arxml"
  exit _ := ⟨"--input: File does not exist\nRun with --help for more information.\n", 105, by decide⟩

/-- A file that does not exist is rejected before any engine code runs. -/
example : (runMain pduEngine pduInvocation {} (.validateCmd (some "b.arxml") false)).map Exited.status =
    some 105 := by
  decide +kernel

end

end ParseX

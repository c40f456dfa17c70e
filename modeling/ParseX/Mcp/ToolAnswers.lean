import ParseX.Mcp.Tools
import ParseX.Mcp.AnswersOnce

/-! # What the tools answer

Whatever the engine does, a call of a tool is answered: with an envelope of the tool's kind that meets the
contract, or with the text of an exception. -/
namespace ParseX
open Cpp Mcp CanDb JsonSchema

/-! ## Structured content -/

/-- An envelope of a kind that meets the contract and can be printed. -/
structure Contract (kind : String) (structured : Json) : Prop where
  isUtf8 : structured.isUtf8 = true
  conforms : envelopeSchema structured = true
  kind : structured.member? "kind" = some (.text kind)

theorem Contract.wrap {kind : String} {payload : Json} (hkind : kind ∈ envelopeKinds)
    (hutf8 : payload.isUtf8 = true) (hpayload : payloadSchema kind payload = true) :
    Contract kind (wrapEnvelope kind payload) :=
  ⟨Json.isUtf8_ofPresent (by simp [hutf8]), envelopeSchema_wrapEnvelope hkind hpayload,
    member?_wrapEnvelope_kind kind payload⟩

section
variable {D : Type} [Double D]

theorem isUtf8_warnings (warnings : List Warning) :
    (Json.array (warnings.map warningToJson)).isUtf8 = true := by
  refine Json.isUtf8_array.mpr (List.forall_mem_map.mpr fun warning _ => ?_)
  exact Json.isUtf8_ofPresent (by simp)

theorem isUtf8_parsePayload (path release : String) {counts warnings : Json} (hcounts : counts.isUtf8 = true)
    (hwarnings : warnings.isUtf8 = true) : (Json.ofPresent [("sourcePath", some (.text path)),
      ("autosarRelease", some (.text release)), ("counts", some counts),
      ("warnings", some warnings)]).isUtf8 = true :=
  Json.isUtf8_ofPresent (by simp [hcounts, hwarnings])

theorem parseEnvelope_contract (file : ParsedFile D) : Contract "parseReport" (parseEnvelope file) := by
  have hcounts : (Json.ofMembers [("clusters", .integer file.clusters.length),
      ("ecuInstances", .integer file.ecuInstances.length), ("frames", .integer file.frames.length),
      ("pdus", .integer file.pdus.length), ("signals", .integer file.signals.length),
      ("signalGroups", .integer file.signalGroups.length)]).isUtf8 = true :=
    Json.isUtf8_ofMembers (by simp)
  exact .wrap (by decide) (isUtf8_parsePayload _ _ hcounts (isUtf8_warnings _))
    (by simp [payloadSchema, allOf])

theorem isUtf8_errorToJson (err : ValidationError) : (errorToJson err).isUtf8 = true := by
  have hlocation : (err.location.map locationToJson).all Json.isUtf8 = true :=
    all_map fun location => Json.isUtf8_ofPresent (by simp)
  refine Json.isUtf8_ofPresent ?_
  simp [hlocation, all_map Json.isUtf8_text]

/-- The payload is the member that is set last. -/
theorem wrapEnvelope_eq_set (kind : String) (payload : Json) : wrapEnvelope kind payload =
    (Json.ofMembers [("$schema", .text "https://parsex.dev/schemas/v1/envelope.json"),
      ("contractVersion", .text kContractVersion), ("toolVersion", .text libparsexVersion),
      ("kind", .text kind)]).set "payload" payload := by
  simp only [wrapEnvelope, Json.ofPresent, Json.ofMembers, List.filterMap_cons, List.filterMap_nil,
    Option.map_some, List.foldl_cons, List.foldl_nil]

/-- The verdict of the mode takes the place of the one of the result. -/
theorem validateEnvelope_eq (result : ValidationResult) (strict : Bool) : validateEnvelope result strict =
    wrapEnvelope "validationResult" (.ofPresent [
      ("passed", some (.boolean (overallPassed result (strictModeOf strict)))),
      ("errors", some (.array (result.errors.map errorToJson)))]) := by
  have hlt : utf8 "errors" < utf8 "passed" := by decide
  have hnlt : ¬ utf8 "passed" < utf8 "errors" := by decide
  have hne : utf8 "errors" ≠ utf8 "passed" := by decide
  have hset (payload other : Json) :
      (wrapEnvelope "validationResult" payload).set "payload" other =
        wrapEnvelope "validationResult" other := by
    rw [wrapEnvelope_eq_set, wrapEnvelope_eq_set, Json.set_set]
  rw [validateEnvelope, ValidationResult.toJson, payload_wrapEnvelope, Option.getD_some, hset]
  simp [ValidationResult.payload, Json.ofPresent, Json.ofMembers, Json.set, Json.insertMember, hlt, hne,
    hne.symm, hnlt]

theorem validateEnvelope_contract {result : ValidationResult} (h : result.Named) (strict : Bool) :
    Contract "validationResult" (validateEnvelope result strict) := by
  have hdistinct : (["passed", "errors"].map utf8).Nodup := by decide
  have hitems : (Json.array (result.errors.map errorToJson)).isUtf8 = true :=
    Json.isUtf8_array.mpr (List.forall_mem_map.mpr fun err _ => isUtf8_errorToJson err)
  have hpayload : validationResultSchema (.ofPresent [
      ("passed", some (.boolean (overallPassed result (strictModeOf strict)))),
      ("errors", some (.array (result.errors.map errorToJson)))]) = true :=
    closedObject_ofPresent (by exact hdistinct) (by simp) rfl
      ⟨⟨_, rfl, rfl⟩, ⟨_, rfl, arrayOf_map fun err herr =>
        validationErrorSchema_errorToJson (h err herr).1 (h err herr).2⟩, trivial⟩
  rw [validateEnvelope_eq]
  exact .wrap (by decide) (Json.isUtf8_ofPresent (by simp [hitems])) hpayload

theorem isUtf8_payload (report : DiffReport) : report.payload.isUtf8 = true := by
  have hunless (text : String) : (unlessEmpty text).all Json.isUtf8 = true := by
    unfold unlessEmpty
    split <;> simp
  have hfields (entry : DiffEntry) : (Json.array (entry.fieldDiffs.map fieldToJson)).isUtf8 = true :=
    Json.isUtf8_array.mpr (List.forall_mem_map.mpr fun field _ => Json.isUtf8_ofPresent (by simp))
  have hentries : (Json.array (report.entries.map entryToJson)).isUtf8 = true :=
    Json.isUtf8_array.mpr (List.forall_mem_map.mpr fun entry _ =>
      Json.isUtf8_ofPresent (by simp [hunless, hfields]))
  have hdiagnostics : (Json.array (report.diagnostics.map diagnosticToJson)).isUtf8 = true :=
    Json.isUtf8_array.mpr (List.forall_mem_map.mpr fun diag _ => Json.isUtf8_ofPresent (by simp))
  exact Json.isUtf8_ofPresent (by simp [hentries, hdiagnostics])

theorem toJson_contract {report : DiffReport} (h : report.Named) :
    Contract "diffReport" report.toJson :=
  .wrap (by decide) (isUtf8_payload report) (diffReportSchema_payload h)

theorem writeEnvelope_contract (input output : Path) (applied success : Bool) :
    Contract "writeResult" (writeEnvelope input output applied success) :=
  .wrap (by decide) (Json.isUtf8_ofPresent (by simp)) (by simp [payloadSchema, allOf])

theorem messageSchema_warningToJson (warning : Warning) : messageSchema (warningToJson warning) = true := by
  have hdistinct : (["message"].map utf8).Nodup := by decide
  exact closedObject_ofPresent (by exact hdistinct) (by simp) rfl ⟨⟨_, rfl, rfl⟩, trivial⟩

theorem isUtf8_exportPayload (path format : String) {output counts warnings : Json} {content : Option Json}
    (houtput : output.isUtf8 = true) (hcounts : counts.isUtf8 = true) (hwarnings : warnings.isUtf8 = true)
    (hcontent : content.all Json.isUtf8 = true) : (Json.ofPresent [("sourcePath", some (.text path)),
      ("format", some (.text format)), ("output", some output), ("counts", some counts),
      ("warnings", some warnings), ("content", content)]).isUtf8 = true :=
  Json.isUtf8_ofPresent (by simp [houtput, hcounts, hwarnings, hcontent])

theorem exportEnvelope_contract (path : String) {format : String} (hformat : format ∈ ["dbc", "csv"])
    (output : Option String) (database : ExportDatabase D) (text : String) :
    Contract "exportResult" (exportEnvelope path format output database text) := by
  have hdistinct : (["sourcePath", "format", "output", "counts", "warnings", "content"].map utf8).Nodup := by
    decide
  have hkeys : (["frames", "signals"].map utf8).Nodup := by decide
  have houtput : type [.string, .null] ((output.map Json.text).getD .null) = true := by
    cases output <;> rfl
  have houtputUtf8 : ((output.map Json.text).getD .null).isUtf8 = true := by
    cases output with
    | none => rfl
    | some path => exact Json.isUtf8_text path
  have hcounts : exportCountsSchema (.ofPresent [("frames", some (.integer database.frames.length)),
      ("signals", some (.integer (exportSignalCount database)))]) = true :=
    closedObject_ofPresent (by exact hkeys) (by simp) rfl
      ⟨⟨_, rfl, integerFrom_natCast database.frames.length (Int.natCast_nonneg _)⟩,
        ⟨_, rfl, integerFrom_natCast (exportSignalCount database) (Int.natCast_nonneg _)⟩, trivial⟩
  have hcountsUtf8 : (Json.ofPresent [("frames", some (.integer database.frames.length)),
      ("signals", some (.integer (exportSignalCount database)))]).isUtf8 = true :=
    Json.isUtf8_ofPresent (by simp)
  have hcontent : (if output.isNone then some (Json.text text) else none).all (type [.string]) = true := by
    split
    · exact text_type text
    · rfl
  have hcontentUtf8 : (if output.isNone then some (Json.text text) else none).all Json.isUtf8 = true := by
    split <;> simp
  refine .wrap (by decide)
    (isUtf8_exportPayload path format houtputUtf8 hcountsUtf8 (isUtf8_warnings _) hcontentUtf8) ?_
  show exportResultSchema _ = true
  exact closedObject_ofPresent (by exact hdistinct) (by simp) rfl
    ⟨⟨_, rfl, rfl⟩, ⟨_, rfl, typed_text (enum_text hformat)⟩, ⟨_, rfl, houtput⟩, ⟨_, rfl, hcounts⟩,
      ⟨_, rfl, arrayOf_map fun warning _ => messageSchema_warningToJson warning⟩, ⟨_, rfl, hcontent⟩,
      trivial⟩

/-! ## What a tool returns or throws -/

/-- A result with an envelope of this kind, or an exception with a text. -/
inductive ToolOutcome (kind : String) : Except Thrown Json → Prop where
  | returned {structured : Json} (summary : String) :
      Contract kind structured → ToolOutcome kind (.ok (packed structured summary))
  | threw (message : String) : ToolOutcome kind (.error (.exception (utf8 message)))

/-- What is thrown has a text. -/
def Explained {α : Type} (outcome : Except Thrown α) : Prop :=
  ∀ ex, outcome = .error ex → ∃ message, ex = .exception (utf8 message)

theorem ToolOutcome.bind {α : Type} {kind : String} {outcome : Except Thrown α}
    {next : α → Except Thrown Json} (h : Explained outcome)
    (hnext : ∀ value, outcome = .ok value → ToolOutcome kind (next value)) :
    ToolOutcome kind (outcome >>= next) := by
  cases outcome with
  | ok value => exact hnext value rfl
  | error ex =>
    obtain ⟨message, rfl⟩ := h ex rfl
    exact .threw message

theorem explained_textAt (args : Json) (key : String) : Explained (textAt args key) := by
  intro ex hex
  unfold textAt at hex
  split at hex
  · split at hex
    · exact ⟨_, (Except.error.inj hex).symm⟩
    · split at hex
      · cases hex
      · exact ⟨_, (Except.error.inj hex).symm⟩
  · exact ⟨_, (Except.error.inj hex).symm⟩

theorem explained_flagOr (args : Json) (key : String) : Explained (flagOr args key) := by
  intro ex hex
  unfold flagOr at hex
  split at hex
  · split at hex
    · cases hex
    · cases hex
    · exact ⟨_, (Except.error.inj hex).symm⟩
  · exact ⟨_, (Except.error.inj hex).symm⟩

theorem explained_thrown {α : Type} (outcome : Except EngineException α) : Explained (thrown outcome) := by
  intro ex hex
  cases outcome with
  | ok value => cases hex
  | error failure => exact ⟨failure.what, (Except.error.inj hex).symm⟩

theorem ok_of_thrown {α : Type} {outcome : Except EngineException α} {value : α}
    (h : thrown outcome = .ok value) : outcome = .ok value := by
  cases outcome with
  | ok other => exact congrArg Except.ok (Except.ok.inj h)
  | error failure => cases h

theorem what_parseFailure (failure : ParseFailure) : failure.exception.what ≠ "" := by
  cases failure with
  | noSchemaLocation path => simp [ParseFailure.exception]
  | unsupportedRelease schemaFilename => simp [ParseFailure.exception]

variable (engine : Engine D)

theorem what_raised (error : ParseError) : (engine.raised error).what ≠ "" := by
  cases error with
  | unread path => exact engine.spoken path
  | unloaded path => exact engine.spoken path
  | rejected failure => exact what_parseFailure failure

theorem what_of_parseFile {path : String} {ex : EngineException} (h : engine.parseFile path = .error ex) :
    ex.what ≠ "" := by
  unfold Engine.parseFile at h
  cases hparse : (ParseX.parseFile engine.deliver engine.disk path : Except ParseError (ParsedFile D)) with
  | ok file =>
    rw [hparse] at h
    cases h
  | error error =>
    rw [hparse] at h
    obtain rfl := Except.error.inj h
    exact what_raised engine error

theorem what_of_resolveSchema {release : String} {ex : EngineException}
    (h : engine.resolveSchema release = some (.error ex)) : ex.what ≠ "" := by
  obtain ⟨outcome, -, houtcome⟩ := Option.map_eq_some_iff.mp h
  cases outcome with
  | ok resolved => cases houtcome
  | error failure =>
    obtain rfl := Except.error.inj houtcome
    simp [SchemaResolutionError.exception]

theorem failureFinding_named {code message : String} (hcode : code ≠ "") (hmessage : message ≠ "") :
    ValidationResult.Named ⟨[failureFinding code message]⟩ := by
  intro err herr
  rw [List.mem_singleton.mp herr]
  exact ⟨hcode, hmessage⟩

/-- What is found in a file always has a code and a message. -/
theorem validateReport_named {path : String} {result : ValidationResult}
    (h : engine.validateReport path = some result) : result.Named := by
  unfold Engine.validateReport at h
  split at h
  · rename_i ex hex
    rw [← Option.some.inj h]
    exact failureFinding_named (by decide) (what_of_parseFile engine hex)
  · unfold Engine.validateParsed at h
    split at h
    · rw [← Option.some.inj h]
      exact failureFinding_named (by decide) (by decide)
    · split at h
      · cases h
      · rename_i ex hex
        rw [← Option.some.inj h]
        exact failureFinding_named (by decide) (what_of_resolveSchema engine hex)
      · obtain ⟨combined, hcombined, rfl⟩ := Option.map_eq_some_iff.mp h
        exact validateAll_named hcombined

theorem diffFiles_named {base target : String} {report : DiffReport}
    (h : engine.diffFiles base target = .ok report) : report.Named := by
  unfold Engine.diffFiles at h
  cases hbase : engine.parseFile base with
  | error ex =>
    rw [hbase] at h
    cases h
  | ok oldFile =>
    rw [hbase] at h
    cases htarget : engine.parseFile target with
    | error ex =>
      rw [htarget] at h
      cases h
    | ok newFile =>
      rw [htarget] at h
      rw [← Except.ok.inj h]
      exact diff_named _ _

/-! ## Each tool -/

theorem parseTool_outcome (args : Json) : ToolOutcome "parseReport" (parseTool engine args) := by
  refine .bind (explained_textAt args "path") fun path _ => ?_
  refine .bind (explained_thrown _) fun file _ => ?_
  exact .returned _ (parseEnvelope_contract file)

theorem validateTool_outcome {args : Json} {outcome : Except Thrown Json}
    (h : validateTool engine args = some outcome) : ToolOutcome "validationResult" outcome := by
  unfold validateTool at h
  split at h
  · obtain ⟨result, hresult, rfl⟩ := Option.map_eq_some_iff.mp h
    exact .returned _ (validateEnvelope_contract (validateReport_named engine hresult) _)
  · rename_i ex hex
    obtain ⟨message, rfl⟩ := explained_textAt args "path" ex hex
    obtain rfl := Option.some.inj h
    exact .threw message
  · rename_i ex _ hex
    obtain ⟨message, rfl⟩ := explained_flagOr args "strict" ex hex
    obtain rfl := Option.some.inj h
    exact .threw message

theorem diffTool_outcome (args : Json) : ToolOutcome "diffReport" (diffTool engine args) := by
  refine .bind (explained_textAt args "basePath") fun base _ => ?_
  refine .bind (explained_textAt args "targetPath") fun target _ => ?_
  refine .bind (explained_thrown _) fun report hreport => ?_
  exact .returned _ (toJson_contract (diffFiles_named engine (ok_of_thrown hreport)))

theorem writeTool_outcome [LibXml] (args : Json) : ToolOutcome "writeResult" (writeTool engine args) := by
  refine .bind (explained_textAt args "path") fun path _ => ?_
  refine .bind (explained_textAt args "outputPath") fun output _ => ?_
  refine .bind (explained_flagOr args "apply") fun apply _ => ?_
  refine .bind (explained_thrown _) fun success _ => ?_
  exact .returned _ (writeEnvelope_contract path output apply success)

theorem exportTool_outcome [CharsDouble D] (args : Json) :
    ToolOutcome "exportResult" (exportTool engine args) := by
  refine .bind (explained_textAt args "path") fun path _ => ?_
  refine .bind (explained_textAt args "format") fun format _ => ?_
  split
  · exact .threw _
  · rename_i hformat
    refine .bind (explained_thrown _) fun file _ => ?_
    refine .returned _ (exportEnvelope_contract path ?_ none _ _)
    simpa [or_iff_not_imp_left] using hformat

end

/-! ## The reply -/

/-- What a `tools/call` whose arguments match is answered with. -/
inductive ToolAnswer (kind : String) : Json → Prop where
  | complete {structured : Json} (summary : String) :
      Contract kind structured → ToolAnswer kind (wrapToolSuccess structured (utf8 summary))
  | failed (message : String) : ToolAnswer kind (wrapToolError (utf8 message))

theorem ToolAnswer.isUtf8 {kind : String} {answer : Json} (h : ToolAnswer kind answer) :
    answer.isUtf8 = true := by
  cases h with
  | complete summary hcontract =>
    exact isUtf8_wrapToolSuccess.mpr ⟨hcontract.isUtf8, validUtf8_utf8 summary⟩
  | failed message => exact isUtf8_wrapToolError.mpr (validUtf8_utf8 message)

theorem unpack_packed (structured : Json) (summary : String) :
    unpack (packed structured summary) = .ok (structured, utf8 summary) := by
  have hdistinct : (["structuredContent", "summary"].map utf8).Nodup := by decide
  have hmember {key : String} {value : Json}
      (h : (key, value) ∈ [("structuredContent", structured), ("summary", .text summary)]) :
      (packed structured summary).member? key = some value :=
    Json.member?_ofMembers (by exact hdistinct) h
  obtain ⟨members, hmembers⟩ : ∃ members, packed structured summary = .object members :=
    Json.ofMembers_object _
  have hstructured := @hmember "structuredContent" structured (by simp)
  have hsummary := @hmember "summary" (.text summary) (by simp)
  rw [hmembers] at hstructured hsummary ⊢
  simp [unpack, Mcp.valueOr, stringOr, hstructured, hsummary, Json.text, pure, Except.pure, bind, Except.bind]

/-- The caller of a tool makes an answer of its outcome. -/
theorem ToolOutcome.callTool {kind : String} {tool : ToolDefinition} {arguments : Json}
    (h : ToolOutcome kind (tool.handler arguments)) : ToolAnswer kind (callTool tool arguments) := by
  rw [Mcp.callTool]
  cases hhandler : tool.handler arguments with
  | ok result =>
    rw [hhandler] at h
    cases h with
    | @returned structured summary hcontract =>
      have hunpack : (Except.ok (packed structured summary) >>= unpack) = .ok (structured, utf8 summary) :=
        unpack_packed structured summary
      rw [hunpack]
      exact .complete summary hcontract
  | error ex =>
    rw [hhandler] at h
    cases h with
    | threw message => exact .failed message

/-! ## A call -/

/-- The tools and the kinds of their envelopes. -/
def toolKinds : List (String × String) :=
  [("parse_arxml", "parseReport"), ("validate_arxml", "validationResult"), ("diff_arxml", "diffReport"),
    ("write_arxml", "writeResult"), ("export_arxml", "exportResult")]

/-- The tool is known and its arguments match. -/
def Called (library : JsonLibrary) (registry : ToolRegistry) (params : Json) : Prop :=
  ∃ arguments tool, toolArguments params = some arguments ∧ registry.find (toolName params) = some tool ∧
    library.validate tool.inputSchema arguments = .ok true

theorem find_serverRegistry {handlers : Handlers} {name : Bytes} {tool : ToolDefinition}
    (h : (serverRegistry handlers).find name = some tool) :
    name = utf8 tool.name ∧ (tool.name, tool.handler) ∈ [("parse_arxml", handlers.parseTool),
      ("validate_arxml", handlers.validateTool), ("diff_arxml", handlers.diffTool),
      ("write_arxml", handlers.writeTool), ("export_arxml", handlers.exportTool)] := by
  have htools : (serverRegistry handlers).tools.map (fun tool => (tool.name, tool.handler)) =
      [("parse_arxml", handlers.parseTool), ("validate_arxml", handlers.validateTool),
        ("diff_arxml", handlers.diffTool), ("write_arxml", handlers.writeTool),
        ("export_arxml", handlers.exportTool)] := by
    simp [serverRegistry, ToolRegistry.setHandler, ToolRegistry.withSchemas, ToolRegistry.registerTool,
      toolDefinition]
  have hname := List.find?_some h
  refine ⟨(of_decide_eq_true hname).symm, ?_⟩
  rw [← htools]
  exact List.mem_map_of_mem (List.mem_of_find?_eq_some h)

section
variable {D : Type} [Double D] [LibXml] [CharsDouble D]

/-- The handlers do what the tools do in this state; anything where `validateTool` is undefined. -/
structure Engine.Serves (engine : Engine D) (handlers : Handlers) : Prop where
  parseTool : handlers.parseTool = ParseX.parseTool engine
  validateTool : ∀ args outcome, ParseX.validateTool engine args = some outcome →
    handlers.validateTool args = outcome
  diffTool : handlers.diffTool = ParseX.diffTool engine
  writeTool : handlers.writeTool = ParseX.writeTool engine
  exportTool : handlers.exportTool = ParseX.exportTool engine

theorem Engine.Serves.outcome {engine : Engine D} {handlers : Handlers} (h : engine.Serves handlers)
    {name : Bytes} {tool : ToolDefinition} (htool : (serverRegistry handlers).find name = some tool)
    {arguments : Json} (hdefined : name = utf8 "validate_arxml" →
      (ParseX.validateTool engine arguments).isSome = true) :
    ∃ entry ∈ toolKinds, name = utf8 entry.1 ∧ ToolOutcome entry.2 (tool.handler arguments) := by
  obtain ⟨hname, hmem⟩ := find_serverRegistry htool
  simp only [List.mem_cons, Prod.mk.injEq, List.not_mem_nil, or_false] at hmem
  rcases hmem with ⟨htext, hhandler⟩ | ⟨htext, hhandler⟩ | ⟨htext, hhandler⟩ | ⟨htext, hhandler⟩ |
    ⟨htext, hhandler⟩ <;> rw [htext] at hname <;> rw [hhandler]
  · exact ⟨("parse_arxml", "parseReport"), by simp [toolKinds], hname,
      h.parseTool ▸ parseTool_outcome engine arguments⟩
  · obtain ⟨outcome, houtcome⟩ := Option.isSome_iff_exists.mp (hdefined hname)
    exact ⟨("validate_arxml", "validationResult"), by simp [toolKinds], hname,
      h.validateTool arguments outcome houtcome ▸ validateTool_outcome engine houtcome⟩
  · exact ⟨("diff_arxml", "diffReport"), by simp [toolKinds], hname,
      h.diffTool ▸ diffTool_outcome engine arguments⟩
  · exact ⟨("write_arxml", "writeResult"), by simp [toolKinds], hname,
      h.writeTool ▸ writeTool_outcome engine arguments⟩
  · exact ⟨("export_arxml", "exportResult"), by simp [toolKinds], hname,
      h.exportTool ▸ exportTool_outcome engine arguments⟩

/-- **Whatever the engine does, every call is replied to**: with an invalid-params error when the tool is
unknown or its arguments do not match, otherwise with an envelope of the tool's kind that meets the
contract or with the text of what was thrown. -/
theorem toolsCall_answered (engine : Engine D) {handlers : Handlers} (hserves : engine.Serves handlers)
    (library : JsonLibrary) (hwhat : ∀ schema arguments what,
      library.validate schema arguments = .error what → ValidUtf8 what)
    {id params : Json} (hid : id.isUtf8 = true) (hparams : params.isUtf8 = true)
    (hdefined : ∀ arguments, toolArguments params = some arguments →
      toolName params = utf8 "validate_arxml" → (validateTool engine arguments).isSome = true) :
    let reply := dispatchToolsCall library id params (serverRegistry handlers)
    reply.isUtf8 = true ∧
      (Called library (serverRegistry handlers) params → ∃ entry ∈ toolKinds,
        toolName params = utf8 entry.1 ∧ ∃ answer, reply = makeResult id answer ∧ ToolAnswer entry.2 answer) ∧
      (¬ Called library (serverRegistry handlers) params →
        ∃ detail, reply = makeProtocolError id (-32602) detail) := by
  intro reply
  refine ⟨(isUtf8_dispatchToolsCall hid hparams).mpr fun arguments tool harguments htool => ?_, ?_, ?_⟩
  · cases hvalidate : library.validate tool.inputSchema arguments with
    | error what => exact hwhat _ _ _ hvalidate
    | ok matching =>
      cases matching with
      | false => trivial
      | true =>
        obtain ⟨entry, -, -, houtcome⟩ := hserves.outcome htool fun hname => hdefined arguments harguments hname
        exact isUtf8_callTool.mp houtcome.callTool.isUtf8
  · rintro ⟨arguments, tool, harguments, htool, hvalidate⟩
    obtain ⟨entry, hentry, hname, houtcome⟩ :=
      hserves.outcome htool fun hname => hdefined arguments harguments hname
    refine ⟨entry, hentry, hname, callTool tool arguments, ?_, houtcome.callTool⟩
    simp only [reply, dispatchToolsCall, harguments, htool, argumentsMatchSchema, hvalidate]
  · intro hcalled
    simp only [reply, dispatchToolsCall]
    cases harguments : toolArguments params with
    | none => exact ⟨_, rfl⟩
    | some arguments =>
      dsimp only
      cases htool : (serverRegistry handlers).find (toolName params) with
      | none => exact ⟨_, makeError_makeProtocolError id _ _⟩
      | some tool =>
        dsimp only [argumentsMatchSchema]
        cases hvalidate : library.validate tool.inputSchema arguments with
        | error what => exact ⟨_, makeError_makeProtocolError id _ _⟩
        | ok matching =>
          cases matching with
          | false => exact ⟨_, makeError_makeProtocolError id _ _⟩
          | true => exact absurd ⟨arguments, tool, harguments, htool, hvalidate⟩ hcalled

end

/-! ## A call of `parse_arxml` -/

section
open Literal

/-- One file on the disk, and a registry without schemas. -/
def pduEngine : Engine WholeDouble where
  deliver := deliverPdu
  disk path := if path = "a.arxml" then some (Loader.Document.bytes ⟨.singleByte, false, pduText⟩) else none
  loadFailure path := ⟨.parse .io, "ParseError[Io] '" ++ path ++ "': file does not exist"⟩
  spoken path := by simp
  library := acceptingLibrary
  registry := { schemaDirs := [], cacheDir := "cache", parse := fun _ _ => .ok () }
  sources _ := none
  cache _ := none
  faults := {}
  serialize _ := ""
  environment := {}
  files _ := none

def handlersOf (engine : Engine WholeDouble) : Handlers where
  parseTool := parseTool engine
  validateTool args := (validateTool engine args).getD (.error .other)
  diffTool := diffTool engine
  writeTool := writeTool engine
  exportTool := exportTool engine

theorem handlersOf_serves (engine : Engine WholeDouble) : engine.Serves (handlersOf engine) :=
  ⟨rfl, fun args outcome h => by simp [handlersOf, h], rfl, rfl, rfl⟩

/-- The call reaches its tool and gets an answer of its kind. -/
theorem toolsCall_answered_parseCall : ∃ entry ∈ toolKinds, toolName parseParams = utf8 entry.1 ∧
    ∃ answer, dispatchToolsCall (libraryFor parseCall) (.integer 1) parseParams
        (serverRegistry (handlersOf pduEngine)) = makeResult (.integer 1) answer ∧
      answer.isUtf8 = true ∧ ToolAnswer entry.2 answer := by
  have harguments : (toolArguments parseParams).isSome = true := by decide +kernel
  have htool : ((serverRegistry (handlersOf pduEngine)).find (toolName parseParams)).isSome = true := by
    decide +kernel
  obtain ⟨arguments, harguments⟩ := Option.isSome_iff_exists.mp harguments
  obtain ⟨tool, htool⟩ := Option.isSome_iff_exists.mp htool
  have hid : (Json.integer 1).isUtf8 = true := rfl
  have hparams : parseParams.isUtf8 = true := by decide +kernel
  have hother : toolName parseParams ≠ utf8 "validate_arxml" := by decide +kernel
  obtain ⟨-, hanswered, -⟩ := toolsCall_answered pduEngine (handlersOf_serves pduEngine)
    (libraryFor parseCall) (fun _ _ _ h => by cases h) hid hparams fun _ _ hname => absurd hname hother
  obtain ⟨entry, hentry, hname, answer, hreply, hanswer⟩ :=
    hanswered ⟨arguments, tool, harguments, htool, rfl⟩
  exact ⟨entry, hentry, hname, answer, hreply, hanswer.isUtf8, hanswer⟩

end

end ParseX

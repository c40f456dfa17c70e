import ParseX.Mcp.Server
import ParseX.Base.JsonPrint

/-! # One reply to every request

A line is answered on its own, so the lines written are those of one line after the
other; a request is answered once when its reply can be printed. -/
namespace ParseX.Mcp
open Cpp JsonText

variable {library : JsonLibrary} {registry : ToolRegistry}

/-! ## The property -/

def newline : UInt8 := '\n'.toUInt8

/-- A line of bounded nesting that parses to a request with this id. -/
structure Request (library : JsonLibrary) (line : Bytes) (message id : Json) : Prop where
  shallow : ∃ tree, Document tree line ∧ tree.depth ≤ kMaxJsonDepth
  parse : library.parse line = .ok message
  version : message.member? "jsonrpc" = some (.text "2.0")
  id : message.member? "id" = some id

structure Notification (library : JsonLibrary) (line : Bytes) (message : Json) : Prop where
  parse : library.parse line = .ok message
  version : message.member? "jsonrpc" = some (.text "2.0")
  id : message.member? "id" = none
  method : ∃ name, message.member? "method" = some (.string (utf8 "notifications/" ++ name))

/-- The lines written for a line that was read. -/
structure Answered (library : JsonLibrary) (line : Bytes) (written : List Bytes) : Prop where
  request : ∀ message id, Request library line message id → ∃ reply text, written = [text] ∧
    library.dump reply = .ok text ∧ newline ∉ text ∧ IsReply id reply
  notification : ∀ message, Notification library line message → written = []
  empty : line = [] → written = []

/-- The loop reads every line, and what it writes for each comes after what it wrote
for the lines before. -/
def AnswersOnce (library : JsonLibrary) (handlers : Handlers) (lines : List Bytes) : Prop :=
  (runServer library handlers lines).1 = .ok () ∧
    ∀ before line after, lines = before ++ line :: after → ∃ written,
      (runServer library handlers (before ++ [line])).2 =
        (runServer library handlers before).2 ++ written ∧ Answered library line written

/-- What the libraries document. -/
structure JsonLibrary.Documented (library : JsonLibrary) : Prop where
  /-- A dump throws exactly on strings that are not UTF-8. -/
  dump : ∀ value, (∃ line, library.dump value = .ok line) ↔ value.isUtf8 = true
  /-- A compact dump has no line break. -/
  oneLine : ∀ value line, library.dump value = .ok line → newline ∉ line
  /-- Text that is not UTF-8 does not parse. -/
  parse : ∀ line value, library.parse line = .ok value → value.isUtf8 = true

/-! ## The condition -/

/-- The message is a tool call of a supported version, or of none. -/
def CallsTool (message : Json) : Prop :=
  readMethod message = utf8 "tools/call" ∧
    ∀ version, extractProtocolVersion message = some version → isSupportedVersion version = true

/-- What a tool call reaches can be printed, and no notification that nests too deep
has an id to be recovered from its text. -/
structure Repliable (library : JsonLibrary) (registry : ToolRegistry) (line : Bytes) : Prop where
  request : ∀ message id, Request library line message id → CallsTool message →
    Answerable library registry (readParams message)
  notification : ∀ message, Notification library line message →
    exceedsMaxDepth line kMaxJsonDepth = true → ∀ id, tryRecoverId line = some id →
    id.isUtf8 = false

/-! ## What a line writes -/

/-- The part ends well and writes these lines. -/
def Writes (body : Serve) (written : List Bytes) : Prop :=
  ∀ output, body output = (.ok (), output ++ written)

/-- The line that a message becomes, if it can be dumped. -/
def dumped (library : JsonLibrary) (message : Json) : List Bytes :=
  match library.dump message with
  | .ok line => [line]
  | .error _ => []

theorem writes_skip : Writes skip [] := fun output => by rw [List.append_nil]; rfl

theorem Writes.catching {body : Serve} {written : List Bytes} (h : Writes body written)
    (handler : Serve) : Writes (catching body handler) written := fun output => by
  rw [Mcp.catching, h output]

/-- A write that fails leaves the handler to write. -/
theorem writes_catching (library : JsonLibrary) (message : Json) {handler : Serve} {written : List Bytes}
    (h : Writes handler written) : Writes (catching (writeMessage library message) handler)
      (if dumped library message = [] then written else dumped library message) := by
  intro output
  rw [catching, writeMessage, dumped]
  cases library.dump message with
  | ok line => rfl
  | error what => exact h output

theorem writes_dumped (library : JsonLibrary) (message : Json) :
    Writes (catching (writeMessage library message) skip) (dumped library message) := by
  have h := writes_catching library message writes_skip
  split at h
  · rename_i hnone
    rwa [hnone]
  · exact h

/-- What dumps is written. -/
theorem dumped_eq_nil_iff (hlibrary : library.Documented) {message : Json} :
    dumped library message = [] ↔ message.isUtf8 = false := by
  rw [← Bool.not_eq_true, ← hlibrary.dump, dumped]
  cases library.dump message with
  | ok line => simp
  | error what => simp

theorem isUtf8_makeVersionError {id : Json} (hid : id.isUtf8 = true) {message : Bytes}
    (hmessage : ValidUtf8 message) : (makeVersionError id message).isUtf8 = true := by
  have hdata : (Json.ofMembers [("supportedVersions", texts ["2026-07-28"])]).isUtf8 = true :=
    Json.isUtf8_ofMembers (by simp)
  exact (isUtf8_error hid).mpr
    (Json.isUtf8_ofMembers (by simp [hdata, Json.isUtf8_string.mpr hmessage]))

theorem isReply_makeVersionError (id : Json) (message : Bytes) :
    IsReply id (makeVersionError id message) :=
  isReply_error id (.ofMembers [("code", .integer (-32600)), ("message", .string message),
    ("data", .ofMembers [("supportedVersions", texts ["2026-07-28"])])])

theorem isReply_makeVersionMismatch (id : Json) (version : Bytes) :
    IsReply id (makeVersionMismatch id version) :=
  isReply_makeVersionError id _

theorem isUtf8_makeVersionMismatch {id : Json} (hid : id.isUtf8 = true) {version : Bytes}
    (hversion : ValidUtf8 version) : (makeVersionMismatch id version).isUtf8 = true :=
  isUtf8_makeVersionError hid
    (validUtf8_utf8_append.mpr (hversion.append (validUtf8_utf8 _)))

theorem buildDiscoverResult_isUtf8 : buildDiscoverResult.isUtf8 = true := by
  have htools : (Json.ofMembers [("listChanged", .boolean false)]).isUtf8 = true :=
    Json.isUtf8_ofMembers (by simp)
  have hcapabilities : (Json.ofMembers [("tools",
      .ofMembers [("listChanged", .boolean false)])]).isUtf8 = true :=
    Json.isUtf8_ofMembers (by simp [htools])
  have hserver : (Json.ofMembers [("name", .text "parsex-mcp"),
      ("version", .text "0.2.0")]).isUtf8 = true :=
    Json.isUtf8_ofMembers (by simp)
  have hmeta : (Json.ofMembers [("io.modelcontextprotocol/serverInfo",
      .ofMembers [("name", .text "parsex-mcp"), ("version", .text "0.2.0")])]).isUtf8 = true :=
    Json.isUtf8_ofMembers (by simp [hserver])
  exact Json.isUtf8_ofMembers (by simp [hcapabilities, hmeta])

/-- Every request is routed to one write. -/
theorem routeRequest_eq {id params : Json} {name : Bytes} (hid : id.isUtf8 = true)
    (hparams : params.isUtf8 = true) (hregistry : ∀ tool ∈ registry.tools, tool.Printable) :
    ∃ reply, routeRequest library id name params registry = writeMessage library reply ∧
      IsReply id reply ∧ (reply.isUtf8 = true ↔
        (name = utf8 "tools/call" → Answerable library registry params)) := by
  have hother {reply : Json} (hutf8 : reply.isUtf8 = true) (hname : name ≠ utf8 "tools/call") :
      reply.isUtf8 = true ↔ (name = utf8 "tools/call" → Answerable library registry params) :=
    iff_of_true hutf8 fun h => absurd h hname
  rw [routeRequest]
  split
  · rename_i hname
    exact ⟨_, rfl, isReply_result id _, hother ((isUtf8_result hid).mpr buildDiscoverResult_isUtf8)
      (by rw [hname]; decide)⟩
  split
  · rename_i hname
    exact ⟨_, rfl, isReply_result id _,
      hother ((isUtf8_result hid).mpr (buildToolsListResult_isUtf8 hregistry))
        (by rw [hname]; decide)⟩
  split
  · rename_i hname
    exact ⟨_, rfl, dispatchToolsCall_isReply library id params registry,
      (isUtf8_dispatchToolsCall hid hparams).trans ⟨fun h _ => h, fun h => h hname⟩⟩
  rename_i hname
  split
  · exact ⟨_, rfl, isReply_makeVersionError id _,
      hother (isUtf8_makeVersionError hid (validUtf8_utf8 _)) hname⟩
  · exact ⟨_, rfl, isReply_makeProtocolError id _ _,
      hother ((isUtf8_makeProtocolError hid).mpr (validUtf8_utf8 _)) hname⟩

/-! ## One line -/

theorem validUtf8_of_extractProtocolVersion {message : Json} (hmessage : message.isUtf8 = true)
    {version : Bytes} (h : extractProtocolVersion message = some version) : ValidUtf8 version := by
  rw [extractProtocolVersion] at h
  split at h
  · rename_i info hinfo
    split at h
    · rename_i text htext
      obtain rfl := Option.some.inj h
      exact Json.isUtf8_string.mp
        (Json.isUtf8_of_member? (Json.isUtf8_of_member? hmessage hinfo) htext)
    · cases h
  · cases h

/-- Every message is dispatched to writes that end well. -/
theorem dispatchMessage_writes (hlibrary : library.Documented) {message : Json}
    (hmessage : message.isUtf8 = true) (hregistry : ∀ tool ∈ registry.tools, tool.Printable) :
    match message.member? "id" with
    | none => Writes (dispatchMessage library message registry) []
    | some id => ∃ reply, Writes (dispatchMessage library message registry) (dumped library reply) ∧
        IsReply id reply ∧ (reply.isUtf8 = true ↔
          (CallsTool message → Answerable library registry (readParams message))) := by
  have hparams : (readParams message).isUtf8 = true := by
    rw [readParams]
    split
    · rename_i params hparams
      exact Json.isUtf8_of_member? hmessage hparams
    · rfl
  rw [dispatchMessage]
  cases hid : message.member? "id" with
  | none => exact writes_skip
  | some id =>
    dsimp only
    have hutf8 := Json.isUtf8_of_member? hmessage hid
    obtain ⟨reply, hroute, hreply, hanswerable⟩ := @routeRequest_eq library registry id
      (readParams message) (readMethod message) hutf8 hparams hregistry
    rw [hroute]
    cases hversion : extractProtocolVersion message with
    | none =>
      refine ⟨reply, writes_dumped library reply, hreply, hanswerable.trans ?_⟩
      rw [CallsTool, hversion]
      simp
    | some version =>
      dsimp only
      split
      · rename_i hsupported
        refine ⟨reply, writes_dumped library reply, hreply, hanswerable.trans ?_⟩
        rw [CallsTool, hversion]
        simp [hsupported]
      · rename_i hunsupported
        have hmismatch : (makeVersionMismatch id version).isUtf8 = true :=
          isUtf8_makeVersionMismatch hutf8 (validUtf8_of_extractProtocolVersion hmessage hversion)
        have hwrites := writes_catching library (makeVersionMismatch id version)
          (writes_dumped library reply)
        rw [if_neg (fun hnone => by
          rw [(dumped_eq_nil_iff hlibrary).mp hnone] at hmismatch
          cases hmismatch)] at hwrites
        exact ⟨_, hwrites, isReply_makeVersionMismatch id version, iff_of_true hmismatch fun hcalls =>
          absurd (hcalls.2 version hversion) hunsupported⟩

/-- The writes of a line in the loop. -/
def lineOutput (library : JsonLibrary) (registry : ToolRegistry) (line : Bytes) : List Bytes :=
  (serveLine library registry line []).2

theorem Writes.lineOutput {line : Bytes} {written : List Bytes}
    (h : Writes (serveLine library registry line) written) :
    lineOutput library registry line = written := by
  rw [Mcp.lineOutput, h]
  rfl

theorem Request.serveLine_writes (hlibrary : library.Documented)
    (hregistry : ∀ tool ∈ registry.tools, tool.Printable) {line : Bytes} {message id : Json}
    (h : Request library line message id) : ∃ reply,
      Writes (serveLine library registry line) (dumped library reply) ∧ IsReply id reply ∧
      (reply.isUtf8 = true ↔
        (CallsTool message → Answerable library registry (readParams message))) := by
  obtain ⟨tree, htree, hdepth⟩ := h.shallow
  have hdispatch := dispatchMessage_writes hlibrary (hlibrary.parse line message h.parse) hregistry
  rw [h.id] at hdispatch
  obtain ⟨reply, hwrites, hreply, hanswerable⟩ := hdispatch
  have hvalid : isValidEnvelope message = true := by
    rw [isValidEnvelope, h.version]
    simp [Json.text, h.id]
  refine ⟨reply, ?_, hreply, hanswerable⟩
  rw [serveLine, if_neg htree.ne_nil, if_neg (by
    rw [exceedsMaxDepth_document htree]
    simpa using hdepth), h.parse]
  dsimp only
  rw [if_pos hvalid]
  exact hwrites.catching skip

/-- A notification is answered only when its line nests too deep. -/
theorem Notification.serveLine_writes {line : Bytes} {message : Json}
    (h : Notification library line message) :
    Writes (serveLine library registry line)
      (if exceedsMaxDepth line kMaxJsonDepth then
        match tryRecoverId line with
        | some id => dumped library (makeNestingTooDeep id)
        | none => []
      else []) := by
  obtain ⟨name, hname⟩ := h.method
  have hvalid : isValidEnvelope message = true := by
    rw [isValidEnvelope, h.version]
    simp [Json.text, h.id, hname, List.isPrefixOf_iff_prefix]
  rw [serveLine]
  split
  · rename_i hempty
    subst hempty
    exact writes_skip
  · split
    · rw [rejectOverDeepLine]
      cases tryRecoverId line with
      | none => exact writes_skip
      | some id => exact writes_dumped library _
    · rw [h.parse]
      dsimp only
      rw [if_pos hvalid, dispatchMessage, h.id]
      exact writes_skip.catching skip

/-- Every line is served to its end. -/
theorem serveLine_writes (hlibrary : library.Documented)
    (hregistry : ∀ tool ∈ registry.tools, tool.Printable) (line : Bytes) :
    Writes (serveLine library registry line) (lineOutput library registry line) := by
  have hexists : ∃ written, Writes (serveLine library registry line) written := by
    rw [serveLine]
    split
    · exact ⟨_, writes_skip⟩
    split
    · rw [rejectOverDeepLine]
      cases tryRecoverId line with
      | none => exact ⟨_, writes_skip⟩
      | some id => exact ⟨_, writes_dumped library _⟩
    cases hparse : library.parse line with
    | error what =>
      dsimp only
      cases tryRecoverId line with
      | none => exact ⟨_, writes_skip⟩
      | some id => exact ⟨_, writes_dumped library _⟩
    | ok message =>
      dsimp only
      split
      · have hdispatch := dispatchMessage_writes hlibrary (hlibrary.parse line message hparse)
          hregistry
        split at hdispatch
        · exact ⟨_, hdispatch.catching skip⟩
        · obtain ⟨reply, hwrites, -⟩ := hdispatch
          exact ⟨_, hwrites.catching skip⟩
      · exact ⟨_, (writes_dumped library _).catching skip⟩
  obtain ⟨written, hwritten⟩ := hexists
  rwa [hwritten.lineOutput]

/-- The output of one line against the condition on it. -/
theorem answered_iff (hlibrary : library.Documented)
    (hregistry : ∀ tool ∈ registry.tools, tool.Printable) (line : Bytes) :
    Answered library line (lineOutput library registry line) ↔ Repliable library registry line := by
  have hrequest {message id : Json} (h : Request library line message id) :
      (∃ reply text, lineOutput library registry line = [text] ∧ library.dump reply = .ok text ∧
        newline ∉ text ∧ IsReply id reply) ↔
      (CallsTool message → Answerable library registry (readParams message)) := by
    obtain ⟨reply, hwrites, hreply, hanswerable⟩ := h.serveLine_writes hlibrary hregistry
    rw [hwrites.lineOutput, ← hanswerable]
    constructor
    · rintro ⟨_, text, hone, -⟩
      by_contra hutf8
      rw [(dumped_eq_nil_iff hlibrary).mpr (Bool.eq_false_iff.mpr hutf8)] at hone
      cases hone
    · intro hutf8
      obtain ⟨text, hdump⟩ := (hlibrary.dump reply).mpr hutf8
      exact ⟨reply, text, by rw [dumped, hdump], hdump, hlibrary.oneLine reply text hdump, hreply⟩
  have hnotification {message : Json} (h : Notification library line message) :
      lineOutput library registry line = [] ↔ (exceedsMaxDepth line kMaxJsonDepth = true →
        ∀ id, tryRecoverId line = some id → id.isUtf8 = false) := by
    rw [h.serveLine_writes.lineOutput]
    split
    · rename_i hdeep
      cases tryRecoverId line with
      | none => simp
      | some id =>
        dsimp only
        rw [dumped_eq_nil_iff hlibrary, isUtf8_makeNestingTooDeep]
        simp [hdeep]
    · rename_i hshallow
      simp [hshallow]
  constructor
  · intro h
    exact ⟨fun message id hline => (hrequest hline).mp (h.request message id hline),
      fun message hline => (hnotification hline).mp (h.notification message hline)⟩
  · intro h
    refine ⟨fun message id hline => (hrequest hline).mpr (h.request message id hline),
      fun message hline => (hnotification hline).mpr (h.notification message hline), ?_⟩
    rintro rfl
    rfl

/-! ## Runs -/

/-- The loop writes what each line writes, in the order of the lines. -/
theorem serveLines_writes (hlibrary : library.Documented)
    (hregistry : ∀ tool ∈ registry.tools, tool.Printable) (lines : List Bytes) :
    Writes (serveLines library registry lines) (lines.flatMap (lineOutput library registry)) := by
  induction lines with
  | nil => exact writes_skip
  | cons line lines ih =>
    intro output
    have hline := serveLine_writes hlibrary hregistry line output
    rw [serveLines]
    dsimp only
    rw [hline]
    dsimp only
    rw [ih, List.flatMap_cons, List.append_assoc]

theorem serverRegistry_printable (handlers : Handlers) :
    ∀ tool ∈ (serverRegistry handlers).tools, tool.Printable :=
  ToolRegistry.setHandler_printable (ToolRegistry.setHandler_printable
    (ToolRegistry.setHandler_printable (ToolRegistry.setHandler_printable
      (ToolRegistry.setHandler_printable withSchemas_printable))))

theorem runServer_eq (hlibrary : library.Documented) (handlers : Handlers) (lines : List Bytes) :
    runServer library handlers lines =
      (.ok (), lines.flatMap (lineOutput library (serverRegistry handlers))) :=
  serveLines_writes hlibrary (serverRegistry_printable handlers) lines []

theorem AnswersOnce.repliable (hlibrary : library.Documented) {handlers : Handlers}
    {lines : List Bytes} (h : AnswersOnce library handlers lines) :
    ∀ line ∈ lines, Repliable library (serverRegistry handlers) line := by
  intro line hline
  obtain ⟨before, after, rfl⟩ := List.append_of_mem hline
  obtain ⟨written, houtput, hwritten⟩ := h.2 before line after rfl
  rw [runServer_eq hlibrary, runServer_eq hlibrary, List.flatMap_append] at houtput
  have hwrites := List.append_cancel_left houtput
  rw [List.flatMap_singleton] at hwrites
  exact (answered_iff hlibrary (serverRegistry_printable handlers) line).mp (hwrites ▸ hwritten)

/-- **Requests are answered once exactly when their replies can be printed.** -/
theorem answers_once_iff (library : JsonLibrary) (hlibrary : library.Documented)
    (handlers : Handlers) (lines : List Bytes) :
    AnswersOnce library handlers lines ↔
      ∀ line ∈ lines, Repliable library (serverRegistry handlers) line := by
  refine ⟨AnswersOnce.repliable hlibrary, fun h => ?_⟩
  refine ⟨by rw [runServer_eq hlibrary], fun before line after hlines => ?_⟩
  refine ⟨lineOutput library (serverRegistry handlers) line, ?_,
    (answered_iff hlibrary (serverRegistry_printable handlers) line).mpr
      (h line (by simp [hlines]))⟩
  rw [runServer_eq hlibrary, runServer_eq hlibrary, List.flatMap_append, List.flatMap_singleton]

/-! ## A call of `parse_arxml` -/

def printDouble (_ : UInt64) : Bytes := utf8 "0.0"

/-- A library that parses the text of one message. -/
def libraryFor (message : Json) : JsonLibrary where
  parse line :=
    if line = print printDouble message then .ok message else .error (utf8 "parse error")
  dump value :=
    if value.isUtf8 then .ok (print printDouble value)
    else .error (utf8 "[json.exception.type_error.316] invalid UTF-8 byte")
  validate _ _ := .ok true

theorem libraryFor_documented {message : Json} (hmessage : message.isUtf8 = true) :
    (libraryFor message).Documented := by
  refine ⟨fun value => ?_, fun value line hline => ?_, fun line value hline => ?_⟩
  · rw [libraryFor]
    dsimp only
    split
    · rename_i hutf8
      simp [hutf8]
    · rename_i hutf8
      simp [hutf8]
  · have hvisible := @visible_print printDouble
      (fun _ => show Visible (utf8 "0.0") by decide) value
    rw [libraryFor] at hline
    dsimp only at hline
    split at hline
    · obtain rfl := Except.ok.inj hline
      exact fun hnewline => absurd (hvisible newline hnewline) (by decide)
    · cases hline
  · rw [libraryFor] at hline
    dsimp only at hline
    split at hline
    · rwa [← Except.ok.inj hline]
    · cases hline

def parseParams : Json :=
  .ofMembers [("name", .text "parse_arxml"), ("arguments", .ofMembers [("path", .text "a.arxml")])]

def parseCall : Json :=
  .ofMembers [("jsonrpc", .text "2.0"), ("id", .integer 1), ("method", .text "tools/call"),
    ("params", parseParams)]

/-- Four other tools that return nothing. -/
def withParseTool (parseTool : Handler) : Handlers where
  parseTool := parseTool
  validateTool _ := .ok (.object [])
  diffTool _ := .ok (.object [])
  writeTool _ := .ok (.object [])
  exportTool _ := .ok (.object [])

theorem parseCall_isUtf8 : parseCall.isUtf8 = true := by decide +kernel

theorem parseCall_member? {key : String} {value : Json} (h : (key, value) ∈
    [("jsonrpc", .text "2.0"), ("id", .integer 1), ("method", .text "tools/call"),
      ("params", parseParams)]) : parseCall.member? key = some value := by
  refine Json.member?_ofMembers ?_ h
  show (["jsonrpc", "id", "method", "params"].map utf8).Nodup
  decide

theorem parseCall_request : Request (libraryFor parseCall) (print printDouble parseCall) parseCall
    (.integer 1) := by
  refine ⟨⟨parseCall, document_print (by decide +kernel), by decide +kernel⟩, ?_,
    parseCall_member? (by simp), parseCall_member? (by simp)⟩
  simp [libraryFor]

theorem parseCall_callsTool : CallsTool parseCall := by
  have hmeta : parseCall.member? "_meta" = none := by
    refine Json.member?_ofMembers_none ?_
    show utf8 "_meta" ∉ ["jsonrpc", "id", "method", "params"].map utf8
    decide
  refine ⟨?_, ?_⟩
  · rw [readMethod, @parseCall_member? "method" (.text "tools/call") (by simp)]
    rfl
  · rw [extractProtocolVersion, hmeta]
    nofun

theorem find_parse_arxml (handlers : Handlers) :
    ((serverRegistry handlers).find (utf8 "parse_arxml")).map ToolDefinition.handler =
      some handlers.parseTool := by
  simp [serverRegistry, ToolRegistry.setHandler, ToolRegistry.withSchemas,
    ToolRegistry.registerTool, toolDefinition, ToolRegistry.find, utf8_inj]

/-- The call is answerable when what `parseTool` returns or throws can be printed. -/
theorem parseCall_answerable_iff (handlers : Handlers) :
    Answerable (libraryFor parseCall) (serverRegistry handlers) (readParams parseCall) ↔
      Printable (handlers.parseTool (.ofMembers [("path", .text "a.arxml")])) := by
  have hparams : readParams parseCall = parseParams := by
    rw [readParams, @parseCall_member? "params" parseParams (by simp)]
    rfl
  have hmember {key : String} {value : Json} (h : (key, value) ∈ [("name", .text "parse_arxml"),
      ("arguments", .ofMembers [("path", .text "a.arxml")])]) :
      parseParams.member? key = some value := by
    refine Json.member?_ofMembers ?_ h
    show (["name", "arguments"].map utf8).Nodup
    decide
  have hname : toolName parseParams = utf8 "parse_arxml" := by
    rw [toolName, @hmember "name" (.text "parse_arxml") (by simp)]
    rfl
  have harguments : toolArguments parseParams = some (.ofMembers [("path", .text "a.arxml")]) := by
    rw [toolArguments, @hmember "arguments" (.ofMembers [("path", .text "a.arxml")]) (by simp)]
    rfl
  obtain ⟨tool, htool, hhandler⟩ := Option.map_eq_some_iff.mp (find_parse_arxml handlers)
  rw [hparams, Answerable, hname, harguments, htool, ← hhandler]
  constructor
  · exact fun h => h _ _ rfl rfl
  · rintro h arguments other harguments hother
    obtain rfl := Option.some.inj harguments
    obtain rfl := Option.some.inj hother
    exact h

/-- The call is answered whenever its handler's result can be printed. -/
theorem parseCall_repliable {handlers : Handlers}
    (h : Printable (handlers.parseTool (.ofMembers [("path", .text "a.arxml")]))) :
    Repliable (libraryFor parseCall) (serverRegistry handlers) (print printDouble parseCall) where
  request message id hrequest _ := by
    have hparse := hrequest.parse
    simp only [libraryFor, if_pos, Except.ok.injEq] at hparse
    obtain rfl := hparse
    exact (parseCall_answerable_iff handlers).mpr h
  notification _ _ hdeep _ _ := by
    have hshallow : exceedsMaxDepth (print printDouble parseCall) kMaxJsonDepth = false := by
      decide +kernel
    rw [hshallow] at hdeep
    cases hdeep

/-- The handler returns an empty object. -/
theorem answers_once_iff_parseCall :
    AnswersOnce (libraryFor parseCall) (withParseTool fun _ => .ok (.object []))
      [print printDouble parseCall] := by
  refine (answers_once_iff (libraryFor parseCall) (libraryFor_documented parseCall_isUtf8)
    (withParseTool fun _ => .ok (.object [])) [print printDouble parseCall]).mpr ?_
  refine List.forall_mem_singleton.mpr (parseCall_repliable ?_)
  have hunpack : unpack (.object []) = .ok (.object [], utf8 "ok") := rfl
  rintro payload summary h
  obtain ⟨rfl, rfl⟩ := Prod.mk.inj (Except.ok.inj (hunpack.symm.trans h))
  exact ⟨rfl, validUtf8_utf8 "ok"⟩

/-- The handler returns a payload that is not UTF-8, and the call gets no reply. -/
theorem invalid_payload_unanswered : ¬ ∀ (handlers : Handlers) (lines : List Bytes),
    AnswersOnce (libraryFor parseCall) handlers lines := by
  intro h
  have hrepliable := (h (withParseTool fun _ =>
    .ok (.ofMembers [("structuredContent", .string [0xFF])])) [print printDouble parseCall]).repliable
      (libraryFor_documented parseCall_isUtf8) (print printDouble parseCall) (by simp)
  have hprintable := (parseCall_answerable_iff _).mp
    (hrepliable.request parseCall (.integer 1) parseCall_request parseCall_callsTool)
  exact absurd (hprintable (.string [0xFF]) (utf8 "ok") rfl).1 (by decide +kernel)

end ParseX.Mcp

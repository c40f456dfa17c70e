import ParseX.Mcp.Protocol
import ParseX.Mcp.ToolRegistry

/-! # Calling a tool

`dispatchToolsCall`: unknown tools and bad arguments become protocol errors, a
handler that throws becomes a result with `isError`. -/
namespace ParseX.Mcp
open Cpp

/-- The JSON libraries; an error is the text of the exception. -/
structure JsonLibrary where
  parse : Bytes → Except Bytes Json
  dump : Json → Except Bytes Bytes
  /-- Whether arguments match a schema. -/
  validate : (schema arguments : Json) → Except Bytes Bool

/-! ## Reading a value -/

def typeName : Json → String
  | .null => "null"
  | .boolean _ => "boolean"
  | .integer _ | .double _ => "number"
  | .string _ => "string"
  | .array _ => "array"
  | .object _ => "object"

def cannotUseValue (value : Json) : Thrown :=
  .exception (utf8 ("[json.exception.type_error.306] cannot use value() with " ++ typeName value))

def mustBeString (value : Json) : Thrown :=
  .exception (utf8 ("[json.exception.type_error.302] type must be string, but is " ++ typeName value))

/-- `value.value(key, default)`. -/
def valueOr (value : Json) (key : String) (default : Json) : Except Thrown Json :=
  match value with
  | .object _ => .ok ((value.member? key).getD default)
  | _ => .error (cannotUseValue value)

def stringOr (value : Json) (key : String) (default : String) : Except Thrown Bytes :=
  match value with
  | .object _ =>
    match value.member? key with
    | none => .ok (utf8 default)
    | some (.string bytes) => .ok bytes
    | some other => .error (mustBeString other)
  | _ => .error (cannotUseValue value)

/-! ## Replies -/

/-- An error text of `argumentsMatchSchema`, none for arguments that match. -/
def argumentsMatchSchema (library : JsonLibrary) (arguments schema : Json) : Option Bytes :=
  match library.validate schema arguments with
  | .ok true => none
  | .ok false => some (utf8 "arguments do not match tool schema")
  | .error what => some what

def makeUnknownToolError (id : Json) (name : Bytes) : Json :=
  makeProtocolError id (-32602) (utf8 "Unknown tool: " ++ name)

def makeInvalidParamsError (id : Json) (detail : Bytes) : Json :=
  makeProtocolError id (-32602) (utf8 "Invalid params: " ++ detail)

def textContent (text : Bytes) : Json :=
  .array [.ofMembers [("type", .text "text"), ("text", .string text)]]

def wrapToolSuccess (structured : Json) (summary : Bytes) : Json :=
  .ofMembers [("resultType", .text "complete"), ("content", textContent summary),
    ("structuredContent", structured)]

def wrapToolError (message : Bytes) : Json :=
  .ofMembers [("content", textContent message), ("isError", .boolean true)]

/-- A reply with a result. -/
def makeResult (id result : Json) : Json :=
  .ofMembers [("jsonrpc", .text "2.0"), ("id", id), ("result", result)]

/-- A reply with the error of another one. -/
def makeError (id reply : Json) : Json :=
  .ofMembers [("jsonrpc", .text "2.0"), ("id", id),
    ("error", (reply.member? "error").getD .null)]

/-! ## The call -/

/-- The payload and the summary that a handler has packed. -/
def unpack (structured : Json) : Except Thrown (Json × Bytes) := do
  let payload ← valueOr structured "structuredContent" structured
  let summary ← stringOr structured "summary" "ok"
  return ((structured.member? "structuredContent").getD payload, summary)

def toolName (params : Json) : Bytes :=
  match params.member? "name" with
  | some (.string name) => name
  | _ => []

/-- The arguments, none when they are no object. -/
def toolArguments (params : Json) : Option Json :=
  match params.member? "arguments" with
  | some (.object arguments) => some (.object arguments)
  | some _ => none
  | none => some (.object [])

def callTool (tool : ToolDefinition) (arguments : Json) : Json :=
  match tool.handler arguments >>= unpack with
  | .ok (payload, summary) => wrapToolSuccess payload summary
  | .error (.exception what) => wrapToolError what
  | .error .other => wrapToolError (utf8 "tool failed")

def dispatchToolsCall (library : JsonLibrary) (id params : Json) (registry : ToolRegistry) : Json :=
  match toolArguments params with
  | none => makeInvalidParamsError id (utf8 "arguments must be an object")
  | some arguments =>
    match registry.find (toolName params) with
    | none => makeError id (makeUnknownToolError id (toolName params))
    | some tool =>
      match argumentsMatchSchema library arguments tool.inputSchema with
      | some schemaError => makeError id (makeInvalidParamsError id schemaError)
      | none => makeResult id (callTool tool arguments)

/-! ## What a reply is -/

/-- A reply to a request: its id, and a result or an error. -/
structure IsReply (id reply : Json) : Prop where
  jsonrpc : reply.member? "jsonrpc" = some (.text "2.0")
  id : reply.member? "id" = some id
  one : (reply.member? "result").isSome = !(reply.member? "error").isSome

theorem isReply_error (id error : Json) : IsReply id
    (.ofMembers [("jsonrpc", .text "2.0"), ("id", id), ("error", error)]) := by
  have hdistinct : (["jsonrpc", "id", "error"].map utf8).Nodup := by decide
  have hmember (key : String) (value : Json)
      (h : (key, value) ∈ [("jsonrpc", .text "2.0"), ("id", id), ("error", error)]) :=
    Json.member?_ofMembers (by exact hdistinct) h
  have hresult : (Json.ofMembers [("jsonrpc", .text "2.0"), ("id", id),
      ("error", error)]).member? "result" = none := by
    refine Json.member?_ofMembers_none ?_
    show utf8 "result" ∉ ["jsonrpc", "id", "error"].map utf8
    decide
  refine ⟨hmember _ _ (by simp), hmember _ _ (by simp), ?_⟩
  rw [hresult, hmember "error" error (by simp)]
  rfl

theorem isReply_makeProtocolError (id : Json) (code : Int) (message : Bytes) :
    IsReply id (makeProtocolError id code message) :=
  isReply_error id (.ofMembers [("code", .integer code), ("message", .string message)])

theorem isReply_makeError (id reply : Json) : IsReply id (makeError id reply) :=
  isReply_error id ((reply.member? "error").getD .null)

theorem isReply_result (id result : Json) : IsReply id (makeResult id result) := by
  have hdistinct : (["jsonrpc", "id", "result"].map utf8).Nodup := by decide
  have hmember (key : String) (value : Json)
      (h : (key, value) ∈ [("jsonrpc", .text "2.0"), ("id", id), ("result", result)]) :=
    Json.member?_ofMembers (by exact hdistinct) h
  have herror : (makeResult id result).member? "error" = none := by
    refine Json.member?_ofMembers_none ?_
    show utf8 "error" ∉ ["jsonrpc", "id", "result"].map utf8
    decide
  refine ⟨hmember _ _ (by simp), hmember _ _ (by simp), ?_⟩
  rw [herror, makeResult, hmember "result" result (by simp)]
  rfl

theorem isUtf8_error {id error : Json} (hid : id.isUtf8 = true) :
    (Json.ofMembers [("jsonrpc", .text "2.0"), ("id", id), ("error", error)]).isUtf8 = true ↔
      error.isUtf8 = true := by
  refine (Json.isUtf8_ofMembers_iff ?_).trans (by simp [hid])
  show (["jsonrpc", "id", "error"].map utf8).Nodup
  decide

theorem isUtf8_result {id result : Json} (hid : id.isUtf8 = true) :
    (makeResult id result).isUtf8 = true ↔ result.isUtf8 = true := by
  refine (Json.isUtf8_ofMembers_iff ?_).trans (by simp [hid])
  show (["jsonrpc", "id", "result"].map utf8).Nodup
  decide

/-- A protocol error can be printed when its message can. -/
theorem isUtf8_makeProtocolError {id : Json} (hid : id.isUtf8 = true) {code : Int}
    {message : Bytes} : (makeProtocolError id code message).isUtf8 = true ↔ ValidUtf8 message := by
  refine (isUtf8_error hid).trans ((Json.isUtf8_ofMembers_iff ?_).trans
    (by simp [Json.isUtf8_string]))
  show (["code", "message"].map utf8).Nodup
  decide

theorem member?_error_makeProtocolError (id : Json) (code : Int) (message : Bytes) :
    (makeProtocolError id code message).member? "error" =
      some (.ofMembers [("code", .integer code), ("message", .string message)]) := by
  refine Json.member?_ofMembers ?_ (by simp)
  show (["jsonrpc", "id", "error"].map utf8).Nodup
  decide

/-- A protocol error sent under the same id is the error itself. -/
theorem makeError_makeProtocolError (id : Json) (code : Int) (message : Bytes) :
    makeError id (makeProtocolError id code message) = makeProtocolError id code message := by
  rw [makeError, member?_error_makeProtocolError]
  rfl

/-- An error about nesting answers the recovered id. -/
theorem isReply_makeNestingTooDeep (id : Json) : IsReply id (makeNestingTooDeep id) := by
  have hresponse := isReply_makeProtocolError id (-32600) (utf8 tooDeepMessage)
  have hother {key : String} (hkey : utf8 "error" ≠ utf8 key) :
      (makeNestingTooDeep id).member? key =
        (makeProtocolError id (-32600) (utf8 tooDeepMessage)).member? key := by
    rw [makeNestingTooDeep]
    exact Json.member?_set_of_ne hkey _ _
  refine ⟨(hother (by decide)).trans hresponse.jsonrpc, (hother (by decide)).trans hresponse.id, ?_⟩
  rw [hother (by decide), hresponse.one, member?_error_makeProtocolError, makeNestingTooDeep,
    Json.member?_set_self]
  rfl

theorem isUtf8_makeNestingTooDeep {id : Json} :
    (makeNestingTooDeep id).isUtf8 = id.isUtf8 := by
  rw [Bool.eq_iff_iff]
  refine ⟨fun h => Json.isUtf8_of_member? h (isReply_makeNestingTooDeep id).id, fun hid => ?_⟩
  have hdata : (Json.ofMembers [("maxDepth", .integer kMaxJsonDepth)]).isUtf8 = true :=
    Json.isUtf8_ofMembers (by simp)
  have hresponse : (makeProtocolError id (-32600) (utf8 tooDeepMessage)).isUtf8 = true :=
    (isUtf8_makeProtocolError hid).mpr (validUtf8_utf8 _)
  refine Json.isUtf8_set (Json.isUtf8_set hdata ?_) hresponse
  rw [member?_error_makeProtocolError]
  exact Json.isUtf8_of_member? hresponse (member?_error_makeProtocolError id _ _)

theorem isUtf8_textContent {text : Bytes} :
    (textContent text).isUtf8 = true ↔ ValidUtf8 text := by
  rw [textContent, Json.isUtf8_array, List.forall_mem_singleton]
  refine (Json.isUtf8_ofMembers_iff ?_).trans (by simp [Json.isUtf8_string])
  show (["type", "text"].map utf8).Nodup
  decide

theorem isUtf8_wrapToolSuccess {structured : Json} {summary : Bytes} :
    (wrapToolSuccess structured summary).isUtf8 = true ↔
      structured.isUtf8 = true ∧ ValidUtf8 summary := by
  refine (Json.isUtf8_ofMembers_iff ?_).trans (by simp [isUtf8_textContent, and_comm])
  show (["resultType", "content", "structuredContent"].map utf8).Nodup
  decide

theorem isUtf8_wrapToolError {message : Bytes} :
    (wrapToolError message).isUtf8 = true ↔ ValidUtf8 message := by
  refine (Json.isUtf8_ofMembers_iff ?_).trans (by simp [isUtf8_textContent])
  show (["content", "isError"].map utf8).Nodup
  decide

/-! ## Which calls can be answered -/

/-- What a handler returns or throws can be packed and printed. -/
def Printable : Except Thrown Json → Prop
  | .ok structured => ∀ payload summary, unpack structured = .ok (payload, summary) →
      payload.isUtf8 = true ∧ ValidUtf8 summary
  | .error (.exception what) => ValidUtf8 what
  | .error .other => True

/-- What a `tools/call` reaches can be printed: the text of the validator's
exception, or what the handler returns or throws. -/
def Answerable (library : JsonLibrary) (registry : ToolRegistry) (params : Json) : Prop :=
  ∀ arguments tool, toolArguments params = some arguments →
    registry.find (toolName params) = some tool →
    match library.validate tool.inputSchema arguments with
    | .ok true => Printable (tool.handler arguments)
    | .ok false => True
    | .error what => ValidUtf8 what

/-- The exceptions that unpacking throws have plain texts. -/
theorem text_of_unpack {structured : Json} {thrown : Thrown}
    (h : unpack structured = .error thrown) : ∃ text, thrown = .exception (utf8 text) := by
  have hvalue : (∃ members, structured = .object members) ∨
      valueOr structured "structuredContent" structured = .error (cannotUseValue structured) := by
    cases structured with
    | object members => exact .inl ⟨members, rfl⟩
    | _ => exact .inr rfl
  rcases hvalue with ⟨members, rfl⟩ | hvalue
  · rw [unpack, valueOr, stringOr] at h
    cases hsummary : (Json.object members).member? "summary" with
    | none =>
      rw [hsummary] at h
      cases h
    | some summary =>
      rw [hsummary] at h
      cases summary with
      | string bytes => cases h
      | _ => exact ⟨_, (Except.error.inj h).symm⟩
  · rw [unpack, hvalue] at h
    exact ⟨_, (Except.error.inj h).symm⟩

theorem isUtf8_callTool {tool : ToolDefinition} {arguments : Json} :
    (callTool tool arguments).isUtf8 = true ↔ Printable (tool.handler arguments) := by
  rw [callTool]
  cases tool.handler arguments with
  | error thrown =>
    cases thrown with
    | exception what => exact isUtf8_wrapToolError
    | other => exact iff_of_true (isUtf8_wrapToolError.mpr (validUtf8_utf8 _)) trivial
  | ok structured =>
    show (match unpack structured with
      | .ok (payload, summary) => wrapToolSuccess payload summary
      | .error (.exception what) => wrapToolError what
      | .error .other => wrapToolError (utf8 "tool failed")).isUtf8 = true ↔ _
    rw [Printable]
    cases hunpack : unpack structured with
    | error thrown =>
      obtain ⟨text, rfl⟩ := text_of_unpack hunpack
      exact iff_of_true (isUtf8_wrapToolError.mpr (validUtf8_utf8 text)) nofun
    | ok packed =>
      refine isUtf8_wrapToolSuccess.trans ⟨fun h payload summary heq => ?_, fun h => h _ _ rfl⟩
      obtain rfl := Except.ok.inj heq
      exact h

theorem dispatchToolsCall_isReply (library : JsonLibrary) (id params : Json)
    (registry : ToolRegistry) : IsReply id (dispatchToolsCall library id params registry) := by
  rw [dispatchToolsCall]
  split
  · exact isReply_makeProtocolError id (-32602) _
  · split
    · exact isReply_makeError id _
    · split
      · exact isReply_makeError id _
      · exact isReply_result id _

/-- The reply to a call can be printed when the call is answerable. -/
theorem isUtf8_dispatchToolsCall {library : JsonLibrary} {id params : Json}
    {registry : ToolRegistry} (hid : id.isUtf8 = true) (hparams : params.isUtf8 = true) :
    (dispatchToolsCall library id params registry).isUtf8 = true ↔
      Answerable library registry params := by
  have hname : ValidUtf8 (toolName params) := by
    rw [toolName]
    split
    · rename_i name hname
      exact Json.isUtf8_string.mp (Json.isUtf8_of_member? hparams hname)
    · exact validUtf8_utf8 ""
  have hinvalid (detail : Bytes) :
      (makeInvalidParamsError id detail).isUtf8 = true ↔ ValidUtf8 detail :=
    (isUtf8_makeProtocolError hid).trans validUtf8_utf8_append
  have hmismatch (detail : Bytes) :
      (makeError id (makeInvalidParamsError id detail)).isUtf8 = true ↔ ValidUtf8 detail := by
    rw [makeInvalidParamsError, makeError_makeProtocolError]
    exact hinvalid detail
  rw [dispatchToolsCall, Answerable]
  cases harguments : toolArguments params with
  | none => exact iff_of_true ((hinvalid _).mpr (validUtf8_utf8 _)) nofun
  | some arguments =>
    dsimp only
    cases htool : registry.find (toolName params) with
    | none =>
      dsimp only
      rw [makeUnknownToolError, makeError_makeProtocolError]
      exact iff_of_true ((isUtf8_makeProtocolError hid).mpr (validUtf8_utf8_append.mpr hname)) nofun
    | some tool =>
      have honly (P : Json → ToolDefinition → Prop) : (∀ arguments' tool',
          some arguments = some arguments' → some tool = some tool' → P arguments' tool') ↔
            P arguments tool :=
        ⟨fun h => h _ _ rfl rfl, fun h _ _ harguments htool =>
          Option.some.inj harguments ▸ Option.some.inj htool ▸ h⟩
      refine Iff.trans ?_ (honly _).symm
      dsimp only
      rw [argumentsMatchSchema]
      match library.validate tool.inputSchema arguments with
      | .ok true => exact (isUtf8_result hid).trans isUtf8_callTool
      | .ok false => exact iff_of_true ((hmismatch _).mpr (validUtf8_utf8 _)) trivial
      | .error what => exact hmismatch what

end ParseX.Mcp

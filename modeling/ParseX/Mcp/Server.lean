import ParseX.Mcp.Dispatch

/-! # The server

`runServer`: each line is guarded, parsed, checked and dispatched, and replies are
written in between. What goes to the log is left out. -/
namespace ParseX.Mcp
open Cpp

/-! ## Writing -/

/-- A part of the server: what it throws and the lines written when it ends. -/
abbrev Serve := List Bytes → Except Thrown Unit × List Bytes

def skip : Serve := fun output => (.ok (), output)

def writeMessage (library : JsonLibrary) (message : Json) : Serve := fun output =>
  match library.dump message with
  | .ok line => (.ok (), output ++ [line])
  | .error what => (.error (.exception what), output)

/-- `try { body } catch (const std::exception&) { handler }`. -/
def catching (body handler : Serve) : Serve := fun output =>
  match body output with
  | (.error (.exception _), output) => handler output
  | outcome => outcome

/-! ## Versions -/

def kProtocolVersion : String := "2026-07-28"

def supportedVersions : List Bytes := [utf8 kProtocolVersion]

def extractProtocolVersion (message : Json) : Option Bytes :=
  match message.member? "_meta" with
  | some info =>
    match info.member? "io.modelcontextprotocol/protocolVersion" with
    | some (.string version) => some version
    | _ => none
  | none => none

def isSupportedVersion (version : Bytes) : Bool := supportedVersions.contains version

def buildDiscoverResult : Json :=
  .ofMembers [("resultType", .text "complete"), ("supportedVersions", texts [kProtocolVersion]),
    ("capabilities", .ofMembers [("tools", .ofMembers [("listChanged", .boolean false)])]),
    ("_meta", .ofMembers [("io.modelcontextprotocol/serverInfo",
      .ofMembers [("name", .text "parsex-mcp"), ("version", .text "0.2.0")])])]

/-- An error that lists the supported versions. -/
def makeVersionError (id : Json) (message : Bytes) : Json :=
  .ofMembers [("jsonrpc", .text "2.0"), ("id", id),
    ("error", .ofMembers [("code", .integer (-32600)), ("message", .string message),
      ("data", .ofMembers [("supportedVersions", texts ["2026-07-28"])])])]

def makeVersionMismatch (requestId : Json) (version : Bytes) : Json :=
  makeVersionError requestId
    (utf8 "Unsupported protocol version: " ++ (version ++ utf8 ". Supported versions: 2026-07-28"))

def sendVersionMismatch (library : JsonLibrary) (requestId : Json) (version : Bytes) : Serve :=
  writeMessage library (makeVersionMismatch requestId version)

def sendLegacyInitialize (library : JsonLibrary) (requestId : Json) : Serve :=
  writeMessage library (makeVersionError requestId
    (utf8 ("Legacy initialize handshake is not supported. This server requires protocol " ++
      "version 2026-07-28 with per-request _meta.")))

/-! ## Dispatch -/

def readMethod (message : Json) : Bytes :=
  match message.member? "method" with
  | some (.string method) => method
  | _ => []

def readParams (message : Json) : Json :=
  match message.member? "params" with
  | some (.object params) => .object params
  | _ => .object []

/-- `routeRequest`; the listing ignores its cursor. -/
def routeRequest (library : JsonLibrary) (requestId : Json) (method : Bytes) (params : Json)
    (registry : ToolRegistry) : Serve :=
  if method = utf8 "server/discover" then
    writeMessage library (makeResult requestId buildDiscoverResult)
  else if method = utf8 "tools/list" then
    writeMessage library (makeResult requestId (buildToolsListResult registry))
  else if method = utf8 "tools/call" then
    writeMessage library (dispatchToolsCall library requestId params registry)
  else if method = utf8 "initialize" then sendLegacyInitialize library requestId
  else writeMessage library (makeMethodNotFound requestId)

def dispatchMessage (library : JsonLibrary) (message : Json) (registry : ToolRegistry) : Serve :=
  match message.member? "id" with
  | none => skip -- A notification is at most logged.
  | some requestId =>
    let route := catching
      (routeRequest library requestId (readMethod message) (readParams message) registry) skip
    match extractProtocolVersion message with
    | some version =>
      if isSupportedVersion version then route
      else catching (sendVersionMismatch library requestId version) route
    | none => route

def rejectOverDeepLine (library : JsonLibrary) (line : Bytes) : Serve :=
  match tryRecoverId line with
  | some recovered => catching (writeMessage library (makeNestingTooDeep recovered)) skip
  | none => skip

/-- One turn of the loop. -/
def serveLine (library : JsonLibrary) (registry : ToolRegistry) (line : Bytes) : Serve :=
  if line = [] then skip
  else if exceedsMaxDepth line kMaxJsonDepth then rejectOverDeepLine library line
  else
    match library.parse line with
    | .error _ =>
      match tryRecoverId line with
      | some recovered => catching (writeMessage library (makeParseError recovered)) skip
      | none => skip
    | .ok message =>
      catching
        (if isValidEnvelope message then dispatchMessage library message registry
        else catching (writeMessage library (makeInvalidRequest (idOrNull message))) skip)
        skip

def serveLines (library : JsonLibrary) (registry : ToolRegistry) : List Bytes → Serve
  | [] => skip
  | line :: lines => fun output =>
    match serveLine library registry line output with
    | (.ok (), output) => serveLines library registry lines output
    | (.error thrown, output) => (.error thrown, output)

/-- The handlers of the five tools. -/
structure Handlers where
  parseTool : Handler
  validateTool : Handler
  diffTool : Handler
  writeTool : Handler
  exportTool : Handler

def serverRegistry (handlers : Handlers) : ToolRegistry :=
  ((((ToolRegistry.withSchemas.setHandler "parse_arxml" handlers.parseTool).setHandler
    "validate_arxml" handlers.validateTool).setHandler
    "diff_arxml" handlers.diffTool).setHandler
    "write_arxml" handlers.writeTool).setHandler
    "export_arxml" handlers.exportTool

/-- How the loop ends after these lines, and the lines it has written. -/
def runServer (library : JsonLibrary) (handlers : Handlers) (lines : List Bytes) :
    Except Thrown Unit × List Bytes :=
  serveLines library (serverRegistry handlers) lines []

end ParseX.Mcp

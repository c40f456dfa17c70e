import ParseX.Base.Json

/-! # The tool registry

One definition of every tool, read by listing and by calling. -/
namespace ParseX.Mcp
open Cpp

/-! ## Tools -/

/-- What is thrown: a `std::exception` with its text, or anything else. -/
inductive Thrown where
  | exception (what : Bytes)
  | other

abbrev Handler := Json → Except Thrown Json

structure ToolDefinition where
  name : String
  title : String
  description : String
  inputSchema : Json := .object []
  outputSchema : Option Json := none
  annotations : Json := .object []
  handler : Handler

/-- The tools in the order of their registration. -/
structure ToolRegistry where
  tools : List ToolDefinition

def ToolRegistry.registerTool (registry : ToolRegistry) (definition : ToolDefinition) :
    ToolRegistry :=
  if registry.tools.any fun tool => tool.name = definition.name then
    ⟨registry.tools.map fun tool => if tool.name = definition.name then definition else tool⟩
  else ⟨registry.tools ++ [definition]⟩

def ToolRegistry.find (registry : ToolRegistry) (name : Bytes) : Option ToolDefinition :=
  registry.tools.find? fun tool => utf8 tool.name = name

def ToolRegistry.setHandler (registry : ToolRegistry) (name : String) (handler : Handler) :
    ToolRegistry :=
  ⟨registry.tools.map fun tool => if tool.name = name then { tool with handler } else tool⟩

def ToolRegistry.ordered (registry : ToolRegistry) : List ToolDefinition := registry.tools

/-! ## Schemas -/

/-- `{"type": type}`. -/
def typed (type : String) : Json := .ofMembers [("type", .text type)]

def describedString (description : String) : Json :=
  .ofMembers [("type", .text "string"), ("description", .text description)]

/-- A boolean that is false by default. -/
def describedFlag (description : String) : Json :=
  .ofMembers [("type", .text "boolean"), ("description", .text description),
    ("default", .boolean false)]

def texts (texts : List String) : Json := .array (texts.map .text)

/-- An object with these properties and no others. -/
def closedObject (properties : List (String × Json)) (required : List String) : Json :=
  .ofMembers [("type", .text "object"), ("properties", .ofMembers properties),
    ("required", texts required), ("additionalProperties", .boolean false)]

def parseInputSchema : Json :=
  closedObject [("path", describedString "Input ARXML file path")] ["path"]

def parseOutputSchema : Json :=
  closedObject [("sourcePath", typed "string"), ("autosarRelease", typed "string"),
    ("counts", typed "object"), ("warnings", typed "array")] ["sourcePath"]

def validateInputSchema : Json :=
  closedObject [("path", describedString "Input ARXML file path"),
    ("strict", describedFlag "Strict mode: warnings fail the verdict")] ["path"]

def validateOutputSchema : Json :=
  closedObject [("passed", typed "boolean"), ("errors", typed "array")] ["passed", "errors"]

def diffInputSchema : Json :=
  closedObject [("basePath", describedString "Base ARXML file"),
    ("targetPath", describedString "Target ARXML file")] ["basePath", "targetPath"]

def diffOutputSchema : Json :=
  closedObject [("entries", typed "array"), ("diagnostics", typed "array")] ["entries"]

def writeInputSchema : Json :=
  closedObject [("path", describedString "Input ARXML file path"),
    ("outputPath", describedString "Output ARXML file path"),
    ("apply", describedFlag "Write to disk; otherwise preview only")] ["path", "outputPath"]

def writeOutputSchema : Json :=
  closedObject [("input", typed "string"), ("output", typed "string"),
    ("applied", typed "boolean"), ("success", typed "boolean")]
    ["input", "output", "applied", "success"]

def exportInputSchema : Json :=
  closedObject [("path", describedString "Input ARXML file path"),
    ("format", .ofMembers [("type", .text "string"), ("enum", texts ["dbc", "csv"]),
      ("description", .text "Export format")])] ["path", "format"]

def exportPayloadSchema : Json :=
  .ofMembers [("type", .text "object"),
    ("properties", .ofMembers [("sourcePath", typed "string"),
      ("format", .ofMembers [("type", .text "string"), ("enum", texts ["dbc", "csv"])]),
      ("output", .ofMembers [("type", texts ["string", "null"])]),
      ("counts", typed "object"), ("warnings", typed "array"), ("content", typed "string")]),
    ("required", texts ["sourcePath", "format", "output", "counts", "warnings"])]

/-- The envelope of an export, open to further members. -/
def exportOutputSchema : Json :=
  .ofMembers [("type", .text "object"),
    ("properties", .ofMembers [("kind", .ofMembers [("const", .text "exportResult")]),
      ("payload", exportPayloadSchema)]),
    ("required", texts ["kind", "payload"])]

/-! ## The five tools -/

def readOnlyAnnotations : Json :=
  .ofMembers [("readOnlyHint", .boolean true), ("destructiveHint", .boolean false),
    ("idempotentHint", .boolean true), ("openWorldHint", .boolean false)]

def writeAnnotations : Json :=
  .ofMembers [("readOnlyHint", .boolean false), ("destructiveHint", .boolean true),
    ("idempotentHint", .boolean false), ("openWorldHint", .boolean false)]

def toolDefinition (name description : String) (inputSchema outputSchema annotations : Json) :
    ToolDefinition where
  name := name
  title := name
  description := description
  inputSchema := inputSchema
  outputSchema := some outputSchema
  annotations := annotations
  handler _ := .ok (.object [])

def ToolRegistry.withSchemas : ToolRegistry :=
  [toolDefinition "parse_arxml" "Parse an ARXML file and report its structure" parseInputSchema
      parseOutputSchema readOnlyAnnotations,
    toolDefinition "validate_arxml" "Validate an ARXML file" validateInputSchema
      validateOutputSchema readOnlyAnnotations,
    toolDefinition "diff_arxml" "Diff two ARXML files" diffInputSchema diffOutputSchema
      readOnlyAnnotations,
    toolDefinition "write_arxml"
      ("Edits an ARXML file safely. Previews changes by default without writing " ++
        "to disk. Show the user the preview and get explicit confirmation, then " ++
        "retry with apply:true to write.") writeInputSchema writeOutputSchema writeAnnotations,
    toolDefinition "export_arxml"
      ("Export an ARXML file's CAN network as DBC or CSV text (returned inline, " ++
        "nothing is written to disk)") exportInputSchema exportOutputSchema
      readOnlyAnnotations].foldl registerTool ⟨[]⟩

/-! ## Listing -/

def toolToWire (tool : ToolDefinition) : Json :=
  let wire : Json := .ofMembers [("name", .text tool.name), ("title", .text tool.title),
    ("description", .text tool.description), ("inputSchema", tool.inputSchema)]
  let wire := match tool.outputSchema with
    | some outputSchema => wire.set "outputSchema" outputSchema
    | none => wire
  wire.set "annotations" tool.annotations

def buildToolsListResult (registry : ToolRegistry) : Json :=
  .ofMembers [("tools", .array (registry.ordered.map toolToWire))]

/-! ## What is listed is UTF-8 -/

/-- The schemas and annotations of a tool can be printed. -/
structure ToolDefinition.Printable (tool : ToolDefinition) : Prop where
  inputSchema : tool.inputSchema.isUtf8 = true
  outputSchema : ∀ schema, tool.outputSchema = some schema → schema.isUtf8 = true
  annotations : tool.annotations.isUtf8 = true

theorem ToolDefinition.Printable.of {name description : String}
    {inputSchema outputSchema annotations : Json} (hinput : inputSchema.isUtf8 = true)
    (houtput : outputSchema.isUtf8 = true) (hannotations : annotations.isUtf8 = true) :
    (toolDefinition name description inputSchema outputSchema annotations).Printable := by
  refine ⟨hinput, fun schema hschema => ?_, hannotations⟩
  rwa [← Option.some.inj hschema]

theorem ToolDefinition.Printable.toolToWire {tool : ToolDefinition} (h : tool.Printable) :
    (toolToWire tool).isUtf8 = true := by
  have hwire : (Json.ofMembers [("name", .text tool.name), ("title", .text tool.title),
      ("description", .text tool.description), ("inputSchema", tool.inputSchema)]).isUtf8 = true :=
    Json.isUtf8_ofMembers (by simp [h.inputSchema])
  rw [Mcp.toolToWire]
  refine Json.isUtf8_set h.annotations ?_
  cases houtput : tool.outputSchema with
  | none => exact hwire
  | some schema => exact Json.isUtf8_set (h.outputSchema schema houtput) hwire

theorem buildToolsListResult_isUtf8 {registry : ToolRegistry}
    (h : ∀ tool ∈ registry.tools, tool.Printable) :
    (buildToolsListResult registry).isUtf8 = true := by
  refine Json.isUtf8_ofMembers (List.forall_mem_singleton.mpr (Json.isUtf8_array.mpr ?_))
  intro wire hwire
  obtain ⟨tool, htool, rfl⟩ := List.mem_map.mp hwire
  exact (h tool htool).toolToWire

@[simp] theorem typed_isUtf8 (type : String) : (typed type).isUtf8 = true :=
  Json.isUtf8_ofMembers (by simp)

@[simp] theorem describedString_isUtf8 (description : String) :
    (describedString description).isUtf8 = true :=
  Json.isUtf8_ofMembers (by simp)

@[simp] theorem describedFlag_isUtf8 (description : String) :
    (describedFlag description).isUtf8 = true :=
  Json.isUtf8_ofMembers (by simp)

@[simp] theorem texts_isUtf8 (list : List String) : (texts list).isUtf8 = true :=
  Json.isUtf8_array.mpr (by simp)

theorem closedObject_isUtf8 {properties : List (String × Json)} (required : List String)
    (h : ∀ property ∈ properties, property.2.isUtf8 = true) :
    (closedObject properties required).isUtf8 = true := by
  refine Json.isUtf8_ofMembers ?_
  simp [Json.isUtf8_ofMembers h]

theorem exportInputSchema_isUtf8 : exportInputSchema.isUtf8 = true := by
  have hformat : (Json.ofMembers [("type", .text "string"), ("enum", texts ["dbc", "csv"]),
      ("description", .text "Export format")]).isUtf8 = true :=
    Json.isUtf8_ofMembers (by simp)
  exact closedObject_isUtf8 _ (by simp [hformat])

theorem exportPayloadSchema_isUtf8 : exportPayloadSchema.isUtf8 = true := by
  have hformat : (Json.ofMembers [("type", .text "string"),
      ("enum", texts ["dbc", "csv"])]).isUtf8 = true :=
    Json.isUtf8_ofMembers (by simp)
  have houtput : (Json.ofMembers [("type", texts ["string", "null"])]).isUtf8 = true :=
    Json.isUtf8_ofMembers (by simp)
  have hproperties : (Json.ofMembers [("sourcePath", typed "string"),
      ("format", .ofMembers [("type", .text "string"), ("enum", texts ["dbc", "csv"])]),
      ("output", .ofMembers [("type", texts ["string", "null"])]), ("counts", typed "object"),
      ("warnings", typed "array"), ("content", typed "string")]).isUtf8 = true :=
    Json.isUtf8_ofMembers (by simp [hformat, houtput])
  exact Json.isUtf8_ofMembers (by simp [hproperties])

theorem exportOutputSchema_isUtf8 : exportOutputSchema.isUtf8 = true := by
  have hkind : (Json.ofMembers [("const", .text "exportResult")]).isUtf8 = true :=
    Json.isUtf8_ofMembers (by simp)
  have hproperties : (Json.ofMembers [("kind", .ofMembers [("const", .text "exportResult")]),
      ("payload", exportPayloadSchema)]).isUtf8 = true :=
    Json.isUtf8_ofMembers (by simp [hkind, exportPayloadSchema_isUtf8])
  exact Json.isUtf8_ofMembers (by simp [hproperties])

/-- A tool is registered or was there before. -/
theorem ToolRegistry.mem_registerTool {registry : ToolRegistry} {tool definition : ToolDefinition}
    (h : tool ∈ (registry.registerTool definition).tools) :
    tool = definition ∨ tool ∈ registry.tools := by
  rw [registerTool] at h
  split at h
  · obtain ⟨old, hold, rfl⟩ := List.mem_map.mp h
    split
    · exact .inl rfl
    · exact .inr hold
  · exact (List.mem_append.mp h).symm.imp_left List.mem_singleton.mp

theorem ToolRegistry.mem_foldl_registerTool {definitions : List ToolDefinition}
    {registry : ToolRegistry} {tool : ToolDefinition}
    (h : tool ∈ (definitions.foldl registerTool registry).tools) :
    tool ∈ definitions ∨ tool ∈ registry.tools := by
  induction definitions generalizing registry with
  | nil => exact .inr h
  | cons definition definitions ih =>
    rcases ih h with hlater | hthen
    · exact .inl (List.mem_cons_of_mem _ hlater)
    · exact (ToolRegistry.mem_registerTool hthen).imp_left fun heq => by simp [heq]

theorem withSchemas_printable : ∀ tool ∈ ToolRegistry.withSchemas.tools, tool.Printable := by
  have hreadOnly : readOnlyAnnotations.isUtf8 = true := Json.isUtf8_ofMembers (by simp)
  have hwrite : writeAnnotations.isUtf8 = true := Json.isUtf8_ofMembers (by simp)
  intro tool htool
  rcases ToolRegistry.mem_foldl_registerTool htool with hdefinition | hbefore
  · simp only [List.mem_cons, List.not_mem_nil, or_false] at hdefinition
    rcases hdefinition with rfl | rfl | rfl | rfl | rfl
    · exact .of (closedObject_isUtf8 _ (by simp)) (closedObject_isUtf8 _ (by simp)) hreadOnly
    · exact .of (closedObject_isUtf8 _ (by simp)) (closedObject_isUtf8 _ (by simp)) hreadOnly
    · exact .of (closedObject_isUtf8 _ (by simp)) (closedObject_isUtf8 _ (by simp)) hreadOnly
    · exact .of (closedObject_isUtf8 _ (by simp)) (closedObject_isUtf8 _ (by simp)) hwrite
    · exact .of exportInputSchema_isUtf8 exportOutputSchema_isUtf8 hreadOnly
  · cases hbefore

/-- Handlers do not change what is listed. -/
theorem ToolRegistry.setHandler_printable {registry : ToolRegistry} {name : String}
    {handler : Handler} (h : ∀ tool ∈ registry.tools, tool.Printable) :
    ∀ tool ∈ (registry.setHandler name handler).tools, tool.Printable := by
  intro tool htool
  obtain ⟨old, hold, rfl⟩ := List.mem_map.mp htool
  obtain ⟨hinput, houtput, hannotations⟩ := h old hold
  split
  · exact ⟨hinput, houtput, hannotations⟩
  · exact ⟨hinput, houtput, hannotations⟩

end ParseX.Mcp

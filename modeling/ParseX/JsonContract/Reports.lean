import ParseX.Base.JsonRead
import ParseX.Diff.DiffReport
import ParseX.Validator.ValidationResult

/-! # Reports as JSON

The two reports of the library, in their envelope and read back from it or from the
bare payload. -/
namespace ParseX
open Cpp Json

/-! ## The envelope -/

def parsexVersion : String := "0.2.0"

def kContractVersion : String := parsexVersion

def libparsexVersion : String := parsexVersion

def wrapEnvelope (kind : String) (payload : Json) : Json :=
  .ofPresent [("$schema", some (.text "https://parsex.dev/schemas/v1/envelope.json")),
    ("contractVersion", some (.text kContractVersion)),
    ("toolVersion", some (.text libparsexVersion)), ("kind", some (.text kind)),
    ("payload", some payload)]

/-- The payload of an envelope, or the document itself when it has none. -/
def payloadOf (jsonDoc : Json) : Json := (jsonDoc.member? "payload").getD jsonDoc

/-- A text that is omitted when it is empty. -/
def unlessEmpty (text : String) : Option Json := if text = "" then none else some (.text text)

/-! ## Diff reports -/

def kindToJson : DiffKind → String
  | .added => "added"
  | .removed => "removed"
  | .moved => "moved"
  | .modified => "modified"

def kindFromJson (kindName : String) : DiffKind :=
  if kindName = "added" then .added
  else if kindName = "removed" then .removed
  else if kindName = "moved" then .moved
  else .modified

def fieldToJson (field : FieldDiff) : Json :=
  .ofPresent [("field", some (.text field.fieldName)), ("oldValue", some (.text field.oldValue)),
    ("newValue", some (.text field.newValue))]

def entryToJson (entry : DiffEntry) : Json :=
  .ofPresent [("kind", some (.text (kindToJson entry.kind))),
    ("elementType", some (.text entry.elementType)), ("oldPath", unlessEmpty entry.oldPath),
    ("newPath", unlessEmpty entry.newPath),
    ("fieldDiffs", some (.array (entry.fieldDiffs.map fieldToJson)))]

def diagnosticToJson (diag : DiffDiagnostic) : Json :=
  .ofPresent [("elementType", some (.text diag.elementType)), ("message", some (.text diag.message))]

def DiffReport.payload (report : DiffReport) : Json :=
  .ofPresent [("entries", some (.array (report.entries.map entryToJson))),
    ("diagnostics", some (.array (report.diagnostics.map diagnosticToJson)))]

def DiffReport.toJson (report : DiffReport) : Json := wrapEnvelope "diffReport" report.payload

def fieldFromJson (fieldJson : Json) : Option FieldDiff := do
  let fieldName ← (← fieldJson.member? "field").text?
  let oldValue ← (← fieldJson.member? "oldValue").text?
  let newValue ← (← fieldJson.member? "newValue").text?
  return { fieldName, oldValue, newValue }

def entryFromJson (entryJson : Json) : Option DiffEntry := do
  let kind ← (← entryJson.member? "kind").text?
  let elementType ← (← entryJson.member? "elementType").text?
  let oldPath ← entryJson.valueOr text? "oldPath" ""
  let newPath ← entryJson.valueOr text? "newPath" ""
  let fieldDiffs ← (← entryJson.member? "fieldDiffs").elements.mapM fieldFromJson
  return { kind := kindFromJson kind, elementType, oldPath, newPath, fieldDiffs }

def diagnosticFromJson (diagJson : Json) : Option DiffDiagnostic := do
  let message ← (← diagJson.member? "message").text?
  let elementType ← (← diagJson.member? "elementType").text?
  return { message, elementType }

def DiffReport.fromJson (jsonDoc : Json) : Option DiffReport := do
  let payload := payloadOf jsonDoc
  let entries ← (← payload.member? "entries").elements.mapM entryFromJson
  let diagnostics ←
    match payload.member? "diagnostics" with
    | some diagnostics => diagnostics.elements.mapM diagnosticFromJson
    | none => some []
  return { entries, diagnostics }

/-! ## Diff reports as text -/

def renderFieldLines (entry : DiffEntry) : String :=
  String.join (entry.fieldDiffs.map fun field =>
    "    " ++ field.fieldName ++ ": " ++ field.oldValue ++ " -> " ++ field.newValue ++ "\n")

def renderEntryLines (entry : DiffEntry) : String :=
  match entry.kind with
  | .added => "  " ++ entry.elementType ++ " " ++ entry.newPath ++ "\n"
  | .removed => "  " ++ entry.elementType ++ " " ++ entry.oldPath ++ "\n"
  | .moved => "  " ++ entry.elementType ++ " " ++ entry.oldPath ++ " -> " ++ entry.newPath ++ "\n" ++
      renderFieldLines entry
  | .modified => "  " ++ entry.elementType ++ " " ++ entry.newPath ++ "\n" ++ renderFieldLines entry

/-- The entries of one kind behind the text so far; no section is empty. -/
def DiffReport.emitSection (report : DiffReport) (text title : String) (kind : DiffKind) : String :=
  if report.entries.any fun entry => entry.kind = kind then
    (if text = "" then text else text ++ "\n") ++ title ++ ":\n" ++
      String.join ((report.entries.filter fun entry => entry.kind = kind).map renderEntryLines)
  else text

def DiffReport.toText (report : DiffReport) : String :=
  if report.entries = [] ∧ report.diagnostics = [] then "No differences.\n"
  else
    let text := report.emitSection "" "Added" .added
    let text := report.emitSection text "Removed" .removed
    let text := report.emitSection text "Moved" .moved
    let text := report.emitSection text "Modified" .modified
    if report.diagnostics = [] then text
    else (if text = "" then text else text ++ "\n") ++ "Diagnostics:\n" ++
      String.join (report.diagnostics.map fun diag =>
        "  [" ++ diag.elementType ++ "] " ++ diag.message ++ "\n")

/-! ## Validation results -/

def locationToJson (location : RawSpan) : Json :=
  .ofPresent [("startOffset", some (.integer location.startOffset)),
    ("endOffset", some (.integer location.endOffset)),
    ("lineNumber", some (.integer location.lineNumber))]

def errorToJson (err : ValidationError) : Json :=
  .ofPresent [("severity", some (.text (if err.severity = .warning then "warning" else "error"))),
    ("code", some (.text err.code)), ("message", some (.text err.message)),
    ("location", err.location.map locationToJson), ("path", err.path.map Json.text),
    ("expectedType", err.expectedType.map Json.text), ("actualType", err.actualType.map Json.text)]

def ValidationResult.payload (result : ValidationResult) : Json :=
  .ofPresent [("passed", some (.boolean !result.hasErrors)),
    ("errors", some (.array (result.errors.map errorToJson)))]

def ValidationResult.toJson (result : ValidationResult) : Json :=
  wrapEnvelope "validationResult" result.payload

/-- An optional member. -/
def optional {α : Type} (read : Json → Option α) (value : Json) (key : String) :
    Option (Option α) :=
  match value.member? key with
  | some found => (read found).map some
  | none => some none

section
variable (truncate : UInt64 → Nat)

def locationFromJson (loc : Json) : Option RawSpan := do
  let startOffset ← loc.valueOr (size? truncate) "startOffset" 0
  let endOffset ← loc.valueOr (size? truncate) "endOffset" 0
  let lineNumber ← loc.valueOr (size? truncate) "lineNumber" 0
  return { startOffset, endOffset, lineNumber }

def errorFromJson (errJson : Json) : Option ValidationError := do
  let severity ← errJson.valueOr text? "severity" "error"
  let code ← errJson.valueOr text? "code" ""
  let message ← errJson.valueOr text? "message" ""
  let location ← optional (locationFromJson truncate) errJson "location"
  let path ← optional text? errJson "path"
  let expectedType ← optional text? errJson "expectedType"
  let actualType ← optional text? errJson "actualType"
  return { severity := if severity = "warning" then .warning else .error, code, message, location,
           path, expectedType, actualType }

def ValidationResult.fromJson (jsonDoc : Json) : Option ValidationResult := do
  let payload := payloadOf jsonDoc
  let errors ←
    match payload.member? "errors" with
    | some errors => errors.elements.mapM (errorFromJson truncate)
    | none => some []
  return { errors }

end

/-! ## The payload is found -/

theorem payload_wrapEnvelope (kind : String) (payload : Json) :
    (wrapEnvelope kind payload).member? "payload" = some payload := by
  have hdistinct : (["$schema", "contractVersion", "toolVersion", "kind", "payload"].map utf8).Nodup := by
    decide
  exact member?_ofPresent (by exact hdistinct) (by simp)

theorem payloadOf_wrapEnvelope (kind : String) (payload : Json) :
    payloadOf (wrapEnvelope kind payload) = payload := by
  rw [payloadOf, payload_wrapEnvelope, Option.getD_some]

theorem DiffReport.payloadOf_payload (report : DiffReport) : payloadOf report.payload = report.payload := by
  have hbare : report.payload.member? "payload" = none := by
    refine member?_ofMembers_none ?_
    show utf8 "payload" ∉ ["entries", "diagnostics"].map utf8
    decide
  rw [payloadOf, hbare, Option.getD_none]

theorem ValidationResult.payloadOf_payload (result : ValidationResult) :
    payloadOf result.payload = result.payload := by
  have hbare : result.payload.member? "payload" = none := by
    refine member?_ofMembers_none ?_
    show utf8 "payload" ∉ ["passed", "errors"].map utf8
    decide
  rw [payloadOf, hbare, Option.getD_none]

/-! ## A diff report survives -/

theorem kindFromJson_kindToJson (kind : DiffKind) : kindFromJson (kindToJson kind) = kind := by
  cases kind <;> decide

/-- A path is omitted when it is empty and reads as empty when it is omitted. -/
theorem unlessEmpty_read (path : String) :
    ((unlessEmpty path).map text?).getD (some "") = some path := by
  unfold unlessEmpty
  split
  · rename_i hempty
    rw [hempty]
    rfl
  · exact text?_text path

theorem fieldFromJson_toJson (field : FieldDiff) : fieldFromJson (fieldToJson field) = some field := by
  have hdistinct : (["field", "oldValue", "newValue"].map utf8).Nodup := by decide
  have hfield : (fieldToJson field).member? "field" = some (.text field.fieldName) :=
    member?_ofPresent (by exact hdistinct) (by simp)
  have hold : (fieldToJson field).member? "oldValue" = some (.text field.oldValue) :=
    member?_ofPresent (by exact hdistinct) (by simp)
  have hnew : (fieldToJson field).member? "newValue" = some (.text field.newValue) :=
    member?_ofPresent (by exact hdistinct) (by simp)
  simp [fieldFromJson, hfield, hold, hnew]

theorem entryFromJson_toJson (entry : DiffEntry) : entryFromJson (entryToJson entry) = some entry := by
  have hdistinct : (["kind", "elementType", "oldPath", "newPath", "fieldDiffs"].map utf8).Nodup := by
    decide
  have hkind : (entryToJson entry).member? "kind" = some (.text (kindToJson entry.kind)) :=
    member?_ofPresent (by exact hdistinct) (by simp)
  have htype : (entryToJson entry).member? "elementType" = some (.text entry.elementType) :=
    member?_ofPresent (by exact hdistinct) (by simp)
  have hold : (entryToJson entry).valueOr text? "oldPath" "" = some entry.oldPath :=
    (valueOr_ofPresent (by exact hdistinct) (by simp)).trans (unlessEmpty_read _)
  have hnew : (entryToJson entry).valueOr text? "newPath" "" = some entry.newPath :=
    (valueOr_ofPresent (by exact hdistinct) (by simp)).trans (unlessEmpty_read _)
  have hfields : (entryToJson entry).member? "fieldDiffs" =
      some (.array (entry.fieldDiffs.map fieldToJson)) :=
    member?_ofPresent (by exact hdistinct) (by simp)
  simp [entryFromJson, hkind, htype, hold, hnew, hfields, kindFromJson_kindToJson,
    mapM_elements fieldFromJson_toJson]

theorem diagnosticFromJson_toJson (diag : DiffDiagnostic) :
    diagnosticFromJson (diagnosticToJson diag) = some diag := by
  have hdistinct : (["elementType", "message"].map utf8).Nodup := by decide
  have htype : (diagnosticToJson diag).member? "elementType" = some (.text diag.elementType) :=
    member?_ofPresent (by exact hdistinct) (by simp)
  have hmessage : (diagnosticToJson diag).member? "message" = some (.text diag.message) :=
    member?_ofPresent (by exact hdistinct) (by simp)
  simp [diagnosticFromJson, htype, hmessage]

theorem DiffReport.fromJson_of_payload {report : DiffReport} {jsonDoc : Json}
    (h : payloadOf jsonDoc = report.payload) : DiffReport.fromJson jsonDoc = some report := by
  have hdistinct : (["entries", "diagnostics"].map utf8).Nodup := by decide
  have hentries : report.payload.member? "entries" =
      some (.array (report.entries.map entryToJson)) :=
    member?_ofPresent (by exact hdistinct) (by simp)
  have hdiagnostics : report.payload.member? "diagnostics" =
      some (.array (report.diagnostics.map diagnosticToJson)) :=
    member?_ofPresent (by exact hdistinct) (by simp)
  simp [DiffReport.fromJson, h, hentries, hdiagnostics, mapM_elements entryFromJson_toJson,
    mapM_elements diagnosticFromJson_toJson]

/-! ## A validation result survives -/

section
variable {truncate : UInt64 → Nat}

theorem locationFromJson_toJson (location : RawSpan) :
    locationFromJson truncate (locationToJson location) = some location := by
  have hdistinct : (["startOffset", "endOffset", "lineNumber"].map utf8).Nodup := by decide
  have hstart : (locationToJson location).valueOr (size? truncate) "startOffset" 0 =
      some location.startOffset :=
    valueOr_written (by exact hdistinct) (by simp) (size?_integer truncate _)
  have hend : (locationToJson location).valueOr (size? truncate) "endOffset" 0 =
      some location.endOffset :=
    valueOr_written (by exact hdistinct) (by simp) (size?_integer truncate _)
  have hline : (locationToJson location).valueOr (size? truncate) "lineNumber" 0 =
      some location.lineNumber :=
    valueOr_written (by exact hdistinct) (by simp) (size?_integer truncate _)
  simp [locationFromJson, hstart, hend, hline]

/-- A member that is omitted when there is none reads as none when it is omitted. -/
theorem optional_read {α : Type} {write : α → Json} {read : Json → Option α}
    (h : ∀ item, read (write item) = some item) {value : Json} {key : String} {item : Option α}
    (hmember : value.member? key = item.map write) : optional read value key = some item := by
  rw [optional, hmember]
  cases item with
  | none => rfl
  | some item => exact congrArg (Option.map some) (h item)

theorem errorFromJson_toJson (err : ValidationError) :
    errorFromJson truncate (errorToJson err) = some err := by
  have hdistinct : (["severity", "code", "message", "location", "path", "expectedType",
      "actualType"].map utf8).Nodup := by
    decide
  have hseverity : (errorToJson err).valueOr text? "severity" "error" =
      some (if err.severity = .warning then "warning" else "error") :=
    valueOr_written (by exact hdistinct) (by simp) (text?_text _)
  have hcode : (errorToJson err).valueOr text? "code" "" = some err.code :=
    valueOr_written (by exact hdistinct) (by simp) (text?_text _)
  have hmessage : (errorToJson err).valueOr text? "message" "" = some err.message :=
    valueOr_written (by exact hdistinct) (by simp) (text?_text _)
  have hlocation : optional (locationFromJson truncate) (errorToJson err) "location" =
      some err.location :=
    optional_read locationFromJson_toJson (member?_ofPresent (by exact hdistinct) (by simp))
  have hpath : optional text? (errorToJson err) "path" = some err.path :=
    optional_read text?_text (member?_ofPresent (by exact hdistinct) (by simp))
  have hexpected : optional text? (errorToJson err) "expectedType" = some err.expectedType :=
    optional_read text?_text (member?_ofPresent (by exact hdistinct) (by simp))
  have hactual : optional text? (errorToJson err) "actualType" = some err.actualType :=
    optional_read text?_text (member?_ofPresent (by exact hdistinct) (by simp))
  have hwarning : (if err.severity = .warning then Severity.warning else .error) = err.severity := by
    cases err.severity <;> decide
  simp [errorFromJson, hseverity, hcode, hmessage, hlocation, hpath, hexpected, hactual, hwarning]

theorem ValidationResult.fromJson_of_payload {result : ValidationResult} {jsonDoc : Json}
    (h : payloadOf jsonDoc = result.payload) :
    ValidationResult.fromJson truncate jsonDoc = some result := by
  have hdistinct : (["passed", "errors"].map utf8).Nodup := by decide
  have herrors : result.payload.member? "errors" = some (.array (result.errors.map errorToJson)) :=
    member?_ofPresent (by exact hdistinct) (by simp)
  simp [ValidationResult.fromJson, h, herrors, mapM_elements errorFromJson_toJson]

end

/-- **Reports survive JSON**, in their envelope and as its bare payload. -/
theorem reports_survive_json (truncate : UInt64 → Nat) :
    (∀ report : DiffReport, DiffReport.fromJson report.toJson = some report ∧
      (report.toJson.member? "payload").bind DiffReport.fromJson = some report) ∧
    ∀ result : ValidationResult, ValidationResult.fromJson truncate result.toJson = some result ∧
      (result.toJson.member? "payload").bind (ValidationResult.fromJson truncate) = some result := by
  refine ⟨fun report => ⟨?_, ?_⟩, fun result => ⟨?_, ?_⟩⟩
  · exact DiffReport.fromJson_of_payload (payloadOf_wrapEnvelope _ _)
  · rw [DiffReport.toJson, payload_wrapEnvelope, Option.bind_some]
    exact DiffReport.fromJson_of_payload report.payloadOf_payload
  · exact ValidationResult.fromJson_of_payload (payloadOf_wrapEnvelope _ _)
  · rw [ValidationResult.toJson, payload_wrapEnvelope, Option.bind_some]
    exact ValidationResult.fromJson_of_payload result.payloadOf_payload

end ParseX

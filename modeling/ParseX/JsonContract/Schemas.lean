import ParseX.Base.JsonSchema
import ParseX.JsonContract.Reports

/-! # The schemas of the JSON contract

The files of `schemas/`. A schema that another one refers to stands in its place; titles and
descriptions test nothing, and `uri-reference` is a format that the checker passes through. -/
namespace ParseX
open Cpp JsonSchema

/-! ## Diff reports -/

def fieldDiffSchema : Schema :=
  closedObject [("field", textOf 1), ("oldValue", type [.string]), ("newValue", type [.string])]
    ["field", "oldValue", "newValue"]

def diffEntrySchema : Schema :=
  closedObject [("kind", allOf [type [.string], enum ["added", "removed", "moved", "modified"]]),
    ("elementType", textOf 1), ("oldPath", type [.string]), ("newPath", type [.string]),
    ("fieldDiffs", arrayOf fieldDiffSchema)] ["kind", "elementType", "fieldDiffs"]

def diffDiagnosticSchema : Schema :=
  closedObject [("message", textOf 1), ("elementType", textOf 1)] ["message", "elementType"]

/-- `diff_report.schema.json`. -/
def diffReportSchema : Schema :=
  closedObject [("entries", arrayOf diffEntrySchema), ("diagnostics", arrayOf diffDiagnosticSchema)]
    ["entries", "diagnostics"]

/-! ## Validation results -/

def locationSchema : Schema :=
  closedObject [("startOffset", integerFrom 0), ("endOffset", integerFrom 0),
    ("lineNumber", integerFrom 0)] ["startOffset", "endOffset", "lineNumber"]

def validationErrorSchema : Schema :=
  closedObject [("severity", allOf [type [.string], enum ["error", "warning"]]),
    ("code", textOf 1), ("message", textOf 1), ("location", locationSchema),
    ("path", type [.string]), ("expectedType", type [.string]), ("actualType", type [.string])]
    ["severity", "code", "message"]

/-- `validation_result.schema.json`. -/
def validationResultSchema : Schema :=
  closedObject [("passed", type [.boolean]), ("errors", arrayOf validationErrorSchema)]
    ["passed", "errors"]

/-! ## Telemetry reports -/

def attributesSchema : Schema :=
  allOf [type [.object],
    additionalProperties [] (type [.string, .integer, .number, .boolean])]

def spanSchema : Schema :=
  closedObject [("spanId", integerFrom 1), ("parentSpanId", integerFrom 1), ("name", textOf 1),
    ("startNanos", integerFrom 0), ("endNanos", integerFrom 0), ("durationNanos", integerFrom 0),
    ("status", allOf [type [.string], enum ["unset", "ok", "error"]]),
    ("attributes", attributesSchema)]
    ["spanId", "name", "startNanos", "endNanos", "durationNanos", "status"]

/-- `telemetry_report.schema.json`. -/
def telemetryReportSchema : Schema := closedObject [("spans", arrayOf spanSchema)] ["spans"]

/-! ## Export results -/

def exportCountsSchema : Schema :=
  closedObject [("frames", integerFrom 0), ("signals", integerFrom 0)] ["frames", "signals"]

def messageSchema : Schema := closedObject [("message", type [.string])] ["message"]

/-- `export_result.schema.json`. -/
def exportResultSchema : Schema :=
  closedObject [("sourcePath", type [.string]),
    ("format", allOf [type [.string], enum ["dbc", "csv"]]), ("output", type [.string, .null]),
    ("counts", exportCountsSchema), ("warnings", arrayOf messageSchema), ("content", type [.string])]
    ["sourcePath", "format", "output", "counts", "warnings"]

/-! ## The envelope -/

def envelopeKinds : List String :=
  ["validationResult", "diffReport", "telemetryReport", "parseReport", "writeResult", "exportResult"]

/-- The payload of a kind meets its schema. -/
def payloadOfKind (kind : String) (schema : Schema) : Schema :=
  ifThen (allOf [properties [("kind", const kind)], required ["kind"]])
    (properties [("payload", schema)])

/-- `envelope.schema.json`. -/
def envelopeSchema : Schema :=
  allOf [closedObject [("$schema", type [.string]),
      ("contractVersion", allOf [type [.string], versionPattern]), ("toolVersion", textOf 1),
      ("kind", allOf [type [.string], enum envelopeKinds]), ("payload", allOf [])]
      ["contractVersion", "toolVersion", "kind", "payload"],
    payloadOfKind "validationResult" validationResultSchema,
    payloadOfKind "diffReport" diffReportSchema,
    payloadOfKind "telemetryReport" telemetryReportSchema,
    payloadOfKind "exportResult" exportResultSchema]

/-- The schema of a kind's payload; two kinds have none. -/
def payloadSchema (kind : String) : Schema :=
  if kind = "validationResult" then validationResultSchema
  else if kind = "diffReport" then diffReportSchema
  else if kind = "telemetryReport" then telemetryReportSchema
  else if kind = "exportResult" then exportResultSchema
  else allOf []

theorem member?_wrapEnvelope_kind (kind : String) (payload : Json) :
    (wrapEnvelope kind payload).member? "kind" = some (.text kind) := by
  have hdistinct : (["$schema", "contractVersion", "toolVersion", "kind", "payload"].map utf8).Nodup := by
    decide
  exact Json.member?_ofPresent (by exact hdistinct) (by simp)

theorem const_text {text other : String} : const text (.text other) = decide (other = text) := by
  have hbeq : (utf8 text == utf8 other) = decide (other = text) := by
    rw [Bool.eq_iff_iff, beq_iff_eq, utf8_inj, decide_eq_true_iff, eq_comm]
  simp [const, enum, Json.text, hbeq]

/-- The condition on a kind bears on its payload alone. -/
theorem payloadOfKind_wrapEnvelope (kind other : String) (schema : Schema) (payload : Json) :
    payloadOfKind other schema (wrapEnvelope kind payload) = (!decide (kind = other) || schema payload) := by
  obtain ⟨members, hmembers⟩ : ∃ members, wrapEnvelope kind payload = .object members :=
    Json.ofMembers_object _
  have hrequired : required ["kind"] (wrapEnvelope kind payload) = true := by
    have hkind := member?_wrapEnvelope_kind kind payload
    rw [hmembers] at hkind ⊢
    simp [required, hkind]
  simp [payloadOfKind, ifThen, allOf, properties, member?_wrapEnvelope_kind, payload_wrapEnvelope,
    hrequired, const_text]

/-- **An envelope conforms when its kind is known and its payload conforms.** -/
theorem envelopeSchema_wrapEnvelope {kind : String} {payload : Json} (hkind : kind ∈ envelopeKinds)
    (hpayload : payloadSchema kind payload = true) :
    envelopeSchema (wrapEnvelope kind payload) = true := by
  have hversion : versionPattern (.text kContractVersion) = true := by decide
  have hshape : closedObject [("$schema", type [.string]),
      ("contractVersion", allOf [type [.string], versionPattern]), ("toolVersion", textOf 1),
      ("kind", allOf [type [.string], enum envelopeKinds]), ("payload", allOf [])]
      ["contractVersion", "toolVersion", "kind", "payload"] (wrapEnvelope kind payload) = true := by
    refine closedObject_ofPresent ?_ (by simp) rfl ⟨⟨_, rfl, rfl⟩, ⟨_, rfl, ?_⟩, ⟨_, rfl, ?_⟩,
      ⟨_, rfl, ?_⟩, ⟨_, rfl, rfl⟩, trivial⟩
    · show (["$schema", "contractVersion", "toolVersion", "kind", "payload"].map utf8).Nodup
      decide
    · exact hversion
    · exact textOf_one (show libparsexVersion ≠ "" by decide)
    · exact typed_text (enum_text hkind)
  have hkinds : ∀ other schema, (kind = other → schema payload = true) →
      payloadOfKind other schema (wrapEnvelope kind payload) = true := by
    intro other schema h
    rw [payloadOfKind_wrapEnvelope]
    by_cases heq : kind = other
    · simp [heq, h heq]
    · simp [heq]
  simp only [envelopeSchema, allOf, List.all_cons, List.all_nil, Bool.and_true, Bool.and_eq_true]
  refine ⟨hshape, hkinds _ _ fun h => ?_, hkinds _ _ fun h => ?_, hkinds _ _ fun h => ?_,
    hkinds _ _ fun h => ?_⟩
  all_goals
    subst h
    exact hpayload

end ParseX

import ParseX.Diff.DiffEmpty
import ParseX.Diff.Diagnostics
import ParseX.Diff.Mirror
import ParseX.JsonContract.Schemas
import ParseX.Validator.ValidateAll

/-! # Reports conform to their schemas

What the diff engine and the validator report meets the schema of its kind, and every document
that meets the schema is read. -/
namespace ParseX
open Cpp JsonSchema

/-! ## Shapes -/

/-- The names that the schemas want to be there are there. -/
def DiffReport.Named (report : DiffReport) : Prop :=
  (∀ entry ∈ report.entries, entry.elementType ≠ "" ∧
    ∀ field ∈ entry.fieldDiffs, field.fieldName ≠ "") ∧
  ∀ diag ∈ report.diagnostics, diag.message ≠ "" ∧ diag.elementType ≠ ""

def ValidationResult.Named (result : ValidationResult) : Prop :=
  ∀ err ∈ result.errors, err.code ≠ "" ∧ err.message ≠ ""

theorem text_type (string : String) : type [.string] (.text string) = true := rfl

theorem unlessEmpty_type (text : String) : (unlessEmpty text).all (type [.string]) = true := by
  unfold unlessEmpty
  split
  · rfl
  · exact text_type text

theorem fieldDiffSchema_fieldToJson {field : FieldDiff} (h : field.fieldName ≠ "") :
    fieldDiffSchema (fieldToJson field) = true := by
  have hdistinct : (["field", "oldValue", "newValue"].map utf8).Nodup := by decide
  exact closedObject_ofPresent (by exact hdistinct) (by simp) rfl
    ⟨⟨_, rfl, textOf_one h⟩, ⟨_, rfl, rfl⟩, ⟨_, rfl, rfl⟩, trivial⟩

theorem diffEntrySchema_entryToJson {entry : DiffEntry} (htype : entry.elementType ≠ "")
    (hfields : ∀ field ∈ entry.fieldDiffs, field.fieldName ≠ "") :
    diffEntrySchema (entryToJson entry) = true := by
  have hdistinct : (["kind", "elementType", "oldPath", "newPath", "fieldDiffs"].map utf8).Nodup := by
    decide
  have hkind : kindToJson entry.kind ∈ ["added", "removed", "moved", "modified"] := by
    cases entry.kind <;> decide
  exact closedObject_ofPresent (by exact hdistinct) (by simp) rfl
    ⟨⟨_, rfl, typed_text (enum_text hkind)⟩, ⟨_, rfl, textOf_one htype⟩, ⟨_, rfl, unlessEmpty_type _⟩,
      ⟨_, rfl, unlessEmpty_type _⟩,
      ⟨_, rfl, arrayOf_map fun field hfield => fieldDiffSchema_fieldToJson (hfields field hfield)⟩, trivial⟩

theorem diffDiagnosticSchema_diagnosticToJson {diag : DiffDiagnostic} (hmessage : diag.message ≠ "")
    (htype : diag.elementType ≠ "") : diffDiagnosticSchema (diagnosticToJson diag) = true := by
  have hdistinct : (["elementType", "message"].map utf8).Nodup := by decide
  exact closedObject_ofPresent (by exact hdistinct) (by simp) rfl
    ⟨⟨_, rfl, textOf_one hmessage⟩, ⟨_, rfl, textOf_one htype⟩, trivial⟩

theorem diffReportSchema_payload {report : DiffReport} (h : report.Named) :
    diffReportSchema report.payload = true := by
  have hdistinct : (["entries", "diagnostics"].map utf8).Nodup := by decide
  exact closedObject_ofPresent (by exact hdistinct) (by simp) rfl
    ⟨⟨_, rfl, arrayOf_map fun entry hentry =>
        diffEntrySchema_entryToJson (h.1 entry hentry).1 (h.1 entry hentry).2⟩,
      ⟨_, rfl, arrayOf_map fun diag hdiag =>
        diffDiagnosticSchema_diagnosticToJson (h.2 diag hdiag).1 (h.2 diag hdiag).2⟩, trivial⟩

theorem DiffReport.Named.conforms {report : DiffReport} (h : report.Named) :
    envelopeSchema report.toJson = true :=
  envelopeSchema_wrapEnvelope (by decide) (diffReportSchema_payload h)

theorem locationSchema_locationToJson (location : RawSpan) :
    locationSchema (locationToJson location) = true := by
  have hdistinct : (["startOffset", "endOffset", "lineNumber"].map utf8).Nodup := by decide
  exact closedObject_ofPresent (by exact hdistinct) (by simp) rfl
    ⟨⟨_, rfl, integerFrom_natCast location.startOffset (Int.natCast_nonneg _)⟩,
      ⟨_, rfl, integerFrom_natCast location.endOffset (Int.natCast_nonneg _)⟩,
      ⟨_, rfl, integerFrom_natCast location.lineNumber (Int.natCast_nonneg _)⟩, trivial⟩

/-- A member that may be absent meets a schema that its values meet. -/
theorem all_map {α : Type} {item : Option α} {write : α → Json} {schema : Schema}
    (h : ∀ value, schema (write value) = true) : (item.map write).all schema = true := by
  cases item with
  | none => rfl
  | some value => exact h value

theorem validationErrorSchema_errorToJson {err : ValidationError} (hcode : err.code ≠ "")
    (hmessage : err.message ≠ "") : validationErrorSchema (errorToJson err) = true := by
  have hdistinct : (["severity", "code", "message", "location", "path", "expectedType",
      "actualType"].map utf8).Nodup := by
    decide
  have hseverity : (if err.severity = .warning then "warning" else "error") ∈ ["error", "warning"] := by
    cases err.severity <;> decide
  exact closedObject_ofPresent (by exact hdistinct) (by simp) rfl
    ⟨⟨_, rfl, typed_text (enum_text hseverity)⟩, ⟨_, rfl, textOf_one hcode⟩,
      ⟨_, rfl, textOf_one hmessage⟩, ⟨_, rfl, all_map locationSchema_locationToJson⟩,
      ⟨_, rfl, all_map text_type⟩, ⟨_, rfl, all_map text_type⟩, ⟨_, rfl, all_map text_type⟩, trivial⟩

theorem validationResultSchema_payload {result : ValidationResult} (h : result.Named) :
    validationResultSchema result.payload = true := by
  have hdistinct : (["passed", "errors"].map utf8).Nodup := by decide
  exact closedObject_ofPresent (by exact hdistinct) (by simp) rfl
    ⟨⟨_, rfl, rfl⟩, ⟨_, rfl, arrayOf_map fun err herr =>
      validationErrorSchema_errorToJson (h err herr).1 (h err herr).2⟩, trivial⟩

theorem ValidationResult.Named.conforms {result : ValidationResult} (h : result.Named) :
    envelopeSchema result.toJson = true :=
  envelopeSchema_wrapEnvelope (by decide) (validationResultSchema_payload h)

/-! ## What the diff engine reports -/

/-- The differences have names. -/
def FieldsNamed (diffs : List FieldDiff) : Prop := ∀ field ∈ diffs, field.fieldName ≠ ""

theorem FieldsNamed.append {first second : List FieldDiff} (hfirst : FieldsNamed first)
    (hsecond : FieldsNamed second) : FieldsNamed (first ++ second) :=
  List.forall_mem_append.mpr ⟨hfirst, hsecond⟩

theorem fieldsNamed_diffStruct {T : Type} [DiffStruct T] {oldVal newVal : T}
    (h : "" ∉ (diffFields : List (String × (T → String))).map Prod.fst) :
    FieldsNamed (diffStruct oldVal newVal) := by
  intro field hmem hempty
  obtain ⟨entry, hentry, hname⟩ := fieldName_of_mem_diffStruct hmem
  exact h (List.mem_map.mpr ⟨entry, hentry, hname.trans hempty⟩)

theorem FieldsNamed.erase {names : List String} {diffs : List FieldDiff} (h : FieldsNamed diffs) :
    FieldsNamed (eraseFields names diffs) := fun field hmem => h field (List.mem_of_mem_filter hmem)

theorem fieldsNamed_nested {T : Type} [DiffValue T] {oldItems newItems : List T}
    {keyOf : T → String} {fieldName : String} {itemDiff : T → T → List FieldDiff} :
    FieldsNamed (diffNestedCollectionWith oldItems newItems keyOf fieldName itemDiff) := by
  intro field hmem hempty
  obtain ⟨rest, hname⟩ := fieldName_of_mem_nested hmem
  rw [hempty] at hname
  have hlength := congrArg String.length hname
  rw [String.length_append, String.length_append] at hlength
  have hbracket : "[".length = 1 := rfl
  have hnone : "".length = 0 := rfl
  omega

theorem fieldsNamed_frame (oldF newF : Frame) : FieldsNamed (diffFrameElements oldF newF) := by
  have hstruct : FieldsNamed (diffStruct oldF newF) := fieldsNamed_diffStruct (by decide)
  have hpdus : FieldsNamed (eraseFields ["pdus"] (diffStruct oldF newF) ++
      diffNestedCollection oldF.pdus newF.pdus framePduMappingKey "pdus") :=
    hstruct.erase.append fieldsNamed_nested
  unfold diffFrameElements
  dsimp only
  split
  · exact hpdus
  · exact hpdus.erase.append fieldsNamed_nested

theorem fieldsNamed_signal {D : Type} [Double D] (oldS newS : Signal D) :
    FieldsNamed (diffSignalElements oldS newS) := by
  have hstruct : FieldsNamed (diffStruct oldS newS) := by
    refine fieldsNamed_diffStruct ?_
    show "" ∉ ["common", "startBit", "bitLength", "byteOrder", "isSigned", "factor", "offset", "min",
      "max", "unit", "initValue", "receivers", "valueTable"]
    decide
  have htable : FieldsNamed (diffSignalValueTable oldS.valueTable newS.valueTable) := by
    unfold diffSignalValueTable
    dsimp only
    split
    · exact fun field hmem => absurd hmem List.not_mem_nil
    · exact fieldsNamed_nested
  exact (hstruct.erase.append htable).append fieldsNamed_nested

section
variable {D : Type} [Double D] {oldProject newProject : ParsedProject D}

theorem fieldsNamed_compare {pass : TypePass} (h : pass ∈ passes oldProject newProject)
    (oldElem newElem : pass.T) : FieldsNamed (pass.compare oldElem newElem) := by
  simp only [passes, passesOf, List.mem_cons, List.not_mem_nil, or_false] at h
  rcases h with rfl | rfl | rfl | rfl | rfl | rfl
  · exact fieldsNamed_diffStruct (T := Cluster) (by decide)
  · exact fieldsNamed_diffStruct (T := EcuInstance) (by decide)
  · exact fieldsNamed_frame oldElem newElem
  · exact (fieldsNamed_diffStruct (T := Pdu) (by decide)).erase.append fieldsNamed_nested
  · exact fieldsNamed_signal oldElem newElem
  · exact (fieldsNamed_diffStruct (T := SignalGroup) (by decide)).erase.append fieldsNamed_nested

theorem pass_name_ne {pass : TypePass} (h : pass ∈ passes oldProject newProject) : pass.name ≠ "" := by
  have hnames : pass.name ∈ (passes oldProject newProject).map TypePass.name := List.mem_map_of_mem h
  change pass.name ∈ ["Cluster", "EcuInstance", "Frame", "Pdu", "Signal", "SignalGroup"] at hnames
  intro hempty
  rw [hempty] at hnames
  exact absurd hnames (by decide)

theorem ambiguityMessage_ne (elementTypeName key : String) (removed added : List String) :
    ambiguityMessage elementTypeName key removed added ≠ "" := by
  intro hempty
  have hlength := congrArg String.length hempty
  simp only [ambiguityMessage, String.length_append] at hlength
  have hclose : ")".length = 1 := rfl
  have hnone : "".length = 0 := rfl
  omega

/-- The field differences of a pair are named. -/
theorem fieldsNamed_lookup {pass : TypePass} (h : pass ∈ passes oldProject newProject)
    (oldPath newPath : String) :
    FieldsNamed (diffLookup pass.compare pass.oldIndex pass.newIndex oldPath newPath) := by
  unfold diffLookup
  split
  · exact fieldsNamed_compare h _ _
  · exact fun field hmem => absurd hmem List.not_mem_nil

theorem path_ne_of_mem {pass : TypePass} (h : pass ∈ passes oldProject newProject) {path : String}
    (hpath : path ∈ pass.oldIndex ∨ path ∈ pass.newIndex) : path ≠ "" := by
  have hindexed {T : Type} [DomainElement T] {oldElements newElements : List T}
      (hpath : path ∈ indexByPath oldElements ∨ path ∈ indexByPath newElements) : path ≠ "" := by
    rcases hpath with hpath | hpath
    · exact (mem_indexByPath.mp hpath).ne_empty
    · exact (mem_indexByPath.mp hpath).ne_empty
  simp only [passes, passesOf, List.mem_cons, List.not_mem_nil, or_false] at h
  rcases h with rfl | rfl | rfl | rfl | rfl | rfl <;> exact hindexed hpath

/-- The paths and differences that an entry has are those of its kind. -/
def DiffEntry.Shaped (entry : DiffEntry) : Prop :=
  match entry.kind with
  | .removed => entry.oldPath ≠ "" ∧ entry.newPath = "" ∧ entry.fieldDiffs = []
  | .added => entry.oldPath = "" ∧ entry.newPath ≠ "" ∧ entry.fieldDiffs = []
  | .moved => entry.oldPath ≠ "" ∧ entry.newPath ≠ "" ∧ entry.oldPath ≠ entry.newPath
  | .modified => entry.oldPath ≠ "" ∧ entry.newPath = entry.oldPath ∧ entry.fieldDiffs ≠ []

/-- Where an entry of the report comes from. -/
theorem mem_diff_entries {entry : DiffEntry} (h : entry ∈ (diff oldProject newProject).entries) :
    ∃ pass ∈ passes oldProject newProject, entry.elementType = pass.name ∧
      FieldsNamed entry.fieldDiffs ∧ entry.Shaped := by
  obtain ⟨before, hbefore, hpopulated⟩ :=
    List.mem_filterMap.mp ((diff_entries_perm oldProject newProject).mem_iff.mp h)
  obtain ⟨pass, hpass, hsettled⟩ := List.mem_flatMap.mp hbefore
  have hne {path : String} (hpath : path ∈ pass.oldIndex ∨ path ∈ pass.newIndex) : path ≠ "" :=
    path_ne_of_mem hpass hpath
  have hnone : FieldsNamed [] := fun field hmem => absurd hmem List.not_mem_nil
  have hnamed (oldPath newPath : String) : FieldsNamed
      (diffPair pass.name oldPath newPath (indexProject oldProject) (indexProject newProject)) := by
    rw [diffPair_of_pass hpass]
    exact fieldsNamed_lookup hpass _ _
  refine ⟨pass, hpass, ?_⟩
  rcases pass.mem_settled.mp hsettled with ⟨⟨oldPath, newPath⟩, hpair, rfl⟩ | ⟨path, hpath, rfl⟩ |
    ⟨path, hpath, rfl⟩ | ⟨path, hpath, rfl⟩
  · obtain ⟨key, hkey⟩ := pass.mem_pairs.mp hpair
    obtain ⟨hold, hnew⟩ := pass.mem_of_pairOf hkey
    obtain ⟨hold, hnotnew⟩ := pass.mem_oldOnly.mp hold
    obtain ⟨hnew, -⟩ := pass.mem_newOnly.mp hnew
    simp only [populateEntry, TypePass.movedEntry, reduceCtorEq, ne_eq, not_true_eq_false, and_false,
      if_false, true_or, if_true] at hpopulated
    obtain rfl := Option.some.inj hpopulated
    have hdistinct : oldPath ≠ newPath := fun heq => hnotnew (heq ▸ hnew)
    exact ⟨rfl, hnamed _ _, hne (.inl hold), hne (.inr hnew), hdistinct⟩
  · obtain ⟨hold, -⟩ := pass.mem_oldOnly.mp (List.mem_of_mem_filter hpath)
    obtain rfl := Option.some.inj hpopulated
    exact ⟨rfl, hnone, hne (.inl hold), rfl, rfl⟩
  · obtain ⟨hnew, -⟩ := pass.mem_newOnly.mp (List.mem_of_mem_filter hpath)
    obtain rfl := Option.some.inj hpopulated
    exact ⟨rfl, hnone, rfl, hne (.inr hnew), rfl⟩
  · obtain ⟨hold, -⟩ := pass.mem_both.mp hpath
    simp only [populateEntry, TypePass.matchedEntry, reduceCtorEq, ne_eq, not_true_eq_false, false_and,
      if_false, false_or] at hpopulated
    split at hpopulated
    · rename_i hchanged
      obtain rfl := Option.some.inj hpopulated
      exact ⟨rfl, hnamed _ _, hne (.inl hold), rfl, hchanged⟩
    · cases hpopulated

theorem diff_named (oldProject newProject : ParsedProject D) : (diff oldProject newProject).Named := by
  refine ⟨fun entry hentry => ?_, fun diag hdiag => ?_⟩
  · obtain ⟨pass, hpass, htype, hnamed, -⟩ := mem_diff_entries hentry
    exact ⟨htype ▸ pass_name_ne hpass, hnamed⟩
  · obtain ⟨pass, hpass, hmem⟩ :=
      List.mem_flatMap.mp ((diff_diagnostics_perm oldProject newProject).mem_iff.mp hdiag)
    obtain ⟨key, -, hkey⟩ := List.mem_filterMap.mp hmem
    obtain rfl := ambiguityOf_eq_some hkey
    exact ⟨ambiguityMessage_ne _ _ _ _, pass_name_ne hpass⟩

/-- **Every diff report meets the contract**: its document meets the schema of the envelope, and an
entry has the paths and differences of its kind. -/
theorem diff_conforms (oldProject newProject : ParsedProject D) :
    envelopeSchema (diff oldProject newProject).toJson = true ∧
      ∀ entry ∈ (diff oldProject newProject).entries, entry.Shaped := by
  refine ⟨(diff_named oldProject newProject).conforms, fun entry hentry => ?_⟩
  obtain ⟨pass, -, -, -, hshaped⟩ := mem_diff_entries hentry
  exact hshaped

/-! ## What the validator reports -/

theorem trimMessage_ne (raw : Option String) : trimMessage raw ≠ "" := by
  unfold trimMessage
  dsimp only
  split
  · decide
  · rename_i hne
    exact hne

/-- Each finding of the checks has a code and a message. -/
def FindingsNamed (errors : List ValidationError) : Prop :=
  ∀ err ∈ errors, err.code ≠ "" ∧ err.message ≠ ""

theorem validateSchema_named (library : SchemaLibrary) (file : ParsedFile D)
    (sharedSchema : Option library.XmlSchema) :
    FindingsNamed (validateSchema library file sharedSchema).errors := by
  have hsingle {finding : ValidationError} (h : finding.code ≠ "" ∧ finding.message ≠ "") :
      FindingsNamed [finding] := by
    intro err herr
    rw [List.mem_singleton.mp herr]
    exact h
  unfold validateSchema
  cases sharedSchema with
  | none => exact hsingle ⟨by decide, by decide⟩
  | some schema =>
    dsimp only
    split
    · exact hsingle ⟨by decide, by decide⟩
    · split
      · exact hsingle ⟨by decide, by decide⟩
      · cases library.readFile file.sourcePath with
        | none => exact hsingle (by simp [unreadableFinding])
        | some doc =>
          refine List.forall_mem_append.mpr ⟨?_, ?_⟩
          · exact List.forall_mem_map.mpr fun error _ => ⟨by simp [onSchemaError], trimMessage_ne _⟩
          · split
            · exact hsingle ⟨by decide, by decide⟩
            · exact fun err herr => absurd herr List.not_mem_nil

theorem checkSite_named {index : StdMap RawNode} {site : RefSite} {finding : ValidationError}
    (h : checkSite index site = some finding) : finding.code ≠ "" ∧ finding.message ≠ "" := by
  unfold checkSite at h
  dsimp only at h
  split at h
  · cases h
  · split at h
    · obtain rfl := Option.some.inj h
      simp [danglingFinding]
    · split at h
      · obtain rfl := Option.some.inj h
        simp [unrecognizedFinding]
      · split at h
        · cases h
        · obtain rfl := Option.some.inj h
          simp [mismatchFinding]

theorem CanFinding.named {err : ValidationError} (h : CanFinding err) :
    err.code ≠ "" ∧ err.message ≠ "" := by
  cases h with
  | length hmem =>
    rw [checkPayloadLength] at hmem
    split at hmem
    · cases hmem
    · rw [List.mem_singleton.mp hmem]
      simp
  | conflict pdu signalName conflict =>
    cases conflict with
    | outside bit => simp [conflictError, outOfRangeError]
    | taken owner bit => simp [conflictError, overlapError]

theorem validateAll_named {library : SchemaLibrary} {project : ParsedProject D}
    {sharedSchema : Option library.XmlSchema} {result : ValidationResult}
    (h : validateAll library project sharedSchema = some result) : FindingsNamed result.errors := by
  rw [validateAll_eq] at h
  obtain ⟨can, hcan, rfl⟩ := Option.map_eq_some_iff.mp h
  refine List.forall_mem_append.mpr ⟨List.forall_mem_append.mpr ⟨List.forall_mem_append.mpr
    ⟨fun err herr => ?_, fun err herr => ?_⟩, fun err herr => ?_⟩, fun err herr => ?_⟩
  · obtain ⟨file, -, hmem⟩ := List.mem_flatMap.mp herr
    exact validateSchema_named library file sharedSchema err hmem
  · rw [validateReferences_eq] at herr
    obtain ⟨node, -, hverdict⟩ := List.mem_filterMap.mp herr
    unfold verdict at hverdict
    split at hverdict
    · obtain ⟨dest, -, hsite⟩ := Option.bind_eq_some_iff.mp hverdict
      exact checkSite_named hsite
    · cases hverdict
  · obtain ⟨file, -, hmem⟩ := List.mem_flatMap.mp herr
    split at hmem
    · cases hmem
    · obtain ⟨nodePath, name, second, rfl⟩ := duplicate_of_mem_checkNode hmem
      simp [duplicateFinding]
  · exact (validateCanSemantics_findings hcan err herr).named

/-- **Every validation result meets the contract.** -/
theorem validateAll_conforms {library : SchemaLibrary} {project : ParsedProject D}
    {sharedSchema : Option library.XmlSchema} {result : ValidationResult}
    (h : validateAll library project sharedSchema = some result) :
    envelopeSchema result.toJson = true :=
  ValidationResult.Named.conforms (validateAll_named h)

end

theorem validateAll_conforms_references :
    ∃ result, validateAll acceptingLibrary projectOfReferences (some ()) = some result ∧
      envelopeSchema result.toJson = true := by
  have hsome : (validateAll acceptingLibrary projectOfReferences (some ())).isSome = true := by
    decide +kernel
  obtain ⟨result, hresult⟩ := Option.isSome_iff_exists.mp hsome
  exact ⟨result, hresult, validateAll_conforms hresult⟩

/-! ## Documents that meet a schema are read -/

section
variable {value : Json}

theorem fieldFromJson_of_schema (h : fieldDiffSchema value = true) (hutf8 : value.isUtf8 = true) :
    ∃ field, fieldFromJson value = some field ∧ field.fieldName ≠ "" := by
  obtain ⟨fieldName, hfield, hname⟩ := required_text h hutf8
    (show ("field", textOf 1) ∈ _ by simp) (by simp) (textual_textOf 1)
  obtain ⟨oldValue, hold, -⟩ := required_text h hutf8
    (show ("oldValue", type [.string]) ∈ _ by simp) (by simp) textual_type
  obtain ⟨newValue, hnew, -⟩ := required_text h hutf8
    (show ("newValue", type [.string]) ∈ _ by simp) (by simp) textual_type
  exact ⟨⟨fieldName, oldValue, newValue⟩, by simp [fieldFromJson, hfield, hold, hnew], ne_of_textOf hname⟩

/-- A text that defaults to the empty one. -/
theorem valueOr_text {list : List (String × Schema)} {names : List String} {name default : String}
    {schema : Schema} (h : closedObject list names value = true) (hutf8 : value.isUtf8 = true)
    (hlist : (name, schema) ∈ list) (htextual : Textual schema) :
    ∃ string, value.valueOr Json.text? name default = some string ∧
      ((value.member? name).isSome = true → schema (.text string) = true) := by
  obtain ⟨⟨members, rfl⟩, hproperties, -⟩ := closedObject_parts h
  obtain ⟨text, htext⟩ := optional_text h hutf8 hlist htextual
  cases text with
  | none => exact ⟨default, by rw [Json.valueOr, htext]; rfl, by rw [htext]; intro h; cases h⟩
  | some string =>
    refine ⟨string, by rw [Json.valueOr, htext]; exact Json.text?_text string, fun _ => ?_⟩
    exact hproperties _ hlist _ htext

theorem entryFromJson_of_schema (h : diffEntrySchema value = true) (hutf8 : value.isUtf8 = true) :
    ∃ entry, entryFromJson value = some entry ∧ entry.elementType ≠ "" ∧ FieldsNamed entry.fieldDiffs := by
  obtain ⟨kind, hkind, -⟩ := required_text h hutf8
    (show ("kind", allOf [type [.string], enum ["added", "removed", "moved", "modified"]]) ∈ _ by simp)
    (by simp) (textual_allOf _)
  obtain ⟨elementType, htype, hname⟩ := required_text h hutf8
    (show ("elementType", textOf 1) ∈ _ by simp) (by simp) (textual_textOf 1)
  obtain ⟨oldPath, hold, -⟩ := @valueOr_text value _ _ _ "" _ h hutf8
    (show ("oldPath", type [.string]) ∈ _ by simp) textual_type
  obtain ⟨newPath, hnew, -⟩ := @valueOr_text value _ _ _ "" _ h hutf8
    (show ("newPath", type [.string]) ∈ _ by simp) textual_type
  obtain ⟨items, hitems, hfields⟩ := required_array h
    (show ("fieldDiffs", arrayOf fieldDiffSchema) ∈ _ by simp) (by simp)
  have harray := Json.isUtf8_array.mp (Json.isUtf8_of_member? hutf8 hitems)
  obtain ⟨fieldDiffs, hread, hnamed⟩ := mapM_of_forall fun item hitem =>
    fieldFromJson_of_schema (hfields item hitem) (harray item hitem)
  exact ⟨⟨kindFromJson kind, elementType, oldPath, newPath, fieldDiffs⟩,
    by simp [entryFromJson, hkind, htype, hold, hnew, hitems, hread], ne_of_textOf hname, hnamed⟩

theorem diagnosticFromJson_of_schema (h : diffDiagnosticSchema value = true)
    (hutf8 : value.isUtf8 = true) :
    ∃ diag, diagnosticFromJson value = some diag ∧ diag.message ≠ "" ∧ diag.elementType ≠ "" := by
  obtain ⟨message, hmessage, htext⟩ := required_text h hutf8
    (show ("message", textOf 1) ∈ _ by simp) (by simp) (textual_textOf 1)
  obtain ⟨elementType, htype, hname⟩ := required_text h hutf8
    (show ("elementType", textOf 1) ∈ _ by simp) (by simp) (textual_textOf 1)
  exact ⟨⟨message, elementType⟩, by simp [diagnosticFromJson, hmessage, htype], ne_of_textOf htext,
    ne_of_textOf hname⟩

theorem DiffReport.fromJson_of_schema {doc : Json} (h : diffReportSchema (payloadOf doc) = true)
    (hutf8 : (payloadOf doc).isUtf8 = true) :
    ∃ report, DiffReport.fromJson doc = some report ∧ report.Named := by
  obtain ⟨entryItems, hentries, hentry⟩ := required_array h
    (show ("entries", arrayOf diffEntrySchema) ∈ _ by simp) (by simp)
  obtain ⟨diagItems, hdiags, hdiag⟩ := required_array h
    (show ("diagnostics", arrayOf diffDiagnosticSchema) ∈ _ by simp) (by simp)
  have hentryUtf8 := Json.isUtf8_array.mp (Json.isUtf8_of_member? hutf8 hentries)
  have hdiagUtf8 := Json.isUtf8_array.mp (Json.isUtf8_of_member? hutf8 hdiags)
  obtain ⟨entries, hread, hnamed⟩ := mapM_of_forall fun item hitem =>
    entryFromJson_of_schema (hentry item hitem) (hentryUtf8 item hitem)
  obtain ⟨diagnostics, hreadDiags, hnamedDiags⟩ := mapM_of_forall fun item hitem =>
    diagnosticFromJson_of_schema (hdiag item hitem) (hdiagUtf8 item hitem)
  exact ⟨⟨entries, diagnostics⟩, by simp [DiffReport.fromJson, hentries, hdiags, hread, hreadDiags],
    hnamed, hnamedDiags⟩

variable (truncate : UInt64 → Nat)

theorem locationFromJson_of_schema (h : locationSchema value = true) :
    ∃ location, locationFromJson truncate value = some location := by
  have hsize {name : String} (hlist : (name, integerFrom 0) ∈ [("startOffset", integerFrom 0),
      ("endOffset", integerFrom 0), ("lineNumber", integerFrom 0)])
      (hname : name ∈ ["startOffset", "endOffset", "lineNumber"]) :
      ∃ size, value.valueOr (Json.size? truncate) name 0 = some size := by
    obtain ⟨member, hmember, hinteger⟩ := required_member h hlist hname
    obtain ⟨⟨members, rfl⟩, -⟩ := closedObject_parts h
    obtain ⟨size, hread⟩ := size_of_integerFrom hinteger
    exact ⟨size, by rw [Json.valueOr, hmember]; exact hread⟩
  obtain ⟨startOffset, hstart⟩ := hsize (by simp) (show "startOffset" ∈ _ by simp)
  obtain ⟨endOffset, hend⟩ := hsize (by simp) (show "endOffset" ∈ _ by simp)
  obtain ⟨lineNumber, hline⟩ := hsize (by simp) (show "lineNumber" ∈ _ by simp)
  exact ⟨⟨startOffset, endOffset, lineNumber⟩, by simp [locationFromJson, hstart, hend, hline]⟩

theorem optional_of_schema {list : List (String × Schema)} {names : List String} {name : String}
    (h : closedObject list names value = true) (hutf8 : value.isUtf8 = true)
    (hlist : (name, type [.string]) ∈ list) : ∃ text, optional Json.text? value name = some text := by
  obtain ⟨text, htext⟩ := optional_text h hutf8 hlist textual_type
  exact ⟨text, optional_read Json.text?_text htext⟩

theorem errorFromJson_of_schema (h : validationErrorSchema value = true) (hutf8 : value.isUtf8 = true) :
    ∃ err, errorFromJson truncate value = some err ∧ err.code ≠ "" ∧ err.message ≠ "" := by
  obtain ⟨severity, hseverity, -⟩ := @valueOr_text value _ _ _ "error" _ h hutf8
    (show ("severity", allOf [type [.string], enum ["error", "warning"]]) ∈ _ by simp) (textual_allOf _)
  obtain ⟨code, hcode, hcodeText⟩ := @valueOr_text value _ _ _ "" _ h hutf8
    (show ("code", textOf 1) ∈ _ by simp) (textual_textOf 1)
  obtain ⟨message, hmessage, hmessageText⟩ := @valueOr_text value _ _ _ "" _ h hutf8
    (show ("message", textOf 1) ∈ _ by simp) (textual_textOf 1)
  obtain ⟨path, hpath⟩ := optional_of_schema h hutf8 (show ("path", _) ∈ _ by simp)
  obtain ⟨expectedType, hexpected⟩ := optional_of_schema h hutf8 (show ("expectedType", _) ∈ _ by simp)
  obtain ⟨actualType, hactual⟩ := optional_of_schema h hutf8 (show ("actualType", _) ∈ _ by simp)
  obtain ⟨-, hproperties, hrequired⟩ := closedObject_parts h
  have hlocation : ∃ location, optional (locationFromJson truncate) value "location" = some location := by
    cases hmember : value.member? "location" with
    | none => exact ⟨none, by rw [optional, hmember]⟩
    | some member =>
      obtain ⟨location, hread⟩ := locationFromJson_of_schema truncate
        (hproperties ("location", locationSchema) (by simp) member hmember)
      exact ⟨some location, by rw [optional, hmember]; simp [hread]⟩
  obtain ⟨location, hlocation⟩ := hlocation
  refine ⟨⟨if severity = "warning" then .warning else .error, code, message, location, path,
    expectedType, actualType⟩, ?_, ne_of_textOf (hcodeText (hrequired _ (by simp))),
    ne_of_textOf (hmessageText (hrequired _ (by simp)))⟩
  simp [errorFromJson, hseverity, hcode, hmessage, hlocation, hpath, hexpected, hactual]

theorem ValidationResult.fromJson_of_schema {doc : Json}
    (h : validationResultSchema (payloadOf doc) = true) (hutf8 : (payloadOf doc).isUtf8 = true) :
    ∃ result, ValidationResult.fromJson truncate doc = some result ∧ result.Named := by
  obtain ⟨items, herrors, herror⟩ := required_array h
    (show ("errors", arrayOf validationErrorSchema) ∈ _ by simp) (by simp)
  have hitems := Json.isUtf8_array.mp (Json.isUtf8_of_member? hutf8 herrors)
  obtain ⟨errors, hread, hnamed⟩ := mapM_of_forall fun item hitem =>
    errorFromJson_of_schema truncate (herror item hitem) (hitems item hitem)
  exact ⟨⟨errors⟩, by simp [ValidationResult.fromJson, herrors, hread], hnamed⟩

/-- The payload of a conforming envelope meets the schema of its kind. -/
theorem payload_of_envelope {doc : Json} {kind : String} {schema : Schema}
    (henvelope : payloadOfKind kind schema doc = true) (hkind : doc.member? "kind" = some (.text kind))
    {payload : Json} (hpayload : doc.member? "payload" = some payload) : schema payload = true := by
  cases doc with
  | object members =>
    simp only [payloadOfKind, ifThen, allOf, properties, required, List.all_cons, List.all_nil, hkind,
      hpayload, const_text, Option.all_some, Option.isSome_some, decide_true, Bool.and_true, Bool.not_true,
      Bool.false_or] at henvelope
    exact henvelope
  | _ => cases hkind

/-- **Every conforming report is read**, and written again it conforms. -/
theorem conforming_reports_read (truncate : UInt64 → Nat) {doc : Json} (hutf8 : doc.isUtf8 = true)
    (h : envelopeSchema doc = true) :
    (doc.member? "kind" = some (.text "diffReport") → ∃ report, DiffReport.fromJson doc = some report ∧
      envelopeSchema report.toJson = true) ∧
    (doc.member? "kind" = some (.text "validationResult") → ∃ result,
      ValidationResult.fromJson truncate doc = some result ∧ envelopeSchema result.toJson = true) := by
  have hall := List.all_eq_true.mp h
  have hshape := hall _ (List.mem_cons_self ..)
  have hvalidation := hall _ (List.mem_cons_of_mem _ (List.mem_cons_self ..))
  have hdiff := hall _ (List.mem_cons_of_mem _ (List.mem_cons_of_mem _ (List.mem_cons_self ..)))
  obtain ⟨payload, hpayload, -⟩ := required_member hshape (show ("payload", allOf []) ∈ _ by simp) (by simp)
  have hof : payloadOf doc = payload := by rw [payloadOf, hpayload, Option.getD_some]
  have hpayloadUtf8 : (payloadOf doc).isUtf8 = true := hof ▸ Json.isUtf8_of_member? hutf8 hpayload
  refine ⟨fun hkind => ?_, fun hkind => ?_⟩
  · have hschema : diffReportSchema (payloadOf doc) = true :=
      hof ▸ payload_of_envelope hdiff hkind hpayload
    obtain ⟨report, hread, hnamed⟩ := DiffReport.fromJson_of_schema hschema hpayloadUtf8
    exact ⟨report, hread, hnamed.conforms⟩
  · have hschema : validationResultSchema (payloadOf doc) = true :=
      hof ▸ payload_of_envelope hvalidation hkind hpayload
    obtain ⟨result, hread, hnamed⟩ := ValidationResult.fromJson_of_schema truncate hschema hpayloadUtf8
    exact ⟨result, hread, hnamed.conforms⟩

end

/-- A report of one added frame. -/
def reportOfFrame : DiffReport :=
  { entries := [{ kind := .added, elementType := "Frame", newPath := "/Brake" }] }

theorem conforming_reports_read_frame : ∃ report,
    DiffReport.fromJson reportOfFrame.toJson = some report ∧ envelopeSchema report.toJson = true :=
  (conforming_reports_read (fun _ => 0) (by decide +kernel) (by decide +kernel)).1 rfl

end ParseX

import Mathlib.Data.List.DropRight
import ParseX.Validator.OverlapSpec
import ParseX.Validator.ReferenceFindings
import ParseX.Validator.ValidatorSchema

/-! # The whole validation

The schema check of every file and the three checks of the project, merged, and what the verdict
over the merged findings means in either mode. -/
namespace ParseX
open Cpp

/-! ## The schema check -/

inductive XmlErrorLevel where
  | none
  | warning
  | error
  | fatal
  deriving DecidableEq, Repr

/-- A structured error of the XML library; the message may be null. -/
structure XmlError where
  level : XmlErrorLevel
  message : Option String
  line : Int
  deriving DecidableEq, Repr

/-- The XML library: schema handles, documents it reads from a path, and what a validation
reports in order and returns. -/
structure SchemaLibrary where
  XmlSchema : Type
  XmlDoc : Type
  newValidCtxt : XmlSchema → Bool
  readFile : String → Option XmlDoc
  validateDoc : XmlSchema → XmlDoc → List XmlError × Int

def trimMessage (raw : Option String) : String :=
  let message := String.ofList ((raw.getD "schema validation failed").toList.rdropWhile fun c =>
    c = '\n' ∨ c = '\r' ∨ c = ' ')
  if message = "" then "schema validation failed" else message

/-- `Validator::onSchemaError`: the finding it appends. -/
def onSchemaError (lineIndex : LineIndex) (error : XmlError) : ValidationError where
  severity := if error.level = .warning then .warning else .error
  code := "schema.invalid"
  message := trimMessage error.message
  location := spanForLine lineIndex error.line

def noSchemaFinding : ValidationError where
  code := "schema.no_schema"
  message := "validateSchema: null shared schema handle"

def noSourceFinding : ValidationError where
  code := "schema.no_source"
  message := "validateSchema: ParsedFile has no sourcePath"

def noContextFinding : ValidationError where
  code := "schema.no_context"
  message := "validateSchema: cannot create validation context"

def unreadableFinding (narrowPath : String) : ValidationError where
  code := "schema.unreadable"
  message := "validateSchema: cannot re-parse '" ++ narrowPath ++ "' for validation"

def internalFinding : ValidationError where
  code := "schema.internal"
  message := "validateSchema: internal validation error"

inductive StrictMode where
  | lenient
  | strict
  deriving DecidableEq, Repr

def ValidationResult.hasWarnings (result : ValidationResult) : Bool :=
  result.errors.any fun err => err.severity = .warning

/-- `Validator::overallPassed`. -/
def overallPassed (result : ValidationResult) (mode : StrictMode) : Bool :=
  if result.hasErrors then false
  else if mode = .strict ∧ result.hasWarnings then false
  else true

def ValidationResult.merge (result other : ValidationResult) : ValidationResult :=
  ⟨result.errors ++ other.errors⟩

section
variable {D : Type} [Double D] (library : SchemaLibrary)

/-- `Validator::validateSchema`. -/
def validateSchema (file : ParsedFile D) (sharedSchema : Option library.XmlSchema) :
    ValidationResult :=
  match sharedSchema with
  | none => ⟨[noSchemaFinding]⟩
  | some schema =>
    if file.sourcePath = "" then ⟨[noSourceFinding]⟩
    else if !library.newValidCtxt schema then ⟨[noContextFinding]⟩
    else
      let lineIndex := (file.rawDocument.map buildLineIndex).getD []
      match library.readFile file.sourcePath with
      | none => ⟨[unreadableFinding file.sourcePath]⟩
      | some doc =>
        let (errors, ret) := library.validateDoc schema doc
        ⟨errors.map (onSchemaError lineIndex) ++ if ret < 0 then [internalFinding] else []⟩

/-- `Validator::validateAll`; undefined where the CAN checks are. -/
def validateAll (project : ParsedProject D) (sharedSchema : Option library.XmlSchema) :
    Option ValidationResult := do
  let combined : ValidationResult := project.files.foldl
    (fun combined file => combined.merge (validateSchema library file sharedSchema)) {}
  let combined := combined.merge (validateReferences project)
  let combined := combined.merge (validateUniqueness project)
  let can ← validateCanSemantics project
  return combined.merge can

/-! ## What a project without findings is -/

/-- A finding of a severity counts against a result in a mode. -/
def Severity.Counts (severity : Severity) (mode : StrictMode) : Prop :=
  severity = .error ∨ mode = .strict

/-- The file is read and validated, and no reported error counts. -/
def SchemaSound (sharedSchema : Option library.XmlSchema) (mode : StrictMode) (file : ParsedFile D) :
    Prop :=
  ∃ schema doc, sharedSchema = some schema ∧ file.sourcePath ≠ "" ∧
    library.newValidCtxt schema = true ∧ library.readFile file.sourcePath = some doc ∧
    0 ≤ (library.validateDoc schema doc).2 ∧
    ∀ error ∈ (library.validateDoc schema doc).1, error.level = .warning ∧ mode = .lenient

end

/-- A scope of a tree: the root, or a scope below a child that is no short name. -/
inductive ScopeOf : RawNode → RawNode → Prop where
  | here {node : RawNode} : ScopeOf node node
  | inside {node child scope : RawNode} : child ∈ node.children → child.tagName ≠ "SHORT-NAME" →
      ScopeOf child scope → ScopeOf node scope

/-- Payload lengths of classic CAN and CAN FD. -/
def IsCanLength (length : UInt32) : Prop :=
  length.toNat ≤ 8 ∨ length.toNat ∈ [12, 16, 20, 24, 32, 48, 64]

section
variable {D : Type} [Double D]

/-- What the checks ask of a project beyond its schema. -/
structure SoundProject (mode : StrictMode) (project : ParsedProject D) : Prop where
  /-- References lead to nodes of their type; a type that is unknown is worth a warning. -/
  references : ∀ node ∈ documentNodes project, ∀ dest, isRefTag node.tagName = true →
    destAttr node = some dest →
      SoundRef ((namedNodes project).map fun entry => (entry.1, entry.2.tagName))
        (trimText node.text) dest ∧
      (mode = .strict → trimText node.text = "" ∨ (destToTags.lookup dest).isSome = true)
  names : ∀ root ∈ documentRoots project, ∀ scope, ScopeOf root scope →
    ((namedChildren scope).map Prod.fst).Nodup
  lengths : ∀ file ∈ project.files, (∀ frame ∈ file.frames, IsCanLength frame.length) ∧
    ∀ pdu ∈ file.pdus, IsCanLength pdu.length
  /-- Signals whose position fits an `int` lie inside their PDU and share no bit. -/
  layouts : ∀ file ∈ project.files, ∀ pdu ∈ file.pdus, pdu.length ≠ 0 →
    CleanLayout (8 * pdu.length.toNat)
      ((placements pdu (signalTable file)).filter fun placement => placement.Visible)

/-- No walk over the bits of a signal leaves the range of `int`. -/
def WalksFit (project : ParsedProject D) : Prop :=
  ∀ file ∈ project.files, ∀ pdu ∈ file.pdus, pdu.length ≠ 0 →
    ∀ placement ∈ placements pdu (signalTable file), placement.Visible → placement.Fits

/-! ## Verdicts over findings -/

/-- A result passes when none of its findings counts. -/
theorem overallPassed_iff {result : ValidationResult} {mode : StrictMode} :
    overallPassed result mode = true ↔ ∀ err ∈ result.errors, ¬ err.severity.Counts mode := by
  have hpassed : overallPassed result mode = true ↔
      result.hasErrors = false ∧ (mode = .strict → result.hasWarnings = false) := by
    unfold overallPassed
    cases result.hasErrors <;> cases result.hasWarnings <;> simp
  rw [hpassed, ValidationResult.hasErrors, ValidationResult.hasWarnings, List.any_eq_false,
    List.any_eq_false]
  constructor
  · intro h err herr hcounts
    have herror := h.1 err herr
    rcases hcounts with hbad | hstrict
    · exact herror (decide_eq_true hbad)
    · have hwarning := h.2 hstrict err herr
      cases hseverity : err.severity <;> simp [hseverity] at herror hwarning
  · intro h
    refine ⟨fun err herr hbad => h err herr (.inl (of_decide_eq_true hbad)), fun hstrict err herr _ => ?_⟩
    exact h err herr (.inr hstrict)

/-- Errors count in both modes. -/
theorem errors_pass_iff {errors : List ValidationError} {mode : StrictMode}
    (h : ∀ err ∈ errors, err.severity = .error) :
    (∀ err ∈ errors, ¬ err.severity.Counts mode) ↔ errors = [] := by
  rw [List.eq_nil_iff_forall_not_mem]
  exact ⟨fun hnone err herr => hnone err herr (.inl (h err herr)),
    fun hnil err herr => absurd herr (hnil err)⟩

/-! ## The schema check -/

theorem validateSchema_pass_iff (library : SchemaLibrary) (file : ParsedFile D)
    (sharedSchema : Option library.XmlSchema) (mode : StrictMode) :
    (∀ err ∈ (validateSchema library file sharedSchema).errors, ¬ err.severity.Counts mode) ↔
      SchemaSound library sharedSchema mode file := by
  have hfails {finding : ValidationError} (h : finding.severity = .error) :
      ¬ ∀ err ∈ [finding], ¬ err.severity.Counts mode :=
    fun hnone => hnone finding (List.mem_singleton_self _) (.inl h)
  unfold validateSchema SchemaSound
  cases sharedSchema with
  | none => exact iff_of_false (hfails rfl) fun ⟨schema, doc, h, _⟩ => by cases h
  | some schema =>
    dsimp only
    split
    · rename_i hsource
      exact iff_of_false (hfails rfl) fun ⟨_, _, _, hne, _⟩ => hne hsource
    · rename_i hsource
      split
      · rename_i hcontext
        refine iff_of_false (hfails rfl) fun ⟨_, _, heq, _, hmade, _⟩ => ?_
        obtain rfl := Option.some.inj heq
        rw [hmade] at hcontext
        cases hcontext
      · rename_i hcontext
        cases hdoc : library.readFile file.sourcePath with
        | none =>
          refine iff_of_false (hfails rfl) fun ⟨_, _, _, _, _, hread, _⟩ => ?_
          cases hread
        | some doc =>
          have hreported : (∀ err ∈ (library.validateDoc schema doc).1.map
              (onSchemaError ((file.rawDocument.map buildLineIndex).getD [])),
              ¬ err.severity.Counts mode) ↔
              ∀ error ∈ (library.validateDoc schema doc).1, error.level = .warning ∧ mode = .lenient := by
            simp only [List.forall_mem_map, onSchemaError, Severity.Counts]
            refine forall₂_congr fun error _ => ?_
            cases mode <;> by_cases hlevel : error.level = .warning <;> simp [hlevel]
          dsimp only
          rw [List.forall_mem_append, hreported]
          have hmade : library.newValidCtxt schema = true := by simpa using hcontext
          by_cases hret : (library.validateDoc schema doc).2 < 0
          · rw [if_pos hret]
            refine iff_of_false (fun h => hfails rfl h.2) fun ⟨_, _, heq, _, _, hread, hge, _⟩ => ?_
            obtain rfl := Option.some.inj heq
            obtain rfl := Option.some.inj hread
            omega
          · rw [if_neg hret]
            refine ⟨fun h => ⟨schema, doc, rfl, hsource, hmade, rfl, by omega, h.1⟩,
              fun ⟨_, _, heq, _, _, hread, _, hall⟩ => ⟨?_, by simp⟩⟩
            obtain rfl := Option.some.inj heq
            obtain rfl := Option.some.inj hread
            exact hall

/-! ## References -/

/-- The finding of a site counts when the reference is no error or, in strict mode, its type is
unknown. -/
theorem checkSite_pass_iff (entries : List (String × RawNode)) (node : RawNode) (dest : String)
    (mode : StrictMode) :
    (∀ finding, checkSite (ofFirst entries) ⟨node, dest⟩ = some finding →
      ¬ finding.severity.Counts mode) ↔
      SoundRef (entries.map fun entry => (entry.1, entry.2.tagName)) (trimText node.text) dest ∧
      (mode = .strict → trimText node.text = "" ∨ (destToTags.lookup dest).isSome = true) := by
  have hsound := @checkSite_error_iff entries ⟨node, dest⟩
  rw [← hsound]
  unfold checkSite
  dsimp only
  by_cases hpath : trimText node.text = ""
  · simp [hpath]
  · rw [if_neg hpath]
    cases (ofFirst entries)[trimText node.text]? with
    | none => simp [danglingFinding, Severity.Counts]
    | some target =>
      cases destToTags.lookup dest with
      | none => cases mode <;> simp [unrecognizedFinding, Severity.Counts, hpath]
      | some tags => by_cases htag : target.tagName ∈ tags <;> simp [htag, mismatchFinding, Severity.Counts]

theorem validateReferences_pass_iff (project : ParsedProject D) (mode : StrictMode) :
    (∀ err ∈ (validateReferences project).errors, ¬ err.severity.Counts mode) ↔
      ∀ node ∈ documentNodes project, ∀ dest, isRefTag node.tagName = true →
        destAttr node = some dest →
          SoundRef ((namedNodes project).map fun entry => (entry.1, entry.2.tagName))
            (trimText node.text) dest ∧
          (mode = .strict → trimText node.text = "" ∨ (destToTags.lookup dest).isSome = true) := by
  have hnode (node : RawNode) : (∀ err, verdict project node = some err → ¬ err.severity.Counts mode) ↔
      ∀ dest, isRefTag node.tagName = true → destAttr node = some dest →
        ∀ finding, checkSite (ofFirst (namedNodes project)) ⟨node, dest⟩ = some finding →
          ¬ finding.severity.Counts mode := by
    rw [verdict, buildReferencePathIndex_eq]
    by_cases htag : isRefTag node.tagName = true
    · cases hdest : destAttr node <;> simp [htag]
    · simp [htag]
  rw [validateReferences_eq]
  simp only [List.mem_filterMap]
  constructor
  · intro h node hmem dest htag hdest
    refine (checkSite_pass_iff _ node dest mode).mp ?_
    exact (hnode node).mp (fun err herr => h err ⟨node, hmem, herr⟩) dest htag hdest
  · rintro h err ⟨node, hmem, herr⟩
    refine (hnode node).mpr (fun dest htag hdest => ?_) err herr
    exact (checkSite_pass_iff _ node dest mode).mpr (h node hmem dest htag hdest)

/-! ## Names -/

/-- A finding of the uniqueness check is about the second child of a name. -/
theorem duplicate_of_mem_checkNode {node : RawNode} {err : ValidationError} : ∀ {basePath : String},
    err ∈ checkNode node basePath → ∃ nodePath name second, err = duplicateFinding nodePath name second := by
  induction node using RawNode.induction with
  | step node ih =>
    intro basePath herr
    have hchildren : ∀ children : List RawNode, (∀ child ∈ children, child ∈ node.children) →
        ∀ {nodePath : String}, err ∈ checkChildren children nodePath →
          ∃ nodePath name second, err = duplicateFinding nodePath name second := by
      intro children hsub nodePath hmem
      induction children with
      | nil => cases hmem
      | cons child rest ihrest =>
        obtain ⟨hchild, hrest⟩ := List.forall_mem_cons.mp hsub
        rw [checkChildren, List.mem_append] at hmem
        rcases hmem with hmem | hmem
        · split at hmem
          · cases hmem
          · exact ih child hchild hmem
        · exact ihrest hrest hmem
    cases node with
    | mk tagName attributes text span children =>
      rw [checkNode, List.mem_append] at herr
      rcases herr with hscope | hbelow
      · obtain ⟨⟨name, members⟩, -, hfinding⟩ := List.mem_filterMap.mp hscope
        obtain ⟨second, -, rfl⟩ := Option.map_eq_some_iff.mp hfinding
        exact ⟨_, name, second, rfl⟩
      · exact hchildren children (fun _ h => h) hbelow

/-- A tree has no finding when the names in each of its scopes are distinct. -/
theorem checkNode_eq_nil_iff_scopes {node : RawNode} : ∀ {basePath : String},
    checkNode node basePath = [] ↔
      ∀ scope, ScopeOf node scope → ((namedChildren scope).map Prod.fst).Nodup := by
  induction node using RawNode.induction with
  | step node ih =>
    intro basePath
    rw [checkNode_eq_nil]
    constructor
    · rintro ⟨hhere, hbelow⟩ scope hscope
      cases hscope with
      | here => exact hhere
      | inside hchild htag hscope => exact (ih _ hchild).mp (hbelow _ hchild htag) scope hscope
    · intro h
      refine ⟨h node .here, fun child hchild htag => (ih child hchild).mpr fun scope hscope => ?_⟩
      exact h scope (.inside hchild htag hscope)

theorem validateUniqueness_pass_iff (project : ParsedProject D) (mode : StrictMode) :
    (∀ err ∈ (validateUniqueness project).errors, ¬ err.severity.Counts mode) ↔
      ∀ root ∈ documentRoots project, ∀ scope, ScopeOf root scope →
        ((namedChildren scope).map Prod.fst).Nodup := by
  have herrors : (validateUniqueness project).errors =
      (documentRoots project).flatMap fun root => checkNode root "" := by
    simp only [validateUniqueness, documentRoots]
    induction project.files with
    | nil => rfl
    | cons file files ih =>
      rw [List.flatMap_cons, ih]
      cases hroot : file.rawDocument with
      | none => simp [hroot]
      | some root => simp [hroot]
  rw [herrors, errors_pass_iff, List.flatMap_eq_nil_iff]
  · simp only [checkNode_eq_nil_iff_scopes]
  · intro err herr
    obtain ⟨root, -, hmem⟩ := List.mem_flatMap.mp herr
    obtain ⟨nodePath, name, second, rfl⟩ := duplicate_of_mem_checkNode hmem
    rfl

/-! ## CAN -/

theorem isCanLength_iff {length : UInt32} :
    (isValidClassicCanLength length || isValidCanFdLength length) = true ↔ IsCanLength length := by
  have hle : length ≤ 8 ↔ length.toNat ≤ 8 := UInt32.le_iff_toNat_le
  rw [Bool.or_eq_true, isValidClassicCanLength, decide_eq_true_iff, isValidCanFdLength, IsCanLength, hle]
  simp only [canFdLengths, List.contains_iff_mem, List.mem_cons, List.not_mem_nil, or_false,
    ← UInt32.toNat_inj, UInt32.toNat_ofNat]
  omega

theorem checkPayloadLength_eq_nil {kind name : String} {length : UInt32} {span : RawSpan} :
    checkPayloadLength kind name length span = [] ↔ IsCanLength length := by
  rw [← isCanLength_iff, checkPayloadLength]
  split
  · rename_i h
    exact iff_of_true rfl h
  · rename_i h
    exact iff_of_false (List.cons_ne_nil _ _) h

/-- What a finding of the CAN checks is about: a payload length or a conflict over a bit. -/
inductive CanFinding : ValidationError → Prop where
  | length {kind name : String} {length : UInt32} {span : RawSpan} {err : ValidationError} :
      err ∈ checkPayloadLength kind name length span → CanFinding err
  | conflict (pdu : Pdu) (signalName : String) (conflict : ClaimArray.Conflict String) :
      CanFinding (conflictError pdu signalName conflict)

theorem CanFinding.severity_eq {err : ValidationError} (h : CanFinding err) : err.severity = .error := by
  cases h with
  | length hmem =>
    rw [checkPayloadLength] at hmem
    split at hmem
    · cases hmem
    · rw [List.mem_singleton.mp hmem]
  | conflict pdu signalName conflict => cases conflict <;> rfl

/-- The PDU's walks fit. -/
def PduFits (file : ParsedFile D) (pdu : Pdu) : Prop :=
  pdu.length ≠ 0 → ∀ placement ∈ placements pdu (signalTable file), placement.Visible → placement.Fits

/-- The PDU's part of the CAN specification. -/
def PduSound (file : ParsedFile D) (pdu : Pdu) : Prop :=
  IsCanLength pdu.length ∧ (pdu.length ≠ 0 → CleanLayout (8 * pdu.length.toNat)
    ((placements pdu (signalTable file)).filter fun placement => placement.Visible))

theorem validatePdu_of_fits {file : ParsedFile D} {pdu : Pdu} (h : PduFits file pdu) :
    ∃ findings, validatePdu (signalTable file) pdu = some findings ∧
      (∀ err ∈ findings, CanFinding err) ∧ (findings = [] ↔ PduSound file pdu) := by
  have hjoin {overlap : List ValidationError}
      (hoverlap : checkSignalOverlap pdu (signalTable file) = some overlap)
      (hfindings : ∀ err ∈ overlap, CanFinding err)
      (hclean : overlap = [] ↔ (pdu.length ≠ 0 → CleanLayout (8 * pdu.length.toNat)
        ((placements pdu (signalTable file)).filter fun placement => placement.Visible))) :
      ∃ findings, validatePdu (signalTable file) pdu = some findings ∧
        (∀ err ∈ findings, CanFinding err) ∧ (findings = [] ↔ PduSound file pdu) := by
    refine ⟨_, by rw [validatePdu, hoverlap]; rfl,
      List.forall_mem_append.mpr ⟨fun err herr => .length herr, hfindings⟩, ?_⟩
    rw [List.append_eq_nil_iff, checkPayloadLength_eq_nil, hclean]
    exact Iff.rfl
  by_cases hzero : pdu.length = 0
  · have hskipped : checkSignalOverlap pdu (signalTable file) = some [] :=
      if_pos (.inl (by rw [hzero]; rfl))
    exact hjoin hskipped (by simp) (iff_of_true rfl fun hne => absurd hzero hne)
  · have hfound := checkSignalOverlap_fits pdu (signalTable file) hzero (h hzero)
    obtain ⟨overlap, hoverlap, hnil⟩ := checkSignalOverlap_eq_nil pdu (signalTable file) hzero (h hzero)
    refine hjoin hoverlap (fun err herr => ?_) (hnil.trans ⟨fun hclean _ => hclean, fun hclean => hclean hzero⟩)
    rw [hoverlap] at hfound
    obtain rfl := Option.some.inj hfound
    obtain ⟨conflict, -, rfl⟩ := List.mem_map.mp herr
    exact .conflict _ _ _

theorem validatePdu_eq_none {file : ParsedFile D} {pdu : Pdu} (h : ¬ PduFits file pdu) :
    validatePdu (signalTable file) pdu = none := by
  simp only [PduFits, Classical.not_imp, Classical.not_forall] at h
  obtain ⟨hne, placement, hmem, hvisible, hfits⟩ := h
  rw [validatePdu, checkSignalOverlap_overflow pdu (signalTable file) hne ⟨placement, hmem, hvisible, hfits⟩]
  rfl

/-- A map that may fail fails exactly when it fails on an item. -/
theorem mapM_eq_none_iff {α β : Type} {f : α → Option β} {xs : List α} :
    xs.mapM f = none ↔ ∃ x ∈ xs, f x = none := by
  induction xs with
  | nil => simp
  | cons x xs ih =>
    rw [List.mapM_cons, List.exists_mem_cons_iff, ← ih]
    cases f x with
    | none => simp
    | some y => cases xs.mapM f <;> simp

theorem validateCanSemantics_eq_none (project : ParsedProject D) :
    validateCanSemantics project = none ↔ ¬ WalksFit project := by
  have hfile (file : ParsedFile D) : validateCanFile file = none ↔
      ∃ pdu ∈ file.pdus, ¬ PduFits file pdu := by
    have hpdus : validateCanFile file = none ↔ file.pdus.mapM (validatePdu (signalTable file)) = none := by
      rw [validateCanFile]
      cases file.pdus.mapM (validatePdu (signalTable file)) <;> simp
    rw [hpdus, mapM_eq_none_iff]
    refine exists_congr fun pdu => and_congr_right fun _ => ⟨fun hnone hfits => ?_, validatePdu_eq_none⟩
    obtain ⟨findings, hsome, -⟩ := validatePdu_of_fits hfits
    rw [hnone] at hsome
    cases hsome
  have hproject : validateCanSemantics project = none ↔ project.files.mapM validateCanFile = none := by
    rw [validateCanSemantics]
    cases project.files.mapM validateCanFile <;> simp
  rw [hproject, mapM_eq_none_iff]
  simp only [hfile, WalksFit, PduFits, Classical.not_forall, exists_prop]

theorem walksFit_of_some {project : ParsedProject D} {result : ValidationResult}
    (h : validateCanSemantics project = some result) : WalksFit project := by
  by_contra hnot
  rw [(validateCanSemantics_eq_none project).mpr hnot] at h
  cases h

/-- The findings of a PDU in a project whose checks are defined. -/
theorem validatePdu_of_some {project : ParsedProject D} {result : ValidationResult}
    (h : validateCanSemantics project = some result) {file : ParsedFile D} (hfile : file ∈ project.files)
    {pdu : Pdu} (hpdu : pdu ∈ file.pdus) :
    ∃ findings, validatePdu (signalTable file) pdu = some findings ∧
      (∀ err ∈ findings, CanFinding err) ∧ (findings = [] ↔ PduSound file pdu) :=
  validatePdu_of_fits fun hne => walksFit_of_some h file hfile pdu hpdu hne

theorem validateCanSemantics_findings {project : ParsedProject D} {result : ValidationResult}
    (h : validateCanSemantics project = some result) : ∀ err ∈ result.errors, CanFinding err := by
  rw [validateCanSemantics_errors h]
  intro err herr
  obtain ⟨file, hfile, hmem⟩ := List.mem_flatMap.mp herr
  rcases List.mem_append.mp hmem with hframe | hpdus
  · obtain ⟨frame, -, hframe⟩ := List.mem_flatMap.mp hframe
    exact .length hframe
  · obtain ⟨pdu, hpdu, hpdus⟩ := List.mem_flatMap.mp hpdus
    obtain ⟨findings, hsome, hfindings, -⟩ := validatePdu_of_some h hfile hpdu
    rw [hsome] at hpdus
    exact hfindings err hpdus

theorem validateCanSemantics_pass_iff {project : ParsedProject D} {result : ValidationResult}
    (h : validateCanSemantics project = some result) (mode : StrictMode) :
    (∀ err ∈ result.errors, ¬ err.severity.Counts mode) ↔
      ∀ file ∈ project.files, (∀ frame ∈ file.frames, IsCanLength frame.length) ∧
        ∀ pdu ∈ file.pdus, PduSound file pdu := by
  rw [errors_pass_iff fun err herr => (validateCanSemantics_findings h err herr).severity_eq,
    validateCanSemantics_errors h, List.flatMap_eq_nil_iff]
  refine forall₂_congr fun file hfile => ?_
  rw [List.append_eq_nil_iff, List.flatMap_eq_nil_iff, List.flatMap_eq_nil_iff]
  refine and_congr (forall₂_congr fun frame _ => checkPayloadLength_eq_nil)
    (forall₂_congr fun pdu hpdu => ?_)
  obtain ⟨findings, hsome, -, hnil⟩ := validatePdu_of_some h hfile hpdu
  rw [hsome]
  exact hnil

/-! ## The whole -/

theorem validateAll_eq (library : SchemaLibrary) (project : ParsedProject D)
    (sharedSchema : Option library.XmlSchema) :
    validateAll library project sharedSchema = (validateCanSemantics project).map fun can =>
      ⟨(project.files.flatMap fun file => (validateSchema library file sharedSchema).errors) ++
        (validateReferences project).errors ++ (validateUniqueness project).errors ++ can.errors⟩ := by
  have hfold : ∀ (files : List (ParsedFile D)) (combined : ValidationResult),
      files.foldl (fun combined file => combined.merge (validateSchema library file sharedSchema)) combined =
        ⟨combined.errors ++ files.flatMap fun file => (validateSchema library file sharedSchema).errors⟩ := by
    intro files
    induction files with
    | nil => intro combined; simp
    | cons file files ih =>
      intro combined
      rw [List.foldl_cons, ih, List.flatMap_cons, ValidationResult.merge, List.append_assoc]
  rw [validateAll, hfold]
  cases validateCanSemantics project <;> rfl

/-- **A project passes exactly when it meets every specification.** The validation is undefined
exactly when a walk over signal bits leaves the range of `int`. -/
theorem validateAll_verdict (library : SchemaLibrary) (project : ParsedProject D)
    (sharedSchema : Option library.XmlSchema) :
    (validateAll library project sharedSchema = none ↔ ¬ WalksFit project) ∧
      ∀ mode, (∃ result, validateAll library project sharedSchema = some result ∧
          overallPassed result mode = true) ↔
        WalksFit project ∧ SoundProject mode project ∧
          ∀ file ∈ project.files, SchemaSound library sharedSchema mode file := by
  rw [validateAll_eq, Option.map_eq_none_iff]
  refine ⟨validateCanSemantics_eq_none project, fun mode => ?_⟩
  have hsound : SoundProject mode project ↔
      (∀ err ∈ (validateReferences project).errors, ¬ err.severity.Counts mode) ∧
      (∀ err ∈ (validateUniqueness project).errors, ¬ err.severity.Counts mode) ∧
      ∀ file ∈ project.files, (∀ frame ∈ file.frames, IsCanLength frame.length) ∧
        ∀ pdu ∈ file.pdus, PduSound file pdu := by
    rw [validateReferences_pass_iff, validateUniqueness_pass_iff]
    constructor
    · intro h
      exact ⟨h.references, h.names, fun file hfile => ⟨(h.lengths file hfile).1, fun pdu hpdu =>
        ⟨(h.lengths file hfile).2 pdu hpdu, h.layouts file hfile pdu hpdu⟩⟩⟩
    · rintro ⟨hreferences, hnames, hcan⟩
      exact ⟨hreferences, hnames, fun file hfile => ⟨(hcan file hfile).1, fun pdu hpdu =>
        ((hcan file hfile).2 pdu hpdu).1⟩, fun file hfile pdu hpdu => ((hcan file hfile).2 pdu hpdu).2⟩
  have hschema : (∀ err ∈ project.files.flatMap fun file =>
      (validateSchema library file sharedSchema).errors, ¬ err.severity.Counts mode) ↔
        ∀ file ∈ project.files, SchemaSound library sharedSchema mode file := by
    simp only [← validateSchema_pass_iff, List.mem_flatMap]
    exact ⟨fun h file hfile err herr => h err ⟨file, hfile, herr⟩,
      fun h err ⟨file, hfile, herr⟩ => h file hfile err herr⟩
  cases hcan : validateCanSemantics project with
  | none =>
    have hnot := (validateCanSemantics_eq_none project).mp hcan
    simp [hnot]
  | some can =>
    have hfits := walksFit_of_some hcan
    simp only [Option.map_some, Option.some.injEq, exists_eq_left', overallPassed_iff,
      List.forall_mem_append, hschema, hsound, validateCanSemantics_pass_iff hcan, hfits, true_and]
    constructor
    · rintro ⟨⟨⟨hfiles, hreferences⟩, hnames⟩, hcan⟩
      exact ⟨⟨hreferences, hnames, hcan⟩, hfiles⟩
    · rintro ⟨⟨hreferences, hnames, hcan⟩, hfiles⟩
      exact ⟨⟨⟨hfiles, hreferences⟩, hnames⟩, hcan⟩

/-! ## The order of the files -/

theorem documentRoots_perm {project other : ParsedProject D} (h : project.files.Perm other.files) :
    (documentRoots project).Perm (documentRoots other) := h.filterMap _

theorem WrongReference.congr {project other : ParsedProject D} {node : RawNode}
    {finding : ValidationError}
    (hpath : ∀ target path, HasPath project target path ↔ HasPath other target path)
    (h : WrongReference project node finding) : WrongReference other node finding := by
  cases h with
  | dangling htag hdest hblank hnone =>
    exact .dangling htag hdest hblank fun target htarget => hnone target ((hpath _ _).mpr htarget)
  | unrecognized htag hdest hblank htarget hlookup =>
    exact .unrecognized htag hdest hblank ((hpath _ _).mp htarget) hlookup
  | mismatch htag hdest hblank htarget hlookup hmem =>
    exact .mismatch htag hdest hblank ((hpath _ _).mp htarget) hlookup hmem

/-- Without shared paths the verdict about a node does not depend on the order of the files. -/
theorem verdict_perm {project other : ParsedProject D} (h : project.files.Perm other.files)
    (hpaths : ((namedNodes project).map Prod.fst).Nodup) (node : RawNode) :
    verdict project node = verdict other node := by
  have hnamed : (namedNodes project).Perm (namedNodes other) := (documentRoots_perm h).flatMap_right _
  have hother : ((namedNodes other).map Prod.fst).Nodup := ((hnamed.map Prod.fst).nodup_iff).mp hpaths
  have hpath (target : RawNode) (path : String) : HasPath project target path ↔ HasPath other target path := by
    rw [← mem_namedNodes, ← mem_namedNodes, hnamed.mem_iff]
  refine Option.ext fun finding => ?_
  rw [verdict_iff hpaths, verdict_iff hother]
  exact ⟨WrongReference.congr hpath, WrongReference.congr fun target path => (hpath target path).symm⟩

theorem validateCanSemantics_perm {project other : ParsedProject D}
    (h : project.files.Perm other.files) {can : ValidationResult}
    (hcan : validateCanSemantics project = some can) :
    ∃ can', validateCanSemantics other = some can' ∧ can.errors.Perm can'.errors := by
  cases hother : validateCanSemantics other with
  | none =>
    exact absurd (fun file hfile => walksFit_of_some hcan file (h.mem_iff.mpr hfile))
      ((validateCanSemantics_eq_none other).mp hother)
  | some can' =>
    refine ⟨can', rfl, ?_⟩
    rw [validateCanSemantics_errors hcan, validateCanSemantics_errors hother]
    exact h.flatMap_right _

/-- **The order of the files decides nothing but the order of the findings**, when no two nodes
share a path. -/
theorem validateAll_perm (library : SchemaLibrary) {project other : ParsedProject D}
    (sharedSchema : Option library.XmlSchema) (h : project.files.Perm other.files)
    (hpaths : ((namedNodes project).map Prod.fst).Nodup) {result : ValidationResult}
    (hresult : validateAll library project sharedSchema = some result) :
    ∃ result', validateAll library other sharedSchema = some result' ∧
      result.errors.Perm result'.errors ∧
      ∀ mode, overallPassed result mode = overallPassed result' mode := by
  rw [validateAll_eq] at hresult
  obtain ⟨can, hcan, rfl⟩ := Option.map_eq_some_iff.mp hresult
  obtain ⟨can', hcan', hperm⟩ := validateCanSemantics_perm h hcan
  have hroots := documentRoots_perm h
  have hreferences : (validateReferences project).errors.Perm (validateReferences other).errors := by
    rw [validateReferences_eq, validateReferences_eq, funext (verdict_perm h hpaths)]
    exact (hroots.flatMap_right _).filterMap _
  have huniqueness : (validateUniqueness project).errors.Perm (validateUniqueness other).errors :=
    h.flatMap_right _
  have herrors := ((((h.flatMap_right fun file =>
    (validateSchema library file sharedSchema).errors).append hreferences).append huniqueness).append hperm)
  refine ⟨_, by rw [validateAll_eq, hcan']; rfl, herrors, fun mode => ?_⟩
  rw [Bool.eq_iff_iff, overallPassed_iff, overallPassed_iff]
  exact forall_congr' fun err => imp_congr_left herrors.mem_iff

end

/-- A library with one schema that every document meets. -/
def acceptingLibrary : SchemaLibrary where
  XmlSchema := Unit
  XmlDoc := Unit
  newValidCtxt _ := true
  readFile _ := some ()
  validateDoc _ _ := ([], 0)

theorem validateAll_perm_references :
    ∃ result result', validateAll acceptingLibrary projectOfReferences (some ()) = some result ∧
      validateAll acceptingLibrary ⟨projectOfReferences.files.reverse, ∅⟩ (some ()) = some result' ∧
      result.errors.Perm result'.errors ∧
      ∀ mode, overallPassed result mode = overallPassed result' mode := by
  have hsome : (validateAll acceptingLibrary projectOfReferences (some ())).isSome = true := by
    decide +kernel
  obtain ⟨result, hresult⟩ := Option.isSome_iff_exists.mp hsome
  have hperm : projectOfReferences.files.Perm
      (ParsedProject.mk projectOfReferences.files.reverse ∅).files := (List.reverse_perm _).symm
  obtain ⟨result', h⟩ :=
    validateAll_perm acceptingLibrary (some ()) hperm (by decide +kernel) hresult
  exact ⟨result, result', hresult, h⟩

end ParseX

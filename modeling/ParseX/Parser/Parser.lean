import ParseX.Parser.ModelBuilder

/-! # Files from raw documents

`buildSubtree`, the release table and the part of `parseFile` and `parseBytes`
after the loader. -/
namespace ParseX
open Cpp

section
variable {D : Type} [Double D]

/-- The part of `buildSubtree` about the node itself. -/
def buildNode (node : RawNode) (file : ParsedFile D) : ParsedFile D :=
  let tag := node.tagName
  if tag == "CLUSTER" || tag == "CAN-CLUSTER" then
    let (cluster, warnings) := buildCluster node
    { file with clusters := file.clusters ++ [cluster], warnings := file.warnings ++ warnings }
  else if tag == "ECU-INSTANCE" then
    let (ecu, warnings) := buildEcuInstance node
    { file with ecuInstances := file.ecuInstances ++ [ecu], warnings := file.warnings ++ warnings }
  else if tag == "FRAME" || tag == "CAN-FRAME" then
    let (frame, warnings) := buildFrame node
    { file with frames := file.frames ++ [frame], warnings := file.warnings ++ warnings }
  else if tag == "PDU" || tag == "I-SIGNAL-I-PDU" then
    let (pdu, warnings) := buildPdu node
    { file with pdus := file.pdus ++ [pdu], warnings := file.warnings ++ warnings }
  else if tag == "SYSTEM-SIGNAL" || tag == "I-SIGNAL" then
    let (signal, warnings) := buildSignal node
    { file with signals := file.signals ++ [signal], warnings := file.warnings ++ warnings }
  else if tag == "SIGNAL-GROUP" || tag == "I-SIGNAL-GROUP" then
    let (group, warnings) := buildSignalGroup node
    { file with signalGroups := file.signalGroups ++ [group], warnings := file.warnings ++ warnings }
  else file

mutual

/-- `buildSubtree`: the node, then its children. -/
def buildSubtree (node : RawNode) (file : ParsedFile D) : ParsedFile D :=
  match node with
  | ⟨tagName, attributes, text, span, children⟩ =>
    buildSubtrees children (buildNode ⟨tagName, attributes, text, span, children⟩ file)

def buildSubtrees (children : List RawNode) (file : ParsedFile D) : ParsedFile D :=
  match children with
  | [] => file
  | child :: rest => buildSubtrees rest (buildSubtree child file)

end

end

/-! ## Releases -/

/-- The second token of `xsi:schemaLocation`, the value split at blanks. -/
def detectSchemaFilename (root : RawNode) : Option String :=
  match root.attributes.find? fun attr => attr.1 == "xsi:schemaLocation" with
  | none => none
  | some (_, location) =>
    let first := location.toList.dropWhile isBlank
    let second := (first.dropWhile fun c => !isBlank c).dropWhile isBlank
    if second.isEmpty then none else some (String.ofList (second.takeWhile fun c => !isBlank c))

/-- `schemaFilenameTable`. -/
def schemaFilenameTable : List (String × String) :=
  [("AUTOSAR_4-2-2.xsd", "4.2.2"), ("AUTOSAR_4-3-0.xsd", "4.3.0"), ("AUTOSAR_00044.xsd", "4.3.1"),
    ("AUTOSAR_00046.xsd", "4.4.0"), ("AUTOSAR_00048.xsd", "R19-11"),
    ("AUTOSAR_00049.xsd", "R20-11"), ("AUTOSAR_00050.xsd", "R21-11")]

/-- What `parseFile` throws after the loader. -/
inductive ParseFailure where
  | noSchemaLocation (path : String)
  | unsupportedRelease (schemaFilename : String)
  deriving DecidableEq, Repr

def resolveRelease (schemaFilename : String) : Except ParseFailure String :=
  match schemaFilenameTable.lookup schemaFilename with
  | some release => .ok release
  | none => .error (.unsupportedRelease schemaFilename)

/-- `parseFile` and `parseBytes` on the document the loader returned. -/
def parseDocument {D : Type} [Double D] (path : String) (root : RawNode) :
    Except ParseFailure (ParsedFile D) :=
  match detectSchemaFilename root with
  | none => .error (.noSchemaLocation path)
  | some schemaFilename =>
    match resolveRelease schemaFilename with
    | .error failure => .error failure
    | .ok release => .ok { buildSubtree root { autosarRelease := release, sourcePath := path } with
        rawDocument := some root }

/-! ## What a parsed file holds -/

def isClusterTag (tag : String) : Bool := tag == "CLUSTER" || tag == "CAN-CLUSTER"
def isEcuTag (tag : String) : Bool := tag == "ECU-INSTANCE"
def isFrameTag (tag : String) : Bool := tag == "FRAME" || tag == "CAN-FRAME"
def isPduTag (tag : String) : Bool := tag == "PDU" || tag == "I-SIGNAL-I-PDU"
def isSignalTag (tag : String) : Bool := tag == "SYSTEM-SIGNAL" || tag == "I-SIGNAL"
def isSignalGroupTag (tag : String) : Bool := tag == "SIGNAL-GROUP" || tag == "I-SIGNAL-GROUP"

/-- The nodes of a tree with a tag of the family. -/
def nodesOfFamily (root : RawNode) (family : String → Bool) : List RawNode :=
  root.nodes.filter fun node => family node.tagName

section
variable {D : Type} [Double D]

theorem buildSubtrees_eq (children : List RawNode) : ∀ file : ParsedFile D,
    buildSubtrees children file = children.foldl (fun file child => buildSubtree child file) file := by
  induction children with
  | nil => intro file; rfl
  | cons child rest ih => intro file; rw [buildSubtrees, ih, List.foldl_cons]

/-- `buildSubtree` visits the nodes in document order. -/
theorem buildSubtree_eq (node : RawNode) : ∀ file : ParsedFile D,
    buildSubtree node file = node.nodes.foldl (fun file node => buildNode node file) file := by
  induction node using RawNode.induction with
  | step node ih =>
    intro file
    have hchildren : ∀ children : List RawNode, (∀ child ∈ children, child ∈ node.children) →
        ∀ file : ParsedFile D, children.foldl (fun file child => buildSubtree child file) file =
          (children.flatMap RawNode.nodes).foldl (fun file node => buildNode node file) file := by
      intro children
      induction children with
      | nil => intro _ file; rfl
      | cons child rest ihr =>
        intro hsub file
        obtain ⟨hchild, hrest⟩ := List.forall_mem_cons.mp hsub
        rw [List.foldl_cons, ih child hchild, ihr hrest, List.flatMap_cons, List.foldl_append]
    rw [RawNode.nodes_eq, List.foldl_cons, ← hchildren node.children (fun _ h => h)]
    cases node
    rw [buildSubtree, buildSubtrees_eq]

/-- A vector that every node of one family appends to. -/
theorem buildSubtree_member {T : Type} {member : ParsedFile D → List T} {family : String → Bool}
    {build : RawNode → T}
    (hstep : ∀ (node : RawNode) (file : ParsedFile D), member (buildNode node file) =
      member file ++ if family node.tagName then [build node] else [])
    (root : RawNode) (file : ParsedFile D) :
    member (buildSubtree root file) =
      member file ++ (nodesOfFamily root family).map build := by
  rw [buildSubtree_eq, nodesOfFamily]
  generalize root.nodes = nodes
  induction nodes generalizing file with
  | nil => simp
  | cons node nodes ih =>
    rw [List.foldl_cons, ih, hstep, List.append_assoc]
    cases h : family node.tagName with
    | true => simp [h]
    | false => simp [h]

theorem buildNode_clusters (node : RawNode) (file : ParsedFile D) : (buildNode node file).clusters =
    file.clusters ++ if isClusterTag node.tagName then [(buildCluster node).1] else [] := by
  unfold buildNode isClusterTag
  dsimp only
  split_ifs <;> grind

theorem buildNode_ecuInstances (node : RawNode) (file : ParsedFile D) : (buildNode node file).ecuInstances =
    file.ecuInstances ++ if isEcuTag node.tagName then [(buildEcuInstance node).1] else [] := by
  unfold buildNode isEcuTag
  dsimp only
  split_ifs <;> grind

theorem buildNode_frames (node : RawNode) (file : ParsedFile D) : (buildNode node file).frames =
    file.frames ++ if isFrameTag node.tagName then [(buildFrame node).1] else [] := by
  unfold buildNode isFrameTag
  dsimp only
  split_ifs <;> grind

theorem buildNode_pdus (node : RawNode) (file : ParsedFile D) : (buildNode node file).pdus =
    file.pdus ++ if isPduTag node.tagName then [(buildPdu node).1] else [] := by
  unfold buildNode isPduTag
  dsimp only
  split_ifs <;> grind

theorem buildNode_signals (node : RawNode) (file : ParsedFile D) : (buildNode node file).signals =
    file.signals ++ if isSignalTag node.tagName then [(buildSignal node).1] else [] := by
  unfold buildNode isSignalTag
  dsimp only
  split_ifs <;> grind

theorem buildNode_signalGroups (node : RawNode) (file : ParsedFile D) : (buildNode node file).signalGroups =
    file.signalGroups ++ if isSignalGroupTag node.tagName then [(buildSignalGroup node).1] else [] := by
  unfold buildNode isSignalGroupTag
  dsimp only
  split_ifs <;> grind

/-- The elements of a file are those of a tree, in document order. -/
structure BuiltFrom (root : RawNode) (file : ParsedFile D) : Prop where
  clusters : file.clusters = (nodesOfFamily root isClusterTag).map fun node => (buildCluster node).1
  ecuInstances : file.ecuInstances =
    (nodesOfFamily root isEcuTag).map fun node => (buildEcuInstance node).1
  frames : file.frames = (nodesOfFamily root isFrameTag).map fun node => (buildFrame node).1
  pdus : file.pdus = (nodesOfFamily root isPduTag).map fun node => (buildPdu node).1
  signals : file.signals = (nodesOfFamily root isSignalTag).map fun node => (buildSignal node).1
  signalGroups : file.signalGroups =
    (nodesOfFamily root isSignalGroupTag).map fun node => (buildSignalGroup node).1

theorem buildSubtree_builtFrom (root : RawNode) (release path : String) :
    BuiltFrom root (buildSubtree root ({ autosarRelease := release, sourcePath := path } :
      ParsedFile D)) where
  clusters := buildSubtree_member buildNode_clusters root _
  ecuInstances := buildSubtree_member buildNode_ecuInstances root _
  frames := buildSubtree_member buildNode_frames root _
  pdus := buildSubtree_member buildNode_pdus root _
  signals := buildSubtree_member buildNode_signals root _
  signalGroups := buildSubtree_member buildNode_signalGroups root _

/-- What the parser returns is built from the document it keeps. -/
theorem parseDocument_ok {path : String} {root : RawNode} {file : ParsedFile D}
    (h : parseDocument path root = .ok file) :
    file.rawDocument = some root ∧ BuiltFrom root file := by
  unfold parseDocument at h
  cases hschema : detectSchemaFilename root with
  | none => rw [hschema] at h; cases h
  | some schemaFilename =>
    cases hrelease : resolveRelease schemaFilename with
    | error failure => simp [hschema, hrelease] at h
    | ok release =>
      simp only [hschema, hrelease, Except.ok.injEq] at h
      subst h
      obtain ⟨h1, h2, h3, h4, h5, h6⟩ := @buildSubtree_builtFrom D _ root release path
      exact ⟨rfl, h1, h2, h3, h4, h5, h6⟩

/-- An output of the parser. -/
def ParserOutput (file : ParsedFile D) : Prop :=
  ∃ path root, parseDocument path root = .ok file

/-- An element of a parsed project was built from a node. -/
theorem exists_build {project : ParsedProject D} {T : Type} {member : ParsedFile D → List T} {family : String → Bool}
    {build : RawNode → T}
    (hmember : ∀ root file, @BuiltFrom D _ root file →
      member file = (nodesOfFamily root family).map build)
    (hparsed : ∀ file ∈ project.files, ParserOutput file) {x : T}
    (hx : x ∈ collectAll project member) : ∃ node, x = build node := by
  obtain ⟨file, hfile, hx⟩ := List.mem_flatMap.mp hx
  obtain ⟨path, root, hroot⟩ := hparsed file hfile
  rw [hmember root file (parseDocument_ok hroot).2] at hx
  obtain ⟨node, -, rfl⟩ := List.mem_map.mp hx
  exact ⟨node, rfl⟩

/-- The file that a document gives, if any, is an output of the parser. -/
theorem parserOutput_of_document {path : String} {root : RawNode} {file : ParsedFile D}
    (h : file ∈ (parseDocument path root).toOption.toList) : ParserOutput file := by
  refine ⟨path, root, ?_⟩
  rw [Option.mem_toList] at h
  cases hparse : (parseDocument path root : Except _ (ParsedFile D)) with
  | error failure => rw [hparse] at h; cases h
  | ok parsed => rw [hparse] at h; cases h; rfl

end

end ParseX

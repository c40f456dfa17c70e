import ParseX.Parser.Parser
import ParseX.Raw.Relocation

/-! # What the builders read of offsets

The builders copy the spans of a tree and read nothing of them: a tree with its offsets elsewhere
gives the same file with its offsets elsewhere. -/
namespace ParseX
open Cpp

variable {D : Type} [Double D] {place : Nat → Nat}

/-! ## Searches -/

@[simp] theorem RawNode.relocate_tagName (node : RawNode) :
    (node.relocate place).tagName = node.tagName := by
  rw [RawNode.relocate_eq]

@[simp] theorem RawNode.relocate_attributes (node : RawNode) :
    (node.relocate place).attributes = node.attributes := by
  rw [RawNode.relocate_eq]

@[simp] theorem RawNode.relocate_text (node : RawNode) : (node.relocate place).text = node.text := by
  rw [RawNode.relocate_eq]

@[simp] theorem RawNode.relocate_span (node : RawNode) :
    (node.relocate place).span = node.span.relocate place := by
  rw [RawNode.relocate_eq]

@[simp] theorem RawNode.relocate_children (node : RawNode) :
    (node.relocate place).children = node.children.map (RawNode.relocate place) := by
  rw [RawNode.relocate_eq]

theorem nodes_relocate (node : RawNode) :
    (node.relocate place).nodes = node.nodes.map (RawNode.relocate place) := by
  induction node using RawNode.induction with
  | step node ih =>
    rw [RawNode.nodes_eq, RawNode.nodes_eq node, RawNode.relocate_children, List.map_cons,
      List.flatMap_map, List.map_flatMap]
    congr 1
    exact List.flatMap_congr ih

@[simp] theorem findChild_relocate (node : RawNode) (tag : String) :
    findChild (node.relocate place) tag = (findChild node tag).map (RawNode.relocate place) := by
  simp only [findChild, RawNode.relocate_children, List.find?_map, Function.comp_def,
    RawNode.relocate_tagName]

@[simp] theorem childText_relocate (node : RawNode) (tag : String) :
    childText (node.relocate place) tag = childText node tag := by
  simp only [childText, findChild_relocate, Option.map_map, Function.comp_def, RawNode.relocate_text]

@[simp] theorem findDescendants_relocate (node : RawNode) (tag : String) :
    findDescendants (node.relocate place) tag =
      (findDescendants node tag).map (RawNode.relocate place) := by
  unfold findDescendants
  induction node using RawNode.induction with
  | step node ih =>
    rw [collectDescendants_eq, collectDescendants_eq tag node, RawNode.relocate_children,
      List.flatMap_map, List.map_flatMap]
    apply List.flatMap_congr
    intro child hchild
    rw [ih child hchild, List.map_append, RawNode.relocate_tagName]
    split <;> rfl

@[simp] theorem findDescendant_relocate (node : RawNode) (tag : String) :
    findDescendant (node.relocate place) tag =
      (findDescendant node tag).map (RawNode.relocate place) := by
  rw [findDescendant, findDescendants_relocate, List.head?_map]
  rfl

/-! ## Readers -/

@[simp] theorem childUint32_relocate (node : RawNode) (tag : String) (fallback : UInt32) :
    childUint32 (node.relocate place) tag fallback = childUint32 node tag fallback := by
  rw [childUint32, childText_relocate]
  rfl

@[simp] theorem refShortNames_relocate (node : RawNode) (refTag : String) :
    refShortNames (node.relocate place) refTag = refShortNames node refTag := by
  simp only [refShortNames, findDescendants_relocate, List.map_map, Function.comp_def,
    RawNode.relocate_text]

@[simp] theorem directShortNames_relocate (nodes : List RawNode) :
    directShortNames (nodes.map (RawNode.relocate place)) = directShortNames nodes := by
  simp only [directShortNames, List.filterMap_map, Function.comp_def, childText_relocate]

@[simp] theorem baudrateText_relocate (node : RawNode) :
    baudrateText (node.relocate place) = baudrateText node := by
  simp only [baudrateText, childText_relocate, findDescendant_relocate, Option.map_map,
    Function.comp_def, RawNode.relocate_text]

@[simp] theorem buildFramePduMapping_relocate (mapping : RawNode) :
    buildFramePduMapping (mapping.relocate place) = buildFramePduMapping mapping := by
  simp only [buildFramePduMapping, childText_relocate, childUint32_relocate]

@[simp] theorem buildPduSignalMapping_relocate (mapping : RawNode) :
    buildPduSignalMapping (mapping.relocate place) = buildPduSignalMapping mapping := by
  simp only [buildPduSignalMapping, childText_relocate, childUint32_relocate]

@[simp] theorem buildValueTableEntry_relocate (child : RawNode) :
    buildValueTableEntry (child.relocate place) = buildValueTableEntry child := by
  simp only [buildValueTableEntry, childText_relocate]

/-! ## Builders -/

section
variable (place)

def CommonFields.relocate (common : CommonFields) : CommonFields :=
  { common with rawSpanRef := common.rawSpanRef.relocate place }

def Cluster.relocate (cluster : Cluster) : Cluster :=
  { cluster with common := cluster.common.relocate place }

def EcuInstance.relocate (ecu : EcuInstance) : EcuInstance :=
  { ecu with common := ecu.common.relocate place }

def Frame.relocate (frame : Frame) : Frame := { frame with common := frame.common.relocate place }

def Pdu.relocate (pdu : Pdu) : Pdu := { pdu with common := pdu.common.relocate place }

def Signal.relocate (signal : Signal D) : Signal D :=
  { signal with common := signal.common.relocate place }

def SignalGroup.relocate (group : SignalGroup) : SignalGroup :=
  { group with common := group.common.relocate place }

def Warning.relocate (warning : Warning) : Warning :=
  { warning with location := warning.location.map (RawSpan.relocate place) }

/-- The file with its offsets elsewhere, on the same lines. -/
def ParsedFile.relocate (file : ParsedFile D) : ParsedFile D where
  autosarRelease := file.autosarRelease
  sourcePath := file.sourcePath
  clusters := file.clusters.map (Cluster.relocate place)
  ecuInstances := file.ecuInstances.map (EcuInstance.relocate place)
  frames := file.frames.map (Frame.relocate place)
  pdus := file.pdus.map (Pdu.relocate place)
  signals := file.signals.map (Signal.relocate place)
  signalGroups := file.signalGroups.map (SignalGroup.relocate place)
  warnings := file.warnings.map (Warning.relocate place)
  rawDocument := file.rawDocument.map (RawNode.relocate place)

end

@[simp] theorem warnMissing_relocate (missing : Bool) (message : String) (span : RawSpan) :
    warnMissing missing message (span.relocate place) =
      (warnMissing missing message span).map (Warning.relocate place) := by
  rw [warnMissing, warnMissing]
  split <;> rfl

/-- What a builder returns, with its offsets elsewhere. -/
def relocateBuilt {T : Type} (move : T → T) (place : Nat → Nat) (built : T × List Warning) :
    T × List Warning :=
  (move built.1, built.2.map (Warning.relocate place))

theorem populateCommonFields_relocate (node : RawNode) : populateCommonFields (node.relocate place) =
    relocateBuilt (CommonFields.relocate place) place (populateCommonFields node) := by
  have hname : extractShortName (node.relocate place) = extractShortName node := by
    rw [extractShortName, childText_relocate, extractShortName]
  simp only [populateCommonFields, relocateBuilt, hname, childText_relocate, RawNode.relocate_span,
    RawNode.relocate_tagName, CommonFields.relocate]
  split <;> rfl

@[simp] theorem CommonFields.relocate_shortName (common : CommonFields) :
    (common.relocate place).shortName = common.shortName := rfl

theorem buildCluster_relocate (node : RawNode) : buildCluster (node.relocate place) =
    relocateBuilt (Cluster.relocate place) place (buildCluster node) := by
  simp only [buildCluster, relocateBuilt, Cluster.relocate, populateCommonFields_relocate,
    baudrateText_relocate, channelShortNames, findDescendants_relocate, directShortNames_relocate,
    RawNode.relocate_span, warnMissing_relocate, List.map_append, CommonFields.relocate_shortName]

theorem buildEcuInstance_relocate (node : RawNode) : buildEcuInstance (node.relocate place) =
    relocateBuilt (EcuInstance.relocate place) place (buildEcuInstance node) := by
  simp only [buildEcuInstance, relocateBuilt, EcuInstance.relocate, populateCommonFields_relocate,
    refShortNames_relocate, controllerShortNames, findDescendants_relocate, directShortNames_relocate,
    RawNode.relocate_span, warnMissing_relocate, List.map_append, CommonFields.relocate_shortName]

theorem buildFrame_relocate (node : RawNode) : buildFrame (node.relocate place) =
    relocateBuilt (Frame.relocate place) place (buildFrame node) := by
  simp only [buildFrame, relocateBuilt, Frame.relocate, populateCommonFields_relocate,
    childUint32_relocate, findChild_relocate, Option.isSome_map, refShortNames_relocate,
    findDescendants_relocate, ← List.map_append, List.map_map, Function.comp_def,
    buildFramePduMapping_relocate, RawNode.relocate_span, warnMissing_relocate,
    CommonFields.relocate_shortName]

theorem buildPdu_relocate (node : RawNode) : buildPdu (node.relocate place) =
    relocateBuilt (Pdu.relocate place) place (buildPdu node) := by
  simp only [buildPdu, relocateBuilt, Pdu.relocate, signalMappingNodes, populateCommonFields_relocate,
    childUint32_relocate, findChild_relocate, Option.isNone_map, findDescendants_relocate,
    ← List.map_append, List.map_map, Function.comp_def, buildPduSignalMapping_relocate,
    RawNode.relocate_span, warnMissing_relocate, CommonFields.relocate_shortName]

theorem buildSignal_relocate (node : RawNode) : (buildSignal (node.relocate place) : Signal D × _) =
    relocateBuilt (Signal.relocate place) place (buildSignal node) := by
  simp only [buildSignal, relocateBuilt, Signal.relocate, populateCommonFields_relocate,
    childUint32_relocate, childText_relocate, findDescendant_relocate, findChild_relocate,
    refShortNames_relocate, Option.map_map, Option.bind_map, Option.isNone_map, Function.comp_def,
    RawNode.relocate_text, RawNode.relocate_children, List.filter_map, List.map_map,
    RawNode.relocate_tagName, buildValueTableEntry_relocate, RawNode.relocate_span,
    warnMissing_relocate, List.map_append, CommonFields.relocate_shortName]

theorem buildSignalGroup_relocate (node : RawNode) : buildSignalGroup (node.relocate place) =
    relocateBuilt (SignalGroup.relocate place) place (buildSignalGroup node) := by
  simp only [buildSignalGroup, relocateBuilt, SignalGroup.relocate, populateCommonFields_relocate,
    refShortNames_relocate, RawNode.relocate_span, warnMissing_relocate, List.map_append,
    CommonFields.relocate_shortName]

/-! ## Files -/

theorem buildNode_relocate (node : RawNode) (file : ParsedFile D) :
    buildNode (node.relocate place) (file.relocate place) = (buildNode node file).relocate place := by
  unfold buildNode
  rw [RawNode.relocate_tagName, buildCluster_relocate, buildEcuInstance_relocate, buildFrame_relocate,
    buildPdu_relocate, buildSignal_relocate, buildSignalGroup_relocate]
  dsimp only
  split_ifs <;> simp [ParsedFile.relocate, relocateBuilt]

theorem buildSubtree_relocate (root : RawNode) (file : ParsedFile D) :
    buildSubtree (root.relocate place) (file.relocate place) =
      (buildSubtree root file).relocate place := by
  rw [buildSubtree_eq, buildSubtree_eq, nodes_relocate]
  induction root.nodes generalizing file with
  | nil => rfl
  | cons node nodes ih => rw [List.map_cons, List.foldl_cons, List.foldl_cons, buildNode_relocate, ih]

/-- The release is read from the attributes alone. -/
theorem parseDocument_relocate (path : String) (root : RawNode) :
    (parseDocument path (root.relocate place) : Except ParseFailure (ParsedFile D)) =
      (parseDocument path root).map (ParsedFile.relocate place) := by
  have hschema : detectSchemaFilename (root.relocate place) = detectSchemaFilename root := by
    unfold detectSchemaFilename
    rw [RawNode.relocate_attributes]
  rw [parseDocument, parseDocument, hschema]
  cases detectSchemaFilename root with
  | none => rfl
  | some schemaFilename =>
    dsimp only
    cases resolveRelease schemaFilename with
    | error failure => rfl
    | ok release =>
      have hbuilt := @buildSubtree_relocate D _ place root { autosarRelease := release, sourcePath := path }
      exact congrArg (fun file => Except.ok { file with rawDocument := some (root.relocate place) }) hbuilt

end ParseX

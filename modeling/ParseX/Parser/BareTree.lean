import ParseX.Parser.Parser

/-! # What the builders read of a tree

A bare tree has no spans, no attributes and trimmed texts. The builders read a
tree and its bare form alike, up to the spans they copy. -/
namespace ParseX
open Cpp

/-! ## Bare trees -/

mutual

/-- The tree without spans and attributes, every text trimmed. -/
def RawNode.bare (node : RawNode) : RawNode :=
  match node with
  | ⟨tagName, _, text, _, children⟩ => ⟨tagName, [], trimText text, {}, bareOf children⟩

def bareOf (children : List RawNode) : List RawNode :=
  match children with
  | [] => []
  | child :: rest => child.bare :: bareOf rest

end

theorem bareOf_eq (children : List RawNode) : bareOf children = children.map RawNode.bare := by
  induction children with
  | nil => rfl
  | cons child rest ih => rw [bareOf, ih, List.map_cons]

theorem RawNode.bare_eq (node : RawNode) : node.bare =
    ⟨node.tagName, [], trimText node.text, {}, node.children.map RawNode.bare⟩ := by
  rw [← bareOf_eq]
  cases node
  rfl

@[simp] theorem RawNode.bare_tagName (node : RawNode) : node.bare.tagName = node.tagName := by
  rw [RawNode.bare_eq]

@[simp] theorem RawNode.bare_text (node : RawNode) : node.bare.text = trimText node.text := by
  rw [RawNode.bare_eq]

@[simp] theorem RawNode.bare_span (node : RawNode) : node.bare.span = {} := by
  rw [RawNode.bare_eq]

@[simp] theorem RawNode.bare_children (node : RawNode) :
    node.bare.children = node.children.map RawNode.bare := by
  rw [RawNode.bare_eq]

@[simp] theorem trimText_trimText (text : String) : trimText (trimText text) = trimText text :=
  isTrimmed_trimText text

@[simp] theorem shortNameOfRef_trimText (text : String) :
    shortNameOfRef (trimText text) = shortNameOfRef text := by
  unfold shortNameOfRef
  rw [trimText_trimText]

@[simp] theorem parseInteger_trimText (text : String) :
    parseInteger (trimText text) = parseInteger text := by
  unfold parseInteger
  rw [trimText_trimText]

@[simp] theorem parseDouble_trimText {D : Type} [Double D] (text : String) :
    (parseDouble (trimText text) : Option D) = parseDouble text := by
  unfold parseDouble
  rw [trimText_trimText]

@[simp] theorem isSignedBaseType_trimText (text : String) :
    isSignedBaseType (trimText text) = isSignedBaseType text := by
  unfold isSignedBaseType
  rw [shortNameOfRef_trimText]

/-! ## Searches -/

theorem nodes_bare (node : RawNode) : node.bare.nodes = node.nodes.map RawNode.bare := by
  induction node using RawNode.induction with
  | step node ih =>
    rw [RawNode.nodes_eq, RawNode.nodes_eq node, RawNode.bare_children, List.map_cons,
      List.flatMap_map, List.map_flatMap]
    congr 1
    exact List.flatMap_congr ih

@[simp] theorem findChild_bare (node : RawNode) (tag : String) :
    findChild node.bare tag = (findChild node tag).map RawNode.bare := by
  simp only [findChild, RawNode.bare_children, List.find?_map, Function.comp_def,
    RawNode.bare_tagName]

@[simp] theorem childText_bare (node : RawNode) (tag : String) :
    childText node.bare tag = childText node tag := by
  simp only [childText, findChild_bare, Option.map_map, Function.comp_def, RawNode.bare_text,
    trimText_trimText]

@[simp] theorem findDescendants_bare (node : RawNode) (tag : String) :
    findDescendants node.bare tag = (findDescendants node tag).map RawNode.bare := by
  unfold findDescendants
  induction node using RawNode.induction with
  | step node ih =>
    rw [collectDescendants_eq, collectDescendants_eq tag node, RawNode.bare_children,
      List.flatMap_map, List.map_flatMap]
    apply List.flatMap_congr
    intro child hchild
    rw [ih child hchild, List.map_append, RawNode.bare_tagName]
    split <;> rfl

@[simp] theorem findDescendant_bare (node : RawNode) (tag : String) :
    findDescendant node.bare tag = (findDescendant node tag).map RawNode.bare := by
  rw [findDescendant, findDescendants_bare, List.head?_map]
  rfl

theorem nodesOfFamily_bare (root : RawNode) (family : String → Bool) :
    nodesOfFamily root.bare family = (nodesOfFamily root family).map RawNode.bare := by
  rw [nodesOfFamily, nodes_bare, List.filter_map]
  simp only [Function.comp_def, RawNode.bare_tagName]
  rfl

/-! ## Readers -/

@[simp] theorem childUint32_bare (node : RawNode) (tag : String) (fallback : UInt32) :
    childUint32 node.bare tag fallback = childUint32 node tag fallback := by
  rw [childUint32, childText_bare]
  rfl

@[simp] theorem refShortNames_bare (node : RawNode) (refTag : String) :
    refShortNames node.bare refTag = refShortNames node refTag := by
  simp only [refShortNames, findDescendants_bare, List.map_map, Function.comp_def,
    RawNode.bare_text, shortNameOfRef_trimText]

@[simp] theorem directShortNames_bare (nodes : List RawNode) :
    directShortNames (nodes.map RawNode.bare) = directShortNames nodes := by
  simp only [directShortNames, List.filterMap_map, Function.comp_def, childText_bare]

@[simp] theorem baudrateText_bare (node : RawNode) : baudrateText node.bare = baudrateText node := by
  simp only [baudrateText, childText_bare, findDescendant_bare, Option.map_map, Function.comp_def,
    RawNode.bare_text, trimText_trimText]

@[simp] theorem buildFramePduMapping_bare (mapping : RawNode) :
    buildFramePduMapping mapping.bare = buildFramePduMapping mapping := by
  simp only [buildFramePduMapping, childText_bare, childUint32_bare]

@[simp] theorem buildPduSignalMapping_bare (mapping : RawNode) :
    buildPduSignalMapping mapping.bare = buildPduSignalMapping mapping := by
  simp only [buildPduSignalMapping, childText_bare, childUint32_bare]

@[simp] theorem buildValueTableEntry_bare (child : RawNode) :
    buildValueTableEntry child.bare = buildValueTableEntry child := by
  simp only [buildValueTableEntry, childText_bare]

/-! ## Builders -/

def CommonFields.bare (common : CommonFields) : CommonFields := { common with rawSpanRef := {} }
def Cluster.bare (value : Cluster) : Cluster := { value with common := value.common.bare }
def EcuInstance.bare (value : EcuInstance) : EcuInstance := { value with common := value.common.bare }
def Frame.bare (value : Frame) : Frame := { value with common := value.common.bare }
def Pdu.bare (value : Pdu) : Pdu := { value with common := value.common.bare }
def Signal.bare {D : Type} [Double D] (value : Signal D) : Signal D :=
  { value with common := value.common.bare }
def SignalGroup.bare (value : SignalGroup) : SignalGroup := { value with common := value.common.bare }

@[simp] theorem populateCommonFields_bare (node : RawNode) :
    (populateCommonFields node.bare).1 = (populateCommonFields node).1.bare := by
  simp only [populateCommonFields, extractShortName, childText_bare, RawNode.bare_span,
    CommonFields.bare]

theorem buildCluster_bare (node : RawNode) :
    (buildCluster node.bare).1 = (buildCluster node).1.bare := by
  simp only [buildCluster, Cluster.bare, populateCommonFields_bare, baudrateText_bare,
    channelShortNames, findDescendants_bare, directShortNames_bare]

theorem buildEcuInstance_bare (node : RawNode) :
    (buildEcuInstance node.bare).1 = (buildEcuInstance node).1.bare := by
  simp only [buildEcuInstance, EcuInstance.bare, populateCommonFields_bare, refShortNames_bare,
    controllerShortNames, findDescendants_bare, directShortNames_bare]

theorem buildFrame_bare (node : RawNode) : (buildFrame node.bare).1 = (buildFrame node).1.bare := by
  simp only [buildFrame, Frame.bare, populateCommonFields_bare, childUint32_bare,
    refShortNames_bare, findDescendants_bare, ← List.map_append, List.map_map, Function.comp_def,
    buildFramePduMapping_bare]

theorem buildPdu_bare (node : RawNode) : (buildPdu node.bare).1 = (buildPdu node).1.bare := by
  simp only [buildPdu, Pdu.bare, signalMappingNodes, populateCommonFields_bare, childUint32_bare,
    findDescendants_bare, ← List.map_append, List.map_map, Function.comp_def,
    buildPduSignalMapping_bare]

theorem buildSignal_bare {D : Type} [Double D] (node : RawNode) :
    (buildSignal node.bare : Signal D × _).1 = (buildSignal node).1.bare := by
  simp only [buildSignal, Signal.bare, populateCommonFields_bare, childUint32_bare, childText_bare,
    findDescendant_bare, findChild_bare, refShortNames_bare, Option.map_map, Option.bind_map,
    Function.comp_def, RawNode.bare_text, isSignedBaseType_trimText, parseDouble_trimText,
    RawNode.bare_children, List.filter_map, List.map_map, RawNode.bare_tagName,
    buildValueTableEntry_bare]

theorem buildSignalGroup_bare (node : RawNode) :
    (buildSignalGroup node.bare).1 = (buildSignalGroup node).1.bare := by
  simp only [buildSignalGroup, SignalGroup.bare, populateCommonFields_bare, refShortNames_bare]

end ParseX

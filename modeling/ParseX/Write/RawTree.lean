import ParseX.Parser.Parser
import ParseX.Write.WriteElements

/-! # The written tree as a raw tree

The tree of the write engine as the loader hands it over, and the searches of
the parser below the elements of the writer. -/
namespace ParseX
open Cpp

mutual

/-- The element as the loader hands it over, without spans. -/
def XmlNode.raw (node : XmlNode) : RawNode :=
  match node with
  | ⟨name, attributes, content, children⟩ =>
    ⟨name, attributes, content.getD "", {}, rawOf children⟩

def rawOf (children : List XmlNode) : List RawNode :=
  match children with
  | [] => []
  | child :: rest => child.raw :: rawOf rest

end

theorem rawOf_eq (children : List XmlNode) : rawOf children = children.map XmlNode.raw := by
  induction children with
  | nil => rfl
  | cons child rest ih => rw [rawOf, ih, List.map_cons]

theorem XmlNode.raw_eq (node : XmlNode) : node.raw = ⟨node.name, node.attributes,
    node.content.getD "", {}, node.children.map XmlNode.raw⟩ := by
  rw [← rawOf_eq]
  cases node
  rfl

@[simp] theorem raw_span (node : XmlNode) : node.raw.span = {} := by
  rw [XmlNode.raw_eq]

/-! ## Searches below explicit nodes -/

/-- A node that no search enters. -/
def leaf (tagName text : String) (attributes : List (String × String)) : RawNode :=
  ⟨tagName, attributes, text, {}, []⟩

@[simp] theorem leaf_tagName (tagName text : String) (attributes : List (String × String)) :
    (leaf tagName text attributes).tagName = tagName := rfl

@[simp] theorem leaf_text (tagName text : String) (attributes : List (String × String)) :
    (leaf tagName text attributes).text = text := rfl

@[simp] theorem collectDescendants_leaf (tag tagName text : String)
    (attributes : List (String × String)) :
    collectDescendants tag (leaf tagName text attributes) = [] := by
  rw [leaf, collectDescendants, collectDescendantsOf]

@[simp] theorem collectDescendants_mk (tag tagName text : String)
    (attributes : List (String × String)) (span : RawSpan) (children : List RawNode) :
    collectDescendants tag ⟨tagName, attributes, text, span, children⟩ =
      collectDescendantsOf tag children := by
  rw [collectDescendants]

@[simp] theorem collectDescendantsOf_nil (tag : String) : collectDescendantsOf tag [] = [] := by
  rw [collectDescendantsOf]

@[simp] theorem collectDescendantsOf_cons (tag : String) (child : RawNode) (rest : List RawNode) :
    collectDescendantsOf tag (child :: rest) = (if child.tagName == tag then [child] else []) ++
      collectDescendants tag child ++ collectDescendantsOf tag rest := by
  rw [collectDescendantsOf]

@[simp] theorem collectDescendantsOf_append (tag : String) (front back : List RawNode) :
    collectDescendantsOf tag (front ++ back) =
      collectDescendantsOf tag front ++ collectDescendantsOf tag back := by
  simp only [collectDescendantsOf_eq, List.flatMap_append]

/-- Nodes that all carry the tag, with nothing below. -/
theorem collectDescendantsOf_all {T : Type} {tag : String} {node : T → RawNode} (items : List T)
    (htag : ∀ x, (node x).tagName = tag) (hbelow : ∀ x, collectDescendants tag (node x) = []) :
    collectDescendantsOf tag (items.map node) = items.map node := by
  induction items with
  | nil => simp
  | cons x items ih => simp [ih, htag, hbelow]

/-- Nodes that carry other tags, with nothing below. -/
theorem collectDescendantsOf_none {T : Type} {tag : String} {node : T → RawNode} (items : List T)
    (htag : ∀ x, (node x).tagName ≠ tag) (hbelow : ∀ x, collectDescendants tag (node x) = []) :
    collectDescendantsOf tag (items.map node) = [] := by
  induction items with
  | nil => simp
  | cons x items ih => simp [ih, htag, hbelow]

/-- A wrapper under another tag, searched. -/
theorem collectDescendantsOf_wrapper {tag tagName : String} {empty : Bool}
    {children : List XmlNode} (htag : tagName ≠ tag)
    (hempty : empty = true → collectDescendantsOf tag (children.map XmlNode.raw) = []) :
    collectDescendantsOf tag ((wrapperUnless empty tagName children).map XmlNode.raw) =
      collectDescendantsOf tag (children.map XmlNode.raw) := by
  cases empty with
  | true => simp [wrapperUnless, hempty]
  | false => simp [wrapperUnless, XmlNode.raw, rawOf_eq, htag]

/-- A wrapper under another tag is no child with the tag. -/
theorem find_wrapper {tag tagName : String} {empty : Bool} {children : List XmlNode}
    (htag : tagName ≠ tag) :
    ((wrapperUnless empty tagName children).map XmlNode.raw).find? (fun child =>
      child.tagName == tag) = none := by
  cases empty with
  | true => rfl
  | false => simp [wrapperUnless, XmlNode.raw, htag]

/-! ## Parts of a signal -/

/-- The initial value as the reader sees it. -/
def initValueNode {D : Type} [Double D] (initValue : D) : RawNode :=
  ⟨"INIT-VALUE", [], "", {}, [⟨"NUMERICAL-VALUE-SPECIFICATION", [], "", {},
    [leaf "VALUE" (Double.print17 initValue) []]⟩]⟩

theorem findDescendant_initValueNode {D : Type} [Double D] (initValue : D) :
    findDescendant (initValueNode initValue) "VALUE" =
      some (leaf "VALUE" (Double.print17 initValue) []) := by
  simp [findDescendant, findDescendants, initValueNode]

/-- The signed base type as the reader sees it. -/
def signedBaseTypeNode : RawNode :=
  ⟨"NETWORK-REPRESENTATION-PROPS", [], "", {}, [⟨"SW-DATA-DEF-PROPS-VARIANTS", [], "", {},
    [⟨"SW-DATA-DEF-PROPS-CONDITIONAL", [], "", {},
      [leaf "BASE-TYPE-REF" "/SwBaseType/SINT8" [("DEST", "SW-BASE-TYPE")]]⟩]⟩]⟩

/-! ## Texts and names -/

theorem mem_sortedStrings {names : List String} {name : String} :
    name ∈ sortedStrings names ↔ name ∈ names :=
  List.mem_insertionSort _

theorem collectDescendantsOf_option {T : Type} {tag tagName : String} (value : Option T)
    (text : T → String) (htag : tagName ≠ tag) :
    collectDescendantsOf tag (value.map fun x => leaf tagName (text x) []).toList = [] := by
  cases value <;> simp [htag]

/-! ## Sized nodes -/

/-- A node of a short name, a length and a wrapper around the items. -/
def sizedNode {M : Type} (tagName shortName lengthTag length wrapper : String) (items : List M)
    (element : M → XmlNode) : RawNode :=
  ⟨tagName, [], "", {}, leaf "SHORT-NAME" shortName [] :: leaf lengthTag length [] ::
    (wrapperUnless items.isEmpty wrapper (items.map element)).map XmlNode.raw⟩

section
variable {M : Type} {tagName shortName lengthTag length wrapper : String} {items : List M}
  {element : M → XmlNode}

theorem findChild_sized_none {tag : String} (h : tag ∉ ["SHORT-NAME", lengthTag, wrapper]) :
    findChild (sizedNode tagName shortName lengthTag length wrapper items element) tag = none := by
  simp only [List.mem_cons, List.not_mem_nil, or_false, not_or, ← ne_eq] at h
  obtain ⟨hname, hlength, hwrapper⟩ := h
  simp [findChild, sizedNode, hname.symm, hlength.symm, find_wrapper hwrapper.symm]

theorem childText_sized_length (h : "SHORT-NAME" ≠ lengthTag) :
    childText (sizedNode tagName shortName lengthTag length wrapper items element) lengthTag =
      some (trimText length) := by
  simp [childText, findChild, sizedNode, h]

theorem childText_sized_shortName :
    childText (sizedNode tagName shortName lengthTag length wrapper items element) "SHORT-NAME" =
      some (trimText shortName) := by
  simp [childText, findChild, sizedNode]

theorem findDescendants_sized {tag : String} (h : tag ∉ ["SHORT-NAME", lengthTag, wrapper]) :
    findDescendants (sizedNode tagName shortName lengthTag length wrapper items element) tag =
      collectDescendantsOf tag (items.map fun item => (element item).raw) := by
  simp only [List.mem_cons, List.not_mem_nil, or_false, not_or, ← ne_eq] at h
  obtain ⟨hname, hlength, hwrapper⟩ := h
  rw [findDescendants, sizedNode, collectDescendants_mk, collectDescendantsOf_cons,
    collectDescendantsOf_cons, collectDescendantsOf_wrapper hwrapper.symm, List.map_map]
  · simp [hname.symm, hlength.symm, Function.comp_def]
  · intro he
    rw [List.isEmpty_iff.mp he]
    exact collectDescendantsOf_nil tag

end

section
variable [LibXml]

@[simp] theorem raw_textChild (tagName text : String) :
    (textChild tagName text).raw = leaf tagName (LibXml.setContent text) [] := by
  rw [textChild, XmlNode.raw, rawOf]
  rfl

@[simp] theorem raw_refChild (tagName dest text : String) :
    (refChild tagName dest text).raw =
      leaf tagName (LibXml.setContent text) [("DEST", dest)] := by
  rw [XmlNode.raw_eq]
  rfl

theorem map_raw_optionalTextChild (tagName : String) (value : Option String) :
    (optionalTextChild tagName value).map XmlNode.raw =
      (value.map fun text => leaf tagName (LibXml.setContent text) []).toList := by
  cases value <;> simp [optionalTextChild]

theorem raw_namedElement (tagName name : String) : (namedElement tagName name).raw =
    ⟨tagName, [], "", {}, [leaf "SHORT-NAME" (LibXml.setContent name) []]⟩ := by
  simp [namedElement, XmlNode.raw, rawOf_eq]

/-- Named elements of another tag. -/
theorem collectDescendantsOf_named {tag tagName : String} (names : List String)
    (htag : tagName ≠ tag) (hname : "SHORT-NAME" ≠ tag) :
    collectDescendantsOf tag ((names.map (namedElement tagName)).map XmlNode.raw) = [] := by
  rw [List.map_map]
  exact collectDescendantsOf_none names (fun name => by
    rw [Function.comp_apply, raw_namedElement]; exact htag) fun name => by
    rw [Function.comp_apply, raw_namedElement]; simp [hname]

/-! ## Headers

A short name and an optional category in front of the wrappers. -/

theorem find_after_header {shortName : String} {category : Option String} {rest : List RawNode}
    {tag : String} (hname : "SHORT-NAME" ≠ tag) (hcategory : "CATEGORY" ≠ tag)
    (hrest : rest.find? (fun child => child.tagName == tag) = none) :
    (leaf "SHORT-NAME" shortName [] :: ((category.map fun text =>
      leaf "CATEGORY" (LibXml.setContent text) []).toList ++ rest)).find?
        (fun child => child.tagName == tag) = none := by
  cases category <;> simp_all

/-! ## Elements -/

theorem raw_buildClusterElement (value : Cluster) : (buildClusterElement value).raw =
    ⟨"CAN-CLUSTER", [], "", {}, leaf "SHORT-NAME" (LibXml.setContent value.common.shortName) [] ::
      ((value.common.category.map fun text =>
        leaf "CATEGORY" (LibXml.setContent text) []).toList ++
        (wrapperUnless (value.baudrate.isNone && value.physicalChannels.isEmpty)
          "CAN-CLUSTER-VARIANTS" [clusterConditional value]).map XmlNode.raw)⟩ := by
  rw [buildClusterElement, XmlNode.raw, rawOf_eq, List.map_append, List.map_cons, raw_textChild,
    map_raw_optionalTextChild]
  rfl

theorem raw_buildEcuInstanceElement (value : EcuInstance) : (buildEcuInstanceElement value).raw =
    ⟨"ECU-INSTANCE", [], "", {},
      leaf "SHORT-NAME" (LibXml.setContent value.common.shortName) [] ::
        ((value.common.category.map fun text =>
          leaf "CATEGORY" (LibXml.setContent text) []).toList ++
          (wrapperUnless value.controllers.isEmpty "COMM-CONTROLLERS"
            ((sortedStrings value.controllers).map
              (namedElement "CAN-COMMUNICATION-CONTROLLER"))).map XmlNode.raw)⟩ := by
  rw [buildEcuInstanceElement, XmlNode.raw, rawOf_eq, List.map_append, List.map_cons,
    raw_textChild, map_raw_optionalTextChild]
  rfl

theorem findDescendants_ecu (value : EcuInstance) {tag : String} (h : tag ∉ ["SHORT-NAME",
    "CATEGORY", "COMM-CONTROLLERS"]) :
    findDescendants (buildEcuInstanceElement value).raw tag =
      collectDescendantsOf tag (((sortedStrings value.controllers).map
        (namedElement "CAN-COMMUNICATION-CONTROLLER")).map XmlNode.raw) := by
  simp only [List.mem_cons, List.not_mem_nil, or_false, not_or, ← ne_eq] at h
  obtain ⟨hname, hcategory, hcontrollers⟩ := h
  rw [findDescendants, raw_buildEcuInstanceElement, collectDescendants_mk,
    collectDescendantsOf_cons, collectDescendantsOf_append,
    collectDescendantsOf_option _ _ hcategory.symm, collectDescendantsOf_wrapper hcontrollers.symm]
  · simp [hname.symm]
  · intro hempty
    rw [List.isEmpty_iff.mp hempty]
    exact collectDescendantsOf_nil tag

theorem raw_buildSignalGroupElement (value : SignalGroup) : (buildSignalGroupElement value).raw =
    ⟨"I-SIGNAL-GROUP", [], "", {}, leaf "SHORT-NAME" (LibXml.setContent value.common.shortName) [] ::
      (wrapperUnless value.members.isEmpty "I-SIGNAL-REFS"
        ((sortedStrings value.members).map fun member =>
          refChild "I-SIGNAL-REF" "I-SIGNAL" ("/Sys/" ++ member))).map XmlNode.raw⟩ := by
  rw [buildSignalGroupElement, XmlNode.raw, rawOf_eq, List.map_cons, raw_textChild]
  rfl

end

end ParseX

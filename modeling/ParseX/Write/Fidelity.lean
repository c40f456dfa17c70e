import ParseX.Write.PlainOutput

/-! # Write, then parse

The writer has no place for the category of frames, PDUs, signals and groups
nor for the byte order of a signal mapping. What it writes reads back as the
project, up to its documented losses, exactly when the project leaves these at
what the parser assumes. -/
namespace ParseX
open Cpp

/-! ## Elements of the reloaded tree -/

def isElementTag (tag : String) : Bool :=
  isClusterTag tag || isEcuTag tag || isFrameTag tag || isPduTag tag || isSignalTag tag ||
    isSignalGroupTag tag

/-- A family of element tags. -/
def IsFamily (family : String → Bool) : Prop := ∀ tag, family tag = true → isElementTag tag = true

theorem isFamily_cluster : IsFamily isClusterTag := fun tag h => by simp [isElementTag, h]
theorem isFamily_ecu : IsFamily isEcuTag := fun tag h => by simp [isElementTag, h]
theorem isFamily_frame : IsFamily isFrameTag := fun tag h => by simp [isElementTag, h]
theorem isFamily_pdu : IsFamily isPduTag := fun tag h => by simp [isElementTag, h]
theorem isFamily_signal : IsFamily isSignalTag := fun tag h => by simp [isElementTag, h]
theorem isFamily_signalGroup : IsFamily isSignalGroupTag := fun tag h => by simp [isElementTag, h]

/-- No node of the trees builds an element. -/
def NoElements (nodes : List RawNode) : Prop :=
  ∀ node ∈ nodes.flatMap RawNode.nodes, isElementTag node.tagName = false

@[simp] theorem noElements_nil : NoElements [] := by simp [NoElements]

@[simp] theorem noElements_append {front back : List RawNode} :
    NoElements (front ++ back) ↔ NoElements front ∧ NoElements back := by
  simp only [NoElements, List.flatMap_append, List.forall_mem_append]

@[simp] theorem noElements_cons {node : RawNode} {nodes : List RawNode} :
    NoElements (node :: nodes) ↔
      (isElementTag node.tagName = false ∧ NoElements node.children) ∧ NoElements nodes := by
  simp only [NoElements, List.flatMap_cons, List.forall_mem_append, RawNode.nodes_eq node,
    List.forall_mem_cons]

theorem noElements_map {T : Type} {items : List T} {node : T → RawNode}
    (h : ∀ x ∈ items, NoElements [node x]) : NoElements (items.map node) := by
  induction items with
  | nil => simp
  | cons x items ih =>
    obtain ⟨hx, hitems⟩ := List.forall_mem_cons.mp h
    exact noElements_append.mpr ⟨hx, ih hitems⟩

theorem noElements_leaf {tagName text : String} {attributes : List (String × String)}
    (h : isElementTag tagName = false) : NoElements [leaf tagName text attributes] :=
  noElements_cons.mpr ⟨⟨h, noElements_nil⟩, noElements_nil⟩

theorem noElements_wrapper {empty : Bool} {tagName : String} {children : List XmlNode}
    (htag : isElementTag tagName = false) (h : NoElements (children.map XmlNode.raw)) :
    NoElements ((wrapperUnless empty tagName children).map XmlNode.raw) := by
  cases empty with
  | true => exact noElements_nil
  | false =>
    simp only [wrapperUnless, Bool.false_eq_true, if_false, List.map_cons, List.map_nil,
      XmlNode.raw, rawOf_eq, noElements_cons, noElements_nil, and_true]
    exact ⟨htag, h⟩

theorem noElements_option {T : Type} {value : Option T} {node : T → RawNode}
    (h : ∀ x, NoElements [node x]) : NoElements (value.map node).toList := by
  cases value with
  | none => exact noElements_nil
  | some x => exact h x

theorem nodesOfFamily_mk (tagName text : String) (attributes : List (String × String))
    (span : RawSpan) (children : List RawNode) (family : String → Bool) :
    nodesOfFamily ⟨tagName, attributes, text, span, children⟩ family =
      (if family tagName then [⟨tagName, attributes, text, span, children⟩] else []) ++
        children.flatMap (nodesOfFamily · family) := by
  unfold nodesOfFamily
  rw [RawNode.nodes_eq, List.filter_cons, List.filter_flatMap]
  split <;> rfl

/-- An element without elements below. -/
theorem nodesOfFamily_element {node : RawNode} {family : String → Bool} (hfamily : IsFamily family)
    (h : NoElements node.children) :
    nodesOfFamily node family = if family node.tagName then [node] else [] := by
  have hbelow : (node.children.flatMap RawNode.nodes).filter (fun n => family n.tagName) = [] := by
    rw [List.filter_eq_nil_iff]
    intro n hn hf
    exact absurd (hfamily _ hf) (by rw [h n hn]; simp)
  rw [nodesOfFamily, RawNode.nodes_eq, List.filter_cons, hbelow]

section
variable [LibXml]

theorem noElements_named {tagName : String} (names : List String)
    (htag : isElementTag tagName = false) :
    NoElements ((names.map (namedElement tagName)).map XmlNode.raw) := by
  rw [List.map_map]
  refine noElements_map fun name _ => ?_
  rw [Function.comp_apply, raw_namedElement]
  exact noElements_cons.mpr ⟨⟨htag, noElements_leaf (by decide)⟩, noElements_nil⟩

theorem noElements_category (value : Option String) : NoElements (value.map fun text =>
    leaf "CATEGORY" (LibXml.setContent text) []).toList :=
  noElements_option fun _ => noElements_leaf (by decide)

theorem noElements_cluster (value : Cluster) :
    NoElements (buildClusterElement value).raw.children := by
  have hconditional : NoElements ([clusterConditional value].map XmlNode.raw) := by
    simp only [List.map_cons, List.map_nil, clusterConditional, XmlNode.raw, rawOf_eq,
      List.map_append, map_raw_optionalTextChild, noElements_cons, noElements_nil, and_true]
    exact ⟨by decide, noElements_append.mpr ⟨noElements_option fun _ => noElements_leaf (by decide),
      noElements_wrapper (by decide) (noElements_named _ (by decide))⟩⟩
  rw [raw_buildClusterElement]
  exact noElements_cons.mpr ⟨⟨rfl, noElements_nil⟩, noElements_append.mpr
    ⟨noElements_category _, noElements_wrapper (by decide) hconditional⟩⟩

theorem noElements_ecuInstance (value : EcuInstance) :
    NoElements (buildEcuInstanceElement value).raw.children := by
  rw [raw_buildEcuInstanceElement]
  exact noElements_cons.mpr ⟨⟨rfl, noElements_nil⟩, noElements_append.mpr
    ⟨noElements_category _, noElements_wrapper (by decide) (noElements_named _ (by decide))⟩⟩

omit [LibXml] in
theorem noElements_sized {M : Type} {tagName shortName lengthTag length wrapper : String}
    {items : List M} {element : M → XmlNode} (hlength : isElementTag lengthTag = false)
    (hwrapper : isElementTag wrapper = false) (h : ∀ item, NoElements [(element item).raw]) :
    NoElements (sizedNode tagName shortName lengthTag length wrapper items element).children := by
  refine noElements_cons.mpr ⟨⟨rfl, noElements_nil⟩, noElements_cons.mpr
    ⟨⟨hlength, noElements_nil⟩, noElements_wrapper hwrapper ?_⟩⟩
  rw [List.map_map]
  exact noElements_map fun item _ => h item

theorem noElements_signalGroup (value : SignalGroup) :
    NoElements (buildSignalGroupElement value).raw.children := by
  rw [raw_buildSignalGroupElement]
  refine noElements_cons.mpr ⟨⟨rfl, noElements_nil⟩, noElements_wrapper (by decide) ?_⟩
  rw [List.map_map]
  refine noElements_map fun member _ => ?_
  rw [Function.comp_apply, raw_refChild]
  exact noElements_leaf (by decide)

variable [LawfulLibXml]

theorem noElements_mapping {tagName refTag dest owner ref : String} {startPosition : UInt32}
    {idx : Nat} (htag : isElementTag tagName = false) (href : isElementTag refTag = false) :
    NoElements [(mappingElement tagName refTag dest owner ref startPosition idx).raw] := by
  rw [raw_mappingElement]
  refine noElements_cons.mpr ⟨⟨htag, noElements_cons.mpr ⟨⟨rfl, noElements_nil⟩,
    noElements_append.mpr ⟨?_, noElements_leaf (by decide)⟩⟩⟩, noElements_nil⟩
  split
  · exact noElements_nil
  · exact noElements_leaf href

theorem noElements_frame (value : Frame) : NoElements (buildFrameElement value).raw.children := by
  rw [raw_buildFrameElement]
  exact noElements_sized (by decide) (by decide) fun item =>
    noElements_mapping (by decide) (by decide)

theorem noElements_pdu (value : Pdu) : NoElements (buildPduElement value).raw.children := by
  rw [raw_buildPduElement]
  exact noElements_sized (by decide) (by decide) fun item =>
    noElements_mapping (by decide) (by decide)

theorem noElements_signal {D : Type} [Double D] [LawfulDouble D] (value : Signal D) :
    NoElements (buildSignalElement value).raw.children := by
  rw [raw_buildSignalElement]
  have hinit : NoElements (value.initValue.map initValueNode).toList :=
    noElements_option fun d => by
      simp only [initValueNode, noElements_cons, noElements_nil, and_true]
      exact ⟨by decide, by decide, rfl, noElements_nil⟩
  have hbase : NoElements (if value.isSigned then [signedBaseTypeNode] else []) := by
    split
    · simp only [signedBaseTypeNode, noElements_cons, noElements_nil, and_true]
      exact ⟨by decide, by decide, by decide, rfl, noElements_nil⟩
    · exact noElements_nil
  exact noElements_cons.mpr ⟨⟨rfl, noElements_nil⟩, noElements_append.mpr
    ⟨hinit, noElements_cons.mpr ⟨⟨rfl, noElements_nil⟩, hbase⟩⟩⟩

/-! ## The families of the document -/

omit [LibXml] [LawfulLibXml] in
/-- The elements of one type, as raw nodes, searched for a family. -/
theorem flatMap_group {T : Type} {element : T → XmlNode} {family : String → Bool} {tag : String}
    (items : List T) (hfamily : IsFamily family) (htag : ∀ x, (element x).raw.tagName = tag)
    (hbelow : ∀ x, NoElements (element x).raw.children) :
    ((items.map element).map XmlNode.raw).flatMap (nodesOfFamily · family) =
      if family tag then items.map fun x => (element x).raw else [] := by
  rw [List.map_map, List.flatMap_map]
  simp only [Function.comp_apply, nodesOfFamily_element hfamily (hbelow _), htag]
  split
  · exact List.map_eq_flatMap.symm
  · simp

variable {D : Type} [Double D] [LawfulDouble D] (project : ParsedProject D)

/-- The elements a family finds in the document of a project. -/
theorem nodesOfFamily_document {family : String → Bool} (hfamily : IsFamily family) :
    nodesOfFamily (buildDocument project).root.raw family =
      (if family "CAN-CLUSTER" then (sortedCopy (collectAll project ParsedFile.clusters)).map
        fun x => (buildClusterElement x).raw else []) ++
      (if family "ECU-INSTANCE" then (sortedCopy (collectAll project ParsedFile.ecuInstances)).map
        fun x => (buildEcuInstanceElement x).raw else []) ++
      (if family "CAN-FRAME" then (sortedCopy (collectAll project ParsedFile.frames)).map
        fun x => (buildFrameElement x).raw else []) ++
      (if family "I-SIGNAL-I-PDU" then (sortedCopy (collectAll project ParsedFile.pdus)).map
        fun x => (buildPduElement x).raw else []) ++
      (if family "I-SIGNAL" then (sortedCopy (collectAll project ParsedFile.signals)).map
        fun x => (buildSignalElement x).raw else []) ++
      (if family "I-SIGNAL-GROUP" then (sortedCopy (collectAll project ParsedFile.signalGroups)).map
        fun x => (buildSignalGroupElement x).raw else []) := by
  have hspine : ∀ tag : String, isElementTag tag = false → family tag = false := by
    intro tag htag
    cases h : family tag with
    | false => rfl
    | true => rw [hfamily tag h] at htag; cases htag
  have hleaf : nodesOfFamily (leaf "SHORT-NAME" (LibXml.setContent "Sys") []) family = [] := by
    rw [nodesOfFamily_element hfamily noElements_nil, leaf_tagName, hspine _ rfl]
    rfl
  simp only [buildDocument, forRelease, XmlNode.raw, rawOf_eq, List.map_cons, List.map_nil,
    nodesOfFamily_mk, List.flatMap_cons, List.flatMap_nil, raw_textChild, hleaf,
    hspine "AUTOSAR" rfl, hspine "AR-PACKAGES" rfl, hspine "AR-PACKAGE" rfl, hspine "ELEMENTS" rfl,
    Bool.false_eq_true, if_false, List.nil_append, List.append_nil, writeElements, List.map_append,
    List.flatMap_append]
  rw [flatMap_group _ hfamily (fun x => by rw [raw_buildClusterElement]) noElements_cluster,
    flatMap_group _ hfamily (fun x => by rw [raw_buildEcuInstanceElement]) noElements_ecuInstance,
    flatMap_group _ hfamily (fun x => by rw [raw_buildFrameElement, sizedNode]) noElements_frame,
    flatMap_group _ hfamily (fun x => by rw [raw_buildPduElement, sizedNode]) noElements_pdu,
    flatMap_group _ hfamily (fun x => by rw [raw_buildSignalElement]) noElements_signal,
    flatMap_group _ hfamily (fun x => by rw [raw_buildSignalGroupElement]) noElements_signalGroup]

end

/-! ## What survives -/

/-- The fields a written cluster may not lose. -/
structure Cluster.Survives (old new : Cluster) : Prop where
  shortName : new.common.shortName = old.common.shortName
  category : new.common.category = old.common.category
  baudrate : new.baudrate = old.baudrate
  physicalChannels : new.physicalChannels = sortedStrings old.physicalChannels

/-- All but the connected channels. -/
structure EcuInstance.Survives (old new : EcuInstance) : Prop where
  shortName : new.common.shortName = old.common.shortName
  category : new.common.category = old.common.category
  controllers : new.controllers = sortedStrings old.controllers

/-- All but the transmitters. -/
structure Frame.Survives (old new : Frame) : Prop where
  shortName : new.common.shortName = old.common.shortName
  category : new.common.category = old.common.category
  length : new.length = old.length
  pdus : new.pdus = sortedFramePduMappings old.pdus

structure Pdu.Survives (old new : Pdu) : Prop where
  shortName : new.common.shortName = old.common.shortName
  category : new.common.category = old.common.category
  length : new.length = old.length
  signalMappings : new.signalMappings = sortedPduSignalMappings old.signalMappings

/-- All but the start bit, the byte order, the receivers and the value table. -/
structure Signal.Survives {D : Type} [Double D] (old new : Signal D) : Prop where
  shortName : new.common.shortName = old.common.shortName
  category : new.common.category = old.common.category
  bitLength : new.bitLength = old.bitLength
  isSigned : new.isSigned = old.isSigned
  initValue : new.initValue = old.initValue
  factor : new.factor = old.factor
  offset : new.offset = old.offset
  min : new.min = old.min
  max : new.max = old.max
  unit : new.unit = old.unit

structure SignalGroup.Survives (old new : SignalGroup) : Prop where
  shortName : new.common.shortName = old.common.shortName
  category : new.common.category = old.common.category
  members : new.members = sortedStrings old.members

section
variable {D : Type} [Double D]

/-- The file holds the elements of the project, type by type in the order of
their names, and nothing undocumented was lost. -/
structure Fidelity (project : ParsedProject D) (file : ParsedFile D) : Prop where
  clusters : List.Forall₂ Cluster.Survives (sortedCopy (collectAll project ParsedFile.clusters))
    file.clusters
  ecuInstances : List.Forall₂ EcuInstance.Survives
    (sortedCopy (collectAll project ParsedFile.ecuInstances)) file.ecuInstances
  frames : List.Forall₂ Frame.Survives (sortedCopy (collectAll project ParsedFile.frames))
    file.frames
  pdus : List.Forall₂ Pdu.Survives (sortedCopy (collectAll project ParsedFile.pdus)) file.pdus
  signals : List.Forall₂ Signal.Survives (sortedCopy (collectAll project ParsedFile.signals))
    file.signals
  signalGroups : List.Forall₂ SignalGroup.Survives
    (sortedCopy (collectAll project ParsedFile.signalGroups)) file.signalGroups

/-- What the writer has no place for is at what the parser assumes. -/
structure Expressible (project : ParsedProject D) : Prop where
  frames : ∀ x ∈ collectAll project ParsedFile.frames, x.common.category = none
  pdus : ∀ x ∈ collectAll project ParsedFile.pdus, x.common.category = none ∧
    ∀ mapping ∈ x.signalMappings, mapping.byteOrder = .mostSignificantByteFirst
  signals : ∀ x ∈ collectAll project ParsedFile.signals, x.common.category = none
  signalGroups : ∀ x ∈ collectAll project ParsedFile.signalGroups, x.common.category = none

end

/-! ## Types one by one -/

section
variable [LibXml] [LawfulLibXml] {node : RawNode}

theorem Cluster.survives_reread {value : Cluster} (h : value.Plain)
    (hnode : node.bare = (buildClusterElement value).raw.bare) :
    value.Survives (buildCluster node).1 := by
  have hbare := congrArg (fun n => (buildCluster n).1) hnode
  simp only [buildCluster_bare, buildCluster_element h] at hbare
  have hcommon := congrArg Cluster.common hbare
  exact ⟨(congrArg CommonFields.shortName hcommon :), (congrArg CommonFields.category hcommon :),
    (congrArg Cluster.baudrate hbare :), (congrArg Cluster.physicalChannels hbare :)⟩

theorem EcuInstance.survives_reread {value : EcuInstance} (h : value.Plain)
    (hnode : node.bare = (buildEcuInstanceElement value).raw.bare) :
    value.Survives (buildEcuInstance node).1 := by
  have hbare := congrArg (fun n => (buildEcuInstance n).1) hnode
  simp only [buildEcuInstance_bare, buildEcuInstance_element h] at hbare
  have hcommon := congrArg EcuInstance.common hbare
  exact ⟨(congrArg CommonFields.shortName hcommon :), (congrArg CommonFields.category hcommon :),
    (congrArg EcuInstance.controllers hbare :)⟩

theorem Frame.survives_reread_iff {value : Frame} (h : value.Plain)
    (hnode : node.bare = (buildFrameElement value).raw.bare) :
    value.Survives (buildFrame node).1 ↔ value.common.category = none := by
  have hbare := congrArg (fun n => (buildFrame n).1) hnode
  simp only [buildFrame_bare, buildFrame_element h] at hbare
  have hcommon := congrArg Frame.common hbare
  have hcategory : (buildFrame node).1.common.category = none :=
    congrArg CommonFields.category hcommon
  constructor
  · intro hs
    rw [← hs.category, hcategory]
  · intro hnone
    exact ⟨(congrArg CommonFields.shortName hcommon :), hcategory.trans hnone.symm,
      (congrArg Frame.length hbare :), (congrArg Frame.pdus hbare :)⟩

theorem Pdu.survives_reread_iff {value : Pdu} (h : value.Plain)
    (hnode : node.bare = (buildPduElement value).raw.bare) :
    value.Survives (buildPdu node).1 ↔ value.common.category = none ∧
      ∀ mapping ∈ value.signalMappings, mapping.byteOrder = .mostSignificantByteFirst := by
  have hbare := congrArg (fun n => (buildPdu n).1) hnode
  simp only [buildPdu_bare, buildPdu_element h] at hbare
  have hcommon := congrArg Pdu.common hbare
  have hcategory : (buildPdu node).1.common.category = none :=
    congrArg CommonFields.category hcommon
  have hmappings : (buildPdu node).1.signalMappings =
      (sortedPduSignalMappings value.signalMappings).map fun mapping =>
        { mapping with byteOrder := .mostSignificantByteFirst } :=
    congrArg Pdu.signalMappings hbare
  constructor
  · intro hs
    refine ⟨by rw [← hs.category, hcategory], fun mapping hmapping => ?_⟩
    have hmem : mapping ∈ sortedPduSignalMappings value.signalMappings :=
      (List.mem_insertionSort _).mpr hmapping
    rw [← hs.signalMappings, hmappings] at hmem
    obtain ⟨old, -, rfl⟩ := List.mem_map.mp hmem
    rfl
  · rintro ⟨hnone, horder⟩
    refine ⟨(congrArg CommonFields.shortName hcommon :), hcategory.trans hnone.symm,
      (congrArg Pdu.length hbare :), hmappings.trans ?_⟩
    conv_rhs => rw [← List.map_id (sortedPduSignalMappings value.signalMappings)]
    apply List.map_congr_left
    intro mapping hmapping
    rw [id, ← horder mapping ((List.mem_insertionSort _).mp hmapping)]

theorem Signal.survives_reread_iff {D : Type} [Double D] [LawfulDouble D] {old : RawNode}
    (h : (buildSignal old : Signal D × List Warning).1.Plain)
    (hnode : node.bare =
      (buildSignalElement (buildSignal old : Signal D × List Warning).1).raw.bare) :
    (buildSignal old).1.Survives (buildSignal node : Signal D × List Warning).1 ↔
      (buildSignal old : Signal D × List Warning).1.common.category = none := by
  have hbare := congrArg (fun n => (buildSignal n : Signal D × List Warning).1) hnode
  simp only [buildSignal_bare, buildSignal_element h] at hbare
  have hcommon := congrArg Signal.common hbare
  have hcategory : (buildSignal node : Signal D × List Warning).1.common.category = none :=
    congrArg CommonFields.category hcommon
  constructor
  · intro hs
    rw [← hs.category, hcategory]
  · intro hnone
    exact ⟨(congrArg CommonFields.shortName hcommon :), hcategory.trans hnone.symm,
      (congrArg Signal.bitLength hbare :), (congrArg Signal.isSigned hbare :),
      (congrArg Signal.initValue hbare :), rfl, rfl, rfl, rfl, rfl⟩

theorem SignalGroup.survives_reread_iff {value : SignalGroup} (h : value.Plain)
    (hnode : node.bare = (buildSignalGroupElement value).raw.bare) :
    value.Survives (buildSignalGroup node).1 ↔ value.common.category = none := by
  have hbare := congrArg (fun n => (buildSignalGroup n).1) hnode
  simp only [buildSignalGroup_bare, buildSignalGroup_element h] at hbare
  have hcommon := congrArg SignalGroup.common hbare
  have hcategory : (buildSignalGroup node).1.common.category = none :=
    congrArg CommonFields.category hcommon
  constructor
  · intro hs
    rw [← hs.category, hcategory]
  · intro hnone
    exact ⟨(congrArg CommonFields.shortName hcommon :), hcategory.trans hnone.symm,
      (congrArg SignalGroup.members hbare :)⟩

end

/-! ## The round trip -/

/-- Values and their rebuilt nodes, pair by pair. -/
theorem forall₂_rebuilt_iff {T : Type} {R : T → T → Prop} {P : T → Prop} {build : RawNode → T}
    {element : T → RawNode} : ∀ {items : List T} {nodes : List RawNode},
    nodes.map RawNode.bare = items.map (fun x => (element x).bare) →
    (∀ x ∈ items, ∀ node : RawNode, node.bare = (element x).bare → (R x (build node) ↔ P x)) →
    (List.Forall₂ R items (nodes.map build) ↔ ∀ x ∈ items, P x)
  | [], [], _, _ => by simp
  | [], _ :: _, h, _ => by simp at h
  | _ :: _, [], h, _ => by simp at h
  | x :: items, node :: nodes, h, hpair => by
    simp only [List.map_cons, List.cons.injEq] at h
    obtain ⟨hx, hitems⟩ := List.forall_mem_cons.mp hpair
    rw [List.map_cons, List.forall₂_cons, List.forall_mem_cons, hx node h.1,
      forall₂_rebuilt_iff h.2 hitems]

/-- The elements of one type, before and after. -/
theorem forall₂_reread_iff {T : Type} [DomainElement T] {R : T → T → Prop} {P : T → Prop}
    {build : RawNode → T} {element : T → XmlNode} {items : List T} {family : String → Bool}
    {root reread : RawNode} (hreload : reread.bare = root.bare)
    (hfound : nodesOfFamily root family = (sortedCopy items).map fun x => (element x).raw)
    (hpair : ∀ x ∈ items, ∀ node : RawNode, node.bare = (element x).raw.bare →
      (R x (build node) ↔ P x)) :
    List.Forall₂ R (sortedCopy items) ((nodesOfFamily reread family).map build) ↔
      ∀ x ∈ items, P x := by
  have hmem : ∀ x, x ∈ sortedCopy items ↔ x ∈ items := fun x => List.mem_insertionSort _
  have hnodes : (nodesOfFamily reread family).map RawNode.bare =
      (sortedCopy items).map fun x => (element x).raw.bare := by
    rw [← nodesOfFamily_bare, hreload, nodesOfFamily_bare, hfound, List.map_map]
    rfl
  rw [forall₂_rebuilt_iff hnodes fun x hx => hpair x ((hmem x).mp hx)]
  simp only [hmem]

section
variable {D : Type} [Double D] [LawfulDouble D] [LibXml] [LawfulLibXml]
  {project : ParsedProject D}

/-- A valid project of parser outputs is written. -/
theorem write_ok (hplain : PlainProject project) (hvalid : WriteEngine.validate project = ⟨[]⟩)
    (hcategories : NoEmptyCategory project) :
    WriteEngine.write project = .ok (buildDocument project) := by
  have hclean : (WriteEngine.validate project).hasErrors = false := by rw [hvalid]; rfl
  have hguard := hasBlankText_buildDocument hplain (everyCommon_of_validate hvalid) hcategories
  rw [WriteEngine.write, hclean, hguard]
  rfl

/-- The elements of each family in the document. -/
theorem nodesOfFamily_document_each (project : ParsedProject D) :
    (nodesOfFamily (buildDocument project).root.raw isClusterTag =
      (sortedCopy (collectAll project ParsedFile.clusters)).map fun x => (buildClusterElement x).raw) ∧
    (nodesOfFamily (buildDocument project).root.raw isEcuTag =
      (sortedCopy (collectAll project ParsedFile.ecuInstances)).map fun x => (buildEcuInstanceElement x).raw) ∧
    (nodesOfFamily (buildDocument project).root.raw isFrameTag =
      (sortedCopy (collectAll project ParsedFile.frames)).map fun x => (buildFrameElement x).raw) ∧
    (nodesOfFamily (buildDocument project).root.raw isPduTag =
      (sortedCopy (collectAll project ParsedFile.pdus)).map fun x => (buildPduElement x).raw) ∧
    (nodesOfFamily (buildDocument project).root.raw isSignalTag =
      (sortedCopy (collectAll project ParsedFile.signals)).map fun x => (buildSignalElement x).raw) ∧
    (nodesOfFamily (buildDocument project).root.raw isSignalGroupTag =
      (sortedCopy (collectAll project ParsedFile.signalGroups)).map fun x => (buildSignalGroupElement x).raw) := by
  refine ⟨?_, ?_, ?_, ?_, ?_, ?_⟩
  · rw [nodesOfFamily_document project isFamily_cluster]
    simp [isClusterTag]
  · rw [nodesOfFamily_document project isFamily_ecu]
    simp [isEcuTag]
  · rw [nodesOfFamily_document project isFamily_frame]
    simp [isFrameTag]
  · rw [nodesOfFamily_document project isFamily_pdu]
    simp [isPduTag]
  · rw [nodesOfFamily_document project isFamily_signal]
    simp [isSignalTag]
  · rw [nodesOfFamily_document project isFamily_signalGroup]
    simp [isSignalGroupTag]

/-- The reloaded document of a plain project. -/
theorem fidelity_reread_iff (hparsed : ∀ file ∈ project.files, ParserOutput file)
    (hplain : PlainProject project) {root : RawNode} (hroot : Reloads (buildDocument project) root) :
    Fidelity project (buildSubtree root {}) ↔ Expressible project := by
  obtain ⟨b1, b2, b3, b4, b5, b6⟩ := @buildSubtree_builtFrom D _ root "" ""
  obtain ⟨d1, d2, d3, d4, d5, d6⟩ := nodesOfFamily_document_each project
  have hclusters := (forall₂_reread_iff hroot d1 fun x hx node hnode =>
    iff_true_intro (Cluster.survives_reread (hplain.clusters x hx) hnode)).mpr fun _ _ => trivial
  have hecus := (forall₂_reread_iff hroot d2 fun x hx node hnode =>
    iff_true_intro (EcuInstance.survives_reread (hplain.ecuInstances x hx) hnode)).mpr
      fun _ _ => trivial
  have hframes := forall₂_reread_iff hroot d3 fun x hx node hnode =>
    Frame.survives_reread_iff (hplain.frames x hx) hnode
  have hpdus := forall₂_reread_iff hroot d4 fun x hx node hnode =>
    Pdu.survives_reread_iff (hplain.pdus x hx) hnode
  have hsignals := @forall₂_reread_iff (Signal D) _ Signal.Survives
    (fun x => x.common.category = none) (fun node => (buildSignal node).1) buildSignalElement _ _ _ _
    hroot d5 fun x hx node hnode => by
      obtain ⟨old, rfl⟩ := exists_build (fun _ _ h => h.signals) hparsed hx
      exact Signal.survives_reread_iff (hplain.signals _ hx) hnode
  have hgroups := forall₂_reread_iff hroot d6 fun x hx node hnode =>
    SignalGroup.survives_reread_iff (hplain.signalGroups x hx) hnode
  rw [← b1] at hclusters
  rw [← b2] at hecus
  rw [← b3] at hframes
  rw [← b4] at hpdus
  rw [← b5] at hsignals
  rw [← b6] at hgroups
  constructor
  · rintro ⟨-, -, f3, f4, f5, f6⟩
    exact ⟨hframes.mp f3, hpdus.mp f4, hsignals.mp f5, hgroups.mp f6⟩
  · rintro ⟨e3, e4, e5, e6⟩
    exact ⟨hclusters, hecus, hframes.mpr e3, hpdus.mpr e4, hsignals.mpr e5, hgroups.mpr e6⟩

/-- For a valid project of parser outputs without ampersands and empty
categories the write succeeds, and what it writes reads back faithfully exactly
when the writer has a place for everything. -/
theorem write_fidelity_iff (hparsed : ∀ file ∈ project.files, ParserOutput file)
    (hvalid : WriteEngine.validate project = ⟨[]⟩) (hwithout : Without '&' project)
    (hcategory : EveryCommon (fun common => common.category ≠ some "") project) :
    ∃ document, WriteEngine.write project = .ok document ∧
      ∀ root, Reloads document root →
        (Fidelity project (buildSubtree root {}) ↔ Expressible project) := by
  have hplain := plainProject_of_parsed hparsed hwithout
  exact ⟨_, write_ok hplain hvalid ⟨hcategory.clusters, hcategory.ecuInstances⟩, fun root hroot =>
    fidelity_reread_iff hparsed hplain hroot⟩

end

/-! ## An instance -/

/-- A document with one PDU that maps one signal in the byte order. -/
def documentOfOrder (order : String) : RawNode :=
  { tagName := "AUTOSAR"
    attributes := [("xsi:schemaLocation", "http://autosar.org/schema/r4.0 AUTOSAR_00046.xsd")]
    children := [{ tagName := "I-SIGNAL-I-PDU", children :=
      [leaf "SHORT-NAME" "Status" [], leaf "LENGTH" "8" [],
        { tagName := "I-SIGNAL-TO-PDU-MAPPINGS", children :=
          [{ tagName := "I-SIGNAL-TO-I-PDU-MAPPING", children :=
            [leaf "I-SIGNAL-REF" "/Sys/Speed" [], leaf "START-POSITION" "0" [],
              leaf "PACKING-BYTE-ORDER" order []] }] }] }] }

/-- The parsed document alone. -/
def projectOfOrder (order : String) : ParsedProject WholeDouble :=
  { files := (parseDocument "<buffer>" (documentOfOrder order)).toOption.toList }

/-- A document with one frame in the category. -/
def documentOfCategory (category : String) : RawNode :=
  { tagName := "AUTOSAR"
    attributes := [("xsi:schemaLocation", "http://autosar.org/schema/r4.0 AUTOSAR_00046.xsd")]
    children := [{ tagName := "CAN-FRAME", children :=
      [leaf "SHORT-NAME" "Brake" [], leaf "CATEGORY" category [], leaf "FRAME-LENGTH" "8" []] }] }

def projectOfCategory (category : String) : ParsedProject WholeDouble :=
  { files := (parseDocument "<buffer>" (documentOfCategory category)).toOption.toList }

namespace Literal

/-- Texts without references are stored as they are. -/
scoped instance : LibXml := ⟨fun text => text⟩

scoped instance : LawfulLibXml := ⟨fun _ _ => rfl⟩

theorem parsed_of_order (order : String) :
    ∀ file ∈ (projectOfOrder order).files, ParserOutput file :=
  fun _ => @parserOutput_of_document _ _ "<buffer>" (documentOfOrder order) _

/-- A frame comes back without its category. -/
theorem category_lost :
    let project := projectOfCategory "SAFETY"
    (∀ file ∈ project.files, ParserOutput file) ∧ WriteEngine.validate project = ⟨[]⟩ ∧
      Without '&' project ∧ EveryCommon (fun common => common.category ≠ some "") project ∧
      ¬ ∃ document, WriteEngine.write project = .ok document ∧
        ∀ root, Reloads document root → Fidelity project (buildSubtree root {}) := by
  intro project
  have hvalid : WriteEngine.validate project = ⟨[]⟩ := by decide +kernel
  have hwithout : Without '&' project := by constructor <;> decide +kernel
  have hcategory : EveryCommon (fun common => common.category ≠ some "") project := by
    constructor <;> decide +kernel
  have hparsed : ∀ file ∈ project.files, ParserOutput file := fun _ =>
    @parserOutput_of_document _ _ "<buffer>" (documentOfCategory "SAFETY") _
  have hplain := plainProject_of_parsed hparsed hwithout
  refine ⟨hparsed, hvalid, hwithout, hcategory, ?_⟩
  rintro ⟨document, hwrite, h⟩
  rw [write_ok hplain hvalid ⟨hcategory.clusters, hcategory.ecuInstances⟩, Except.ok.injEq] at hwrite
  subst hwrite
  have hexpressible := (fidelity_reread_iff hparsed hplain rfl).mp (h _ rfl)
  have hframe : ¬ ∀ frame ∈ collectAll project ParsedFile.frames, frame.common.category = none := by
    decide +kernel
  exact hframe hexpressible.frames

theorem write_fidelity_big_endian :
    let project := projectOfOrder "MOST-SIGNIFICANT-BYTE-FIRST"
    ∃ document, WriteEngine.write project = .ok document ∧
      ∀ root, Reloads document root → Fidelity project (buildSubtree root {}) := by
  intro project
  obtain ⟨document, hwrite, hfidelity⟩ := write_fidelity_iff (parsed_of_order _)
    (by decide +kernel : WriteEngine.validate project = ⟨[]⟩) (by constructor <;> decide +kernel)
    (by constructor <;> decide +kernel)
  have hexpressible : Expressible project := by constructor <;> decide +kernel
  exact ⟨document, hwrite, fun root hroot => (hfidelity root hroot).mpr hexpressible⟩

end Literal

end ParseX

import ParseX.Write.WrittenPaths

/-! # Texts of the written document

Every name, category and reference that the writer hands to libxml2, and what a reader of the
saved document finds in its place. -/
namespace ParseX
open Cpp

/-! ## The texts handed over -/

/-- The texts of mappings: a name, and a reference unless it is empty. -/
def mappingTexts (owner : String) (refs : List String) : List String :=
  refs.zipIdx.flatMap fun (ref, idx) =>
    mappingShortName owner ref idx :: if ref = "" then [] else ["/Sys/" ++ ref]

def Cluster.givenTexts (value : Cluster) : List String :=
  value.common.texts ++ sortedStrings value.physicalChannels

def EcuInstance.givenTexts (value : EcuInstance) : List String :=
  value.common.texts ++ sortedStrings value.controllers

def Frame.givenTexts (value : Frame) : List String :=
  value.common.shortName :: mappingTexts value.common.shortName
    ((sortedFramePduMappings value.pdus).map FramePduMapping.pduShortNameRef)

def Pdu.givenTexts (value : Pdu) : List String :=
  value.common.shortName :: mappingTexts value.common.shortName
    ((sortedPduSignalMappings value.signalMappings).map PduSignalMapping.signalShortNameRef)

def SignalGroup.givenTexts (value : SignalGroup) : List String :=
  value.common.shortName :: (sortedStrings value.members).map ("/Sys/" ++ ·)

section
variable {D : Type} [Double D]

def Signal.givenTexts (value : Signal D) : List String :=
  value.common.shortName :: if value.isSigned then ["/SwBaseType/SINT8"] else []

/-- Every name, category and reference that the writer is given, in document order. -/
def givenTexts (project : ParsedProject D) : List String :=
  "Sys" ::
  ((sortedCopy (collectAll project ParsedFile.clusters)).flatMap Cluster.givenTexts ++
  (sortedCopy (collectAll project ParsedFile.ecuInstances)).flatMap EcuInstance.givenTexts ++
  (sortedCopy (collectAll project ParsedFile.frames)).flatMap Frame.givenTexts ++
  (sortedCopy (collectAll project ParsedFile.pdus)).flatMap Pdu.givenTexts ++
  (sortedCopy (collectAll project ParsedFile.signals)).flatMap Signal.givenTexts ++
  (sortedCopy (collectAll project ParsedFile.signalGroups)).flatMap SignalGroup.givenTexts)

end

/-! ## The texts read back -/

/-- The elements that hold a name, a category or a reference. -/
def textTags : List String :=
  ["SHORT-NAME", "CATEGORY", "PDU-REF", "I-SIGNAL-REF", "BASE-TYPE-REF"]

/-- The trimmed texts of these elements, in document order. -/
def storedTexts (root : RawNode) : List String :=
  (root.nodes.filter fun node => textTags.contains node.tagName).map fun node => trimText node.text

theorem storedTexts_bare (root : RawNode) : storedTexts root.bare = storedTexts root := by
  rw [storedTexts, nodes_bare, List.filter_map, List.map_map]
  simp only [Function.comp_def, RawNode.bare_tagName, RawNode.bare_text, trimText_trimText]
  rfl

theorem storedTexts_eq (node : RawNode) : storedTexts node =
    (if textTags.contains node.tagName then [trimText node.text] else []) ++
      node.children.flatMap storedTexts := by
  rw [storedTexts, RawNode.nodes_eq, List.filter_cons, List.filter_flatMap]
  split
  · rw [List.map_cons, List.map_flatMap]
    rfl
  · rw [List.map_flatMap]
    rfl

/-- The texts below the children of an element. -/
def childTexts (children : List XmlNode) : List String :=
  children.flatMap fun child => storedTexts child.raw

@[simp] theorem childTexts_nil : childTexts [] = [] := rfl

@[simp] theorem childTexts_cons (child : XmlNode) (rest : List XmlNode) :
    childTexts (child :: rest) = storedTexts child.raw ++ childTexts rest := List.flatMap_cons

@[simp] theorem childTexts_append (front back : List XmlNode) :
    childTexts (front ++ back) = childTexts front ++ childTexts back := List.flatMap_append

theorem storedTexts_raw (node : XmlNode) : storedTexts node.raw =
    (if textTags.contains node.name then [trimText (node.content.getD "")] else []) ++
      childTexts node.children := by
  rw [storedTexts_eq, XmlNode.raw_eq, List.flatMap_map]
  rfl

/-- An element that holds no such text itself. -/
theorem storedTexts_other {node : XmlNode} (h : textTags.contains node.name = false) :
    storedTexts node.raw = childTexts node.children := by
  rw [storedTexts_raw, h]
  rfl

theorem childTexts_wrapper {empty : Bool} {tagName : String} {children : List XmlNode}
    (htag : textTags.contains tagName = false) (hempty : empty = true → childTexts children = []) :
    childTexts (wrapperUnless empty tagName children) = childTexts children := by
  cases empty with
  | true => exact (hempty rfl).symm
  | false =>
    rw [wrapperUnless, if_neg (by decide), childTexts_cons, storedTexts_other htag, childTexts_nil,
      List.append_nil]

section
variable [LibXml]

/-- What is read back in place of a text. -/
def rereadText (text : String) : String := trimText (LibXml.setContent text)

theorem storedTexts_textChild {tagName : String} (h : textTags.contains tagName = true) (text : String) :
    storedTexts (textChild tagName text).raw = [rereadText text] := by
  rw [storedTexts_raw, textChild, if_pos h]
  rfl

theorem storedTexts_number {tagName : String} (h : textTags.contains tagName = false) (text : String) :
    storedTexts (textChild tagName text).raw = [] :=
  storedTexts_other h

theorem storedTexts_refChild {tagName dest : String} (h : textTags.contains tagName = true)
    (text : String) : storedTexts (refChild tagName dest text).raw = [rereadText text] := by
  rw [storedTexts_raw, refChild, setSortedAttributes, if_pos h]
  rfl

/-- Elements that hold the texts given for their items. -/
theorem childTexts_map {T : Type} {element : T → XmlNode} {given : T → List String} {items : List T}
    (h : ∀ x, storedTexts (element x).raw = (given x).map rereadText) :
    childTexts (items.map element) = (items.flatMap given).map rereadText := by
  rw [childTexts, List.flatMap_map, List.map_flatMap]
  simp only [h]

theorem childTexts_named {tagName : String} (h : textTags.contains tagName = false) (names : List String) :
    childTexts (names.map (namedElement tagName)) = names.map rereadText := by
  have hnamed (name : String) : storedTexts (namedElement tagName name).raw = [name].map rereadText := by
    rw [storedTexts_other h, namedElement, childTexts_cons, storedTexts_textChild (by decide)]
    rfl
  rw [childTexts_map hnamed, List.flatMap_singleton']

/-- A name and a category. -/
theorem childTexts_common (common : CommonFields) :
    childTexts (textChild "SHORT-NAME" common.shortName :: optionalTextChild "CATEGORY" common.category) =
      common.texts.map rereadText := by
  rw [childTexts_cons, storedTexts_textChild (by decide), CommonFields.texts, List.map_cons]
  cases common.category with
  | none => rfl
  | some text =>
    show _ :: childTexts [textChild "CATEGORY" text] = _
    rw [childTexts_cons, storedTexts_textChild (by decide)]
    rfl

theorem storedTexts_cluster (value : Cluster) :
    storedTexts (buildClusterElement value).raw = value.givenTexts.map rereadText := by
  have hbaudrate : childTexts (optionalTextChild "BAUDRATE" (value.baudrate.map fun baudrate =>
      toString baudrate.toNat)) = [] := by
    cases value.baudrate with
    | none => rfl
    | some baudrate =>
      show childTexts [textChild "BAUDRATE" _] = []
      rw [childTexts_cons, storedTexts_number (by decide)]
      rfl
  have hchannels : childTexts (wrapperUnless value.physicalChannels.isEmpty "PHYSICAL-CHANNELS"
      ((sortedStrings value.physicalChannels).map (namedElement "CAN-PHYSICAL-CHANNEL"))) =
        (sortedStrings value.physicalChannels).map rereadText := by
    rw [childTexts_wrapper (by decide), childTexts_named (by decide)]
    intro hempty
    rw [List.isEmpty_iff.mp hempty]
    rfl
  have hconditional : childTexts [clusterConditional value] =
      (sortedStrings value.physicalChannels).map rereadText := by
    have hother : textTags.contains (clusterConditional value).name = false := rfl
    rw [childTexts_cons, storedTexts_other hother, clusterConditional, childTexts_append, hbaudrate,
      hchannels]
    simp
  have hother : textTags.contains (buildClusterElement value).name = false := rfl
  rw [storedTexts_other hother, buildClusterElement, childTexts_append, childTexts_common,
    childTexts_wrapper (by decide),
    hconditional, Cluster.givenTexts, List.map_append]
  intro hempty
  obtain ⟨-, hnone⟩ := Bool.and_eq_true_iff.mp hempty
  rw [hconditional, List.isEmpty_iff.mp hnone]
  rfl

theorem storedTexts_ecuInstance (value : EcuInstance) :
    storedTexts (buildEcuInstanceElement value).raw = value.givenTexts.map rereadText := by
  have hother : textTags.contains (buildEcuInstanceElement value).name = false := rfl
  rw [storedTexts_other hother, buildEcuInstanceElement, childTexts_append, childTexts_common,
    childTexts_wrapper (by decide), childTexts_named (by decide), EcuInstance.givenTexts,
    List.map_append]
  intro hempty
  rw [List.isEmpty_iff.mp hempty]
  rfl

/-- A mapping holds its name and its reference. -/
theorem storedTexts_mapping {tagName refTag dest owner ref : String} {startPosition : UInt32} {idx : Nat}
    (htag : textTags.contains tagName = false) (href : textTags.contains refTag = true) :
    storedTexts (mappingElement tagName refTag dest owner ref startPosition idx).raw =
      (mappingShortName owner ref idx :: if ref = "" then [] else ["/Sys/" ++ ref]).map rereadText := by
  rw [storedTexts_other htag, mappingElement, List.cons_append, childTexts_cons,
    storedTexts_textChild (by decide), childTexts_append, childTexts_cons,
    storedTexts_number (by decide)]
  split
  · rfl
  · rw [childTexts_cons, storedTexts_refChild href]
    rfl

/-- The mappings of an owner, sorted and counted. -/
theorem childTexts_mappings {M : Type} {key : M → String} {mappings : List M} {owner : String}
    {element : M × Nat → XmlNode} (h : ∀ item, storedTexts (element item).raw =
      (mappingShortName owner (key item.1) item.2 ::
        if key item.1 = "" then [] else ["/Sys/" ++ key item.1]).map rereadText) :
    childTexts (mappings.zipIdx.map element) =
      (mappingTexts owner (mappings.map key)).map rereadText := by
  rw [childTexts_map h, mappingTexts, List.zipIdx_map, List.flatMap_map]
  rfl

omit [LibXml] in
theorem isEmpty_eq_true_stableSort {M : Type} {key : M → String} {mappings : List M}
    (h : mappings.isEmpty = true) : stableSort key mappings = [] := by
  rw [List.isEmpty_iff.mp h]
  rfl

theorem storedTexts_frame (value : Frame) :
    storedTexts (buildFrameElement value).raw = value.givenTexts.map rereadText := by
  have hmapping (item : FramePduMapping × Nat) :
      storedTexts (frameMappingElement value.common.shortName item).raw =
        (mappingShortName value.common.shortName item.1.pduShortNameRef item.2 ::
          if item.1.pduShortNameRef = "" then [] else ["/Sys/" ++ item.1.pduShortNameRef]).map rereadText :=
    storedTexts_mapping (by decide) (by decide)
  have hother : textTags.contains (buildFrameElement value).name = false := rfl
  rw [storedTexts_other hother, buildFrameElement, childTexts_cons, childTexts_cons,
    storedTexts_textChild (by decide), storedTexts_number (by decide), childTexts_wrapper (by decide),
    childTexts_mappings hmapping]
  · rfl
  · intro hempty
    rw [sortedFramePduMappings, isEmpty_eq_true_stableSort hempty]
    rfl

theorem storedTexts_pdu (value : Pdu) :
    storedTexts (buildPduElement value).raw = value.givenTexts.map rereadText := by
  have hmapping (item : PduSignalMapping × Nat) :
      storedTexts (pduMappingElement value.common.shortName item).raw =
        (mappingShortName value.common.shortName item.1.signalShortNameRef item.2 ::
          if item.1.signalShortNameRef = "" then [] else
            ["/Sys/" ++ item.1.signalShortNameRef]).map rereadText :=
    storedTexts_mapping (by decide) (by decide)
  have hother : textTags.contains (buildPduElement value).name = false := rfl
  rw [storedTexts_other hother, buildPduElement, childTexts_cons, childTexts_cons,
    storedTexts_textChild (by decide), storedTexts_number (by decide), childTexts_wrapper (by decide),
    childTexts_mappings hmapping]
  · rfl
  · intro hempty
    rw [sortedPduSignalMappings, isEmpty_eq_true_stableSort hempty]
    rfl

theorem storedTexts_signal {D : Type} [Double D] (value : Signal D) :
    storedTexts (buildSignalElement value).raw = value.givenTexts.map rereadText := by
  have hinit : childTexts (value.initValue.map fun initValue =>
      ({ name := "INIT-VALUE", children := [{ name := "NUMERICAL-VALUE-SPECIFICATION", children :=
        [textChild "VALUE" (Double.print17 initValue)] }] } : XmlNode)).toList = [] := by
    cases value.initValue with
    | none => rfl
    | some initValue => rfl
  have hother : textTags.contains (buildSignalElement value).name = false := rfl
  rw [storedTexts_other hother, buildSignalElement, childTexts_append, childTexts_cons, hinit,
    storedTexts_textChild (by decide), childTexts_cons, storedTexts_number (by decide),
    Signal.givenTexts]
  cases value.isSigned with
  | false => rfl
  | true => rfl

theorem storedTexts_signalGroup (value : SignalGroup) :
    storedTexts (buildSignalGroupElement value).raw = value.givenTexts.map rereadText := by
  have hmember (member : String) :
      storedTexts (refChild "I-SIGNAL-REF" "I-SIGNAL" ("/Sys/" ++ member)).raw =
        ["/Sys/" ++ member].map rereadText := storedTexts_refChild (by decide) _
  have hother : textTags.contains (buildSignalGroupElement value).name = false := rfl
  rw [storedTexts_other hother, buildSignalGroupElement, childTexts_cons,
    storedTexts_textChild (by decide), childTexts_wrapper (by decide), childTexts_map hmember,
    SignalGroup.givenTexts, List.map_cons, ← List.map_eq_flatMap]
  · rfl
  · intro hempty
    rw [sortedStrings, isEmpty_eq_true_stableSort hempty]
    rfl

/-- **In place of every text its own reading stands.** -/
theorem storedTexts_buildDocument {D : Type} [Double D] (project : ParsedProject D) :
    storedTexts (buildDocument project).root.raw = (givenTexts project).map rereadText := by
  have helements : childTexts (writeElements project) =
      ((givenTexts project).tail).map rereadText := by
    simp only [writeElements, childTexts_append, childTexts_map storedTexts_cluster,
      childTexts_map storedTexts_ecuInstance, childTexts_map storedTexts_frame,
      childTexts_map storedTexts_pdu, childTexts_map storedTexts_signal,
      childTexts_map storedTexts_signalGroup, givenTexts, List.tail_cons, List.map_append]
  have hpackages : storedTexts (buildDocument project).root.raw =
      rereadText "Sys" :: childTexts (writeElements project) := by
    rw [buildDocument, forRelease]
    simp [storedTexts_raw, textChild, textTags, rereadText]
  rw [hpackages, helements]
  rfl

end

end ParseX

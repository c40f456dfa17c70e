import ParseX.Parser.BareTree
import ParseX.Parser.Literals
import ParseX.Write.RawTree
import ParseX.Write.WriteEngine

/-! # Reading back written elements

Every builder of the parser applied to the element the writer makes of a
value. -/
namespace ParseX
open Cpp

/-- The document was saved and loaded: the same elements with the same texts,
indentation aside. -/
def Reloads (document : XmlDocument) (root : RawNode) : Prop := root.bare = document.root.raw.bare

theorem isEmpty_zipIdx {T : Type} {items sorted : List T} (hperm : sorted.Perm items) :
    items.isEmpty = sorted.zipIdx.isEmpty := by
  rw [Bool.eq_iff_iff, List.isEmpty_iff, List.isEmpty_iff, List.zipIdx_eq_nil_iff]
  exact ⟨fun h => (h ▸ hperm).eq_nil, fun h => (h ▸ hperm).symm.eq_nil⟩

section
variable [LibXml]

/-- A text that the writer stores and the reader trims to itself. -/
def PlainText (text : String) : Prop := IsTrimmed text ∧ '&' ∉ text.toList

/-- A reference name that the writer stores as it is. -/
def PlainRef (name : String) : Prop := IsRefName name ∧ '&' ∉ name.toList

variable [LawfulLibXml]

theorem setContent_toString (n : Nat) : LibXml.setContent (toString n) = toString n :=
  LawfulLibXml.setContent_plain _ (not_mem_toString_nat (by decide))

theorem setContent_plainText {text : String} (h : PlainText text) :
    trimText (LibXml.setContent text) = text := by
  rw [LawfulLibXml.setContent_plain text h.2]
  exact h.1

/-- A reference below the package `Sys` reads back as its name. -/
theorem shortNameOfRef_sys {name : String} (h : PlainRef name) :
    shortNameOfRef (LibXml.setContent ("/Sys/" ++ name)) = name := by
  rw [LawfulLibXml.setContent_plain]
  · exact shortNameOfRef_path h.1 (show "/Sys/".toList = '/' :: (['S', 'y', 's'] ++ ['/']) from rfl)
  · rw [String.toList_append, List.mem_append]
    rintro (hs | hs)
    · exact absurd hs (by decide)
    · exact h.2 hs

/-! ## Mappings -/

section
variable {tagName refTag dest owner ref : String} {startPosition : UInt32} {idx : Nat}

theorem raw_mappingElement : (mappingElement tagName refTag dest owner ref startPosition idx).raw =
    ⟨tagName, [], "", {}, leaf "SHORT-NAME" (LibXml.setContent (mappingShortName owner ref idx)) [] ::
      ((if ref = "" then [] else
        [leaf refTag (LibXml.setContent ("/Sys/" ++ ref)) [("DEST", dest)]]) ++
        [leaf "START-POSITION" (toString startPosition.toNat) []])⟩ := by
  rw [mappingElement, XmlNode.raw, rawOf_eq]
  by_cases h : ref = "" <;> simp [h, setContent_toString, -Nat.toString_eq_repr]

theorem childText_mapping_ref (hne : refTag ≠ "SHORT-NAME" ∧ refTag ≠ "START-POSITION")
    (href : PlainRef ref) :
    (((childText (mappingElement tagName refTag dest owner ref startPosition idx).raw refTag).map
      shortNameOfRef).getD "") = ref := by
  rw [raw_mappingElement]
  by_cases h : ref = ""
  · simp [childText, findChild, h, hne.1.symm, hne.2.symm]
  · simp [childText, findChild, h, hne.1.symm, shortNameOfRef_sys href]

theorem childText_mapping_start (hne : refTag ≠ "START-POSITION") :
    childUint32 (mappingElement tagName refTag dest owner ref startPosition idx).raw
      "START-POSITION" 0 = startPosition := by
  rw [raw_mappingElement]
  by_cases h : ref = "" <;>
    simp [childUint32, childText, findChild, h, hne, parseUint32_toString, -Nat.toString_eq_repr]

theorem childText_mapping_absent {tag : String}
    (h : tag ∉ ["SHORT-NAME", refTag, "START-POSITION"]) :
    childText (mappingElement tagName refTag dest owner ref startPosition idx).raw tag = none := by
  simp only [List.mem_cons, List.not_mem_nil, or_false, not_or, ← ne_eq] at h
  obtain ⟨hname, href, hstart⟩ := h
  rw [raw_mappingElement]
  by_cases h : ref = "" <;> simp [childText, findChild, h, hname.symm, href.symm, hstart.symm]

theorem collectDescendants_mapping {tag : String} (hname : "SHORT-NAME" ≠ tag) (href : refTag ≠ tag)
    (hstart : "START-POSITION" ≠ tag) :
    collectDescendants tag
      (mappingElement tagName refTag dest owner ref startPosition idx).raw = [] := by
  rw [raw_mappingElement]
  by_cases h : ref = "" <;> simp [h, hname, href, hstart]

end

/-! ## Named elements -/

/-- Named elements of one tag, found and read. -/
theorem directShortNames_named {tag : String} {names : List String} (htag : "SHORT-NAME" ≠ tag)
    (h : ∀ name ∈ names, PlainText name ∧ name ≠ "") :
    directShortNames (collectDescendantsOf tag ((names.map (namedElement tag)).map XmlNode.raw)) =
      names := by
  rw [List.map_map, collectDescendantsOf_all names (fun name => by
    rw [Function.comp_apply, raw_namedElement]) (fun name => by
    rw [Function.comp_apply, raw_namedElement]; simp [htag])]
  have hread : ∀ name ∈ names, childText (namedElement tag name).raw "SHORT-NAME" = some name := by
    intro name hname
    simp [childText, findChild, raw_namedElement, setContent_plainText (h name hname).1]
  rw [directShortNames, List.filterMap_map, Function.comp_def]
  simp only [Function.comp_apply]
  rw [List.filterMap_congr hread, List.filterMap_some]
  exact List.filter_eq_self.mpr fun name hname => by simp [(h name hname).2]

/-! ## Headers -/

section
variable {tagName shortName : String} {category : Option String} {rest : List RawNode}

theorem childText_category (hplain : ∀ text ∈ category, PlainText text)
    (hrest : rest.find? (fun child => child.tagName == "CATEGORY") = none) :
    childText ⟨tagName, [], "", {}, leaf "SHORT-NAME" shortName [] :: ((category.map fun text =>
      leaf "CATEGORY" (LibXml.setContent text) []).toList ++ rest)⟩ "CATEGORY" = category := by
  cases category with
  | none => simpa [childText, findChild] using hrest
  | some text => simp [childText, findChild, setContent_plainText (hplain text rfl)]

end

/-! ## Clusters -/

/-- The texts of a cluster can be written and read. -/
structure Cluster.Plain (value : Cluster) : Prop where
  shortName : PlainText value.common.shortName
  category : ∀ category ∈ value.common.category, PlainText category
  physicalChannels : ∀ channel ∈ value.physicalChannels, PlainText channel ∧ channel ≠ ""

/-- The searches of `buildCluster` end in the conditional part. -/
theorem findDescendants_cluster (value : Cluster) {tag : String} (h : tag ∉ ["SHORT-NAME",
    "CATEGORY", "CAN-CLUSTER-VARIANTS", "CAN-CLUSTER-CONDITIONAL", "PHYSICAL-CHANNELS"]) :
    findDescendants (buildClusterElement value).raw tag =
      collectDescendantsOf tag (value.baudrate.map fun baudrate =>
        leaf "BAUDRATE" (toString baudrate.toNat) []).toList ++
      collectDescendantsOf tag (((sortedStrings value.physicalChannels).map
        (namedElement "CAN-PHYSICAL-CHANNEL")).map XmlNode.raw) := by
  simp only [List.mem_cons, List.not_mem_nil, or_false, not_or, ← ne_eq] at h
  obtain ⟨hname, hcategory, hvariants, hconditional, hchannels⟩ := h
  have hinner : collectDescendantsOf tag ([clusterConditional value].map XmlNode.raw) =
      collectDescendantsOf tag (value.baudrate.map fun baudrate =>
        leaf "BAUDRATE" (toString baudrate.toNat) []).toList ++
      collectDescendantsOf tag (((sortedStrings value.physicalChannels).map
        (namedElement "CAN-PHYSICAL-CHANNEL")).map XmlNode.raw) := by
    simp only [List.map_cons, List.map_nil, clusterConditional, XmlNode.raw, rawOf_eq,
      List.map_append, map_raw_optionalTextChild, Option.map_map, Function.comp_def,
      setContent_toString, collectDescendantsOf_cons, collectDescendantsOf_nil,
      collectDescendants_mk, collectDescendantsOf_append, beq_iff_eq, hconditional.symm, if_false,
      List.nil_append, List.append_nil]
    rw [collectDescendantsOf_wrapper hchannels.symm fun hempty => ?_]
    rw [List.isEmpty_iff.mp hempty]
    rfl
  rw [findDescendants, raw_buildClusterElement, collectDescendants_mk, collectDescendantsOf_cons,
    collectDescendantsOf_append, collectDescendantsOf_option _ _ hcategory.symm,
    collectDescendantsOf_wrapper hvariants.symm, hinner]
  · simp [hname.symm]
  · intro hempty
    rw [Bool.and_eq_true, Option.isNone_iff_eq_none, List.isEmpty_iff] at hempty
    rw [hinner, hempty.1, hempty.2]
    rfl

/-- A written cluster reads back whole. -/
theorem buildCluster_element {value : Cluster} (h : value.Plain) :
    (buildCluster (buildClusterElement value).raw).1 =
      { value with
        common := value.common.bare
        physicalChannels := sortedStrings value.physicalChannels } := by
  have hname : childText (buildClusterElement value).raw "SHORT-NAME" =
      some value.common.shortName := by
    simp [childText, findChild, raw_buildClusterElement, setContent_plainText h.shortName]
  have hcategory : childText (buildClusterElement value).raw "CATEGORY" = value.common.category := by
    rw [raw_buildClusterElement]
    exact childText_category h.category (find_wrapper (by decide))
  have hbaudrate : childText (buildClusterElement value).raw "BAUDRATE" = none := by
    rw [raw_buildClusterElement, childText, Option.map_eq_none_iff]
    exact find_after_header (by decide) (by decide) (find_wrapper (by decide))
  have hfound : (findDescendant (buildClusterElement value).raw "BAUDRATE").map (fun found =>
      trimText found.text) = value.baudrate.map fun baudrate => toString baudrate.toNat := by
    rw [findDescendant, findDescendants_cluster value (by decide),
      collectDescendantsOf_named _ (by decide) (by decide)]
    cases value.baudrate <;> simp [-Nat.toString_eq_repr]
  have hchannels : channelShortNames (buildClusterElement value).raw =
      sortedStrings value.physicalChannels := by
    rw [channelShortNames, findDescendants_cluster value (by decide),
      findDescendants_cluster value (by decide), collectDescendantsOf_option _ _ (by decide),
      collectDescendantsOf_option _ _ (by decide),
      collectDescendantsOf_named _ (by decide) (by decide), List.nil_append, List.nil_append,
      directShortNames_named (by decide) fun name hmem =>
        h.physicalChannels name (mem_sortedStrings.mp hmem)]
    rfl
  have hread : (baudrateText (buildClusterElement value).raw).bind parseUint32 = value.baudrate := by
    simp only [baudrateText, hbaudrate, hfound]
    cases value.baudrate with
    | none => rfl
    | some baudrate => rw [Option.map_some, Option.bind_some, parseUint32_toString]
  simp only [buildCluster, populateCommonFields, extractShortName, hname, hcategory, hchannels,
    hread, Option.getD_some, CommonFields.bare, raw_span]

/-! ## ECU instances -/

/-- The texts of an ECU instance can be written and read. -/
structure EcuInstance.Plain (value : EcuInstance) : Prop where
  shortName : PlainText value.common.shortName
  category : ∀ category ∈ value.common.category, PlainText category
  controllers : ∀ controller ∈ value.controllers, PlainText controller ∧ controller ≠ ""

/-- A written ECU instance reads back without its channels. -/
theorem buildEcuInstance_element {value : EcuInstance} (h : value.Plain) :
    (buildEcuInstance (buildEcuInstanceElement value).raw).1 =
      { common := value.common.bare, controllers := sortedStrings value.controllers } := by
  have hname : childText (buildEcuInstanceElement value).raw "SHORT-NAME" =
      some value.common.shortName := by
    simp [childText, findChild, raw_buildEcuInstanceElement, setContent_plainText h.shortName]
  have hcategory : childText (buildEcuInstanceElement value).raw "CATEGORY" =
      value.common.category := by
    rw [raw_buildEcuInstanceElement]
    exact childText_category h.category (find_wrapper (by decide))
  have hcontrollers : controllerShortNames (buildEcuInstanceElement value).raw =
      sortedStrings value.controllers := by
    rw [controllerShortNames, findDescendants_ecu value (by decide),
      findDescendants_ecu value (by decide), collectDescendantsOf_named _ (by decide) (by decide),
      directShortNames_named (by decide) fun name hmem =>
        h.controllers name (mem_sortedStrings.mp hmem)]
    rfl
  have hchannels : refShortNames (buildEcuInstanceElement value).raw "CHANNEL-REF" = [] := by
    rw [refShortNames, findDescendants_ecu value (by decide),
      collectDescendantsOf_named _ (by decide) (by decide)]
    rfl
  simp only [buildEcuInstance, populateCommonFields, extractShortName, hname, hcategory,
    hcontrollers, hchannels, Option.getD_some, CommonFields.bare, raw_span]

/-! ## Frames and PDUs -/

/-- The texts of a frame can be written and read. -/
structure Frame.Plain (value : Frame) : Prop where
  shortName : PlainText value.common.shortName
  pdus : ∀ mapping ∈ value.pdus, PlainRef mapping.pduShortNameRef

/-- The texts of a PDU can be written and read. -/
structure Pdu.Plain (value : Pdu) : Prop where
  shortName : PlainText value.common.shortName
  signalMappings : ∀ mapping ∈ value.signalMappings, PlainRef mapping.signalShortNameRef

theorem tagName_frameMappingElement (owner : String) (item : FramePduMapping × Nat) :
    (frameMappingElement owner item).raw.tagName = "PDU-TO-FRAME-MAPPING" := by
  rw [frameMappingElement, raw_mappingElement]

theorem tagName_pduMappingElement (owner : String) (item : PduSignalMapping × Nat) :
    (pduMappingElement owner item).raw.tagName = "I-SIGNAL-TO-I-PDU-MAPPING" := by
  rw [pduMappingElement, raw_mappingElement]

theorem below_frameMappingElement {owner tag : String} (item : FramePduMapping × Nat)
    (h : tag ∉ ["SHORT-NAME", "PDU-REF", "START-POSITION"]) :
    collectDescendants tag (frameMappingElement owner item).raw = [] := by
  simp only [List.mem_cons, List.not_mem_nil, or_false, not_or, ← ne_eq] at h
  exact collectDescendants_mapping h.1.symm h.2.1.symm h.2.2.symm

theorem below_pduMappingElement {owner tag : String} (item : PduSignalMapping × Nat)
    (h : tag ∉ ["SHORT-NAME", "I-SIGNAL-REF", "START-POSITION"]) :
    collectDescendants tag (pduMappingElement owner item).raw = [] := by
  simp only [List.mem_cons, List.not_mem_nil, or_false, not_or, ← ne_eq] at h
  exact collectDescendants_mapping h.1.symm h.2.1.symm h.2.2.symm

theorem raw_buildFrameElement (value : Frame) : (buildFrameElement value).raw =
    sizedNode "CAN-FRAME" (LibXml.setContent value.common.shortName) "FRAME-LENGTH"
      (toString value.length.toNat) "PDU-TO-FRAME-MAPPINGS"
      (sortedFramePduMappings value.pdus).zipIdx (frameMappingElement value.common.shortName) := by
  rw [buildFrameElement, XmlNode.raw, rawOf_eq, List.map_cons, List.map_cons, raw_textChild,
    raw_textChild, setContent_toString,
    isEmpty_zipIdx (List.perm_insertionSort (fun a b => FramePduMapping.pduShortNameRef a ≤
      FramePduMapping.pduShortNameRef b) value.pdus)]
  rfl

/-- A written frame reads back without its category and transmitters. -/
theorem buildFrame_element {value : Frame} (h : value.Plain) :
    (buildFrame (buildFrameElement value).raw).1 =
      { common := { shortName := value.common.shortName }
        length := value.length
        pdus := sortedFramePduMappings value.pdus } := by
  have hname : childText (buildFrameElement value).raw "SHORT-NAME" =
      some value.common.shortName := by
    rw [raw_buildFrameElement, childText_sized_shortName, setContent_plainText h.shortName]
  have hcategory : childText (buildFrameElement value).raw "CATEGORY" = none := by
    rw [childText, raw_buildFrameElement, findChild_sized_none (by decide)]
    rfl
  have hlength : childUint32 (buildFrameElement value).raw "LENGTH"
      (childUint32 (buildFrameElement value).raw "FRAME-LENGTH" 0) = value.length := by
    rw [childUint32, childUint32, childText, raw_buildFrameElement,
      findChild_sized_none (by decide), childText_sized_length (by decide)]
    simp only [Option.map_none, trimText_toString_nat, parseUint32_toString, Option.getD_some]
  have hother : ∀ tag : String, tag ∉ ["SHORT-NAME", "FRAME-LENGTH", "PDU-TO-FRAME-MAPPINGS"] →
      tag ∉ ["SHORT-NAME", "PDU-REF", "START-POSITION"] → tag ≠ "PDU-TO-FRAME-MAPPING" →
      findDescendants (buildFrameElement value).raw tag = [] := by
    intro tag houter hinner hne
    rw [raw_buildFrameElement, findDescendants_sized houter]
    exact collectDescendantsOf_none _ (fun item => (tagName_frameMappingElement _ item).trans_ne
      hne.symm) fun item => below_frameMappingElement item hinner
  have htransmitters : refShortNames (buildFrameElement value).raw "TRANSMITTER-REF" = [] := by
    rw [refShortNames, hother _ (by decide) (by decide) (by decide)]
    rfl
  have hpdus : (findDescendants (buildFrameElement value).raw "FRAME-PDU" ++
      findDescendants (buildFrameElement value).raw "PDU-TO-FRAME-MAPPING").map
        buildFramePduMapping = sortedFramePduMappings value.pdus := by
    rw [hother _ (by decide) (by decide) (by decide), List.nil_append, raw_buildFrameElement,
      findDescendants_sized (by decide), collectDescendantsOf_all _
        (tagName_frameMappingElement _) (below_frameMappingElement · (by decide)), List.map_map]
    refine Eq.trans (List.map_congr_left fun item hitem => ?_) (List.zipIdx_map_fst 0 _)
    have href := h.pdus item.1 ((List.mem_insertionSort _).mp (List.fst_mem_of_mem_zipIdx hitem))
    rw [Function.comp_apply, frameMappingElement, buildFramePduMapping,
      childText_mapping_ref (by decide) href, childText_mapping_start (by decide)]
  simp only [buildFrame, populateCommonFields, extractShortName, hname, hcategory, hlength,
    htransmitters, hpdus, Option.getD_some, raw_span]

theorem raw_buildPduElement (value : Pdu) : (buildPduElement value).raw =
    sizedNode "I-SIGNAL-I-PDU" (LibXml.setContent value.common.shortName) "LENGTH"
      (toString value.length.toNat) "I-SIGNAL-TO-PDU-MAPPINGS"
      (sortedPduSignalMappings value.signalMappings).zipIdx
      (pduMappingElement value.common.shortName) := by
  rw [buildPduElement, XmlNode.raw, rawOf_eq, List.map_cons, List.map_cons, raw_textChild,
    raw_textChild, setContent_toString,
    isEmpty_zipIdx (List.perm_insertionSort (fun a b => PduSignalMapping.signalShortNameRef a ≤
      PduSignalMapping.signalShortNameRef b) value.signalMappings)]
  rfl

/-- A written PDU reads back without its category and byte orders. -/
theorem buildPdu_element {value : Pdu} (h : value.Plain) :
    (buildPdu (buildPduElement value).raw).1 =
      { common := { shortName := value.common.shortName }
        length := value.length
        signalMappings := (sortedPduSignalMappings value.signalMappings).map fun mapping =>
          { mapping with byteOrder := .mostSignificantByteFirst } } := by
  have hname : childText (buildPduElement value).raw "SHORT-NAME" =
      some value.common.shortName := by
    rw [raw_buildPduElement, childText_sized_shortName, setContent_plainText h.shortName]
  have hcategory : childText (buildPduElement value).raw "CATEGORY" = none := by
    rw [childText, raw_buildPduElement, findChild_sized_none (by decide)]
    rfl
  have hlength : childUint32 (buildPduElement value).raw "LENGTH" 0 = value.length := by
    rw [childUint32, raw_buildPduElement, childText_sized_length (by decide)]
    simp only [trimText_toString_nat, parseUint32_toString, Option.getD_some]
  have hother : findDescendants (buildPduElement value).raw "PDU-SIGNAL-MAPPING" = [] := by
    rw [raw_buildPduElement, findDescendants_sized (by decide)]
    exact collectDescendantsOf_none _ (fun item => (tagName_pduMappingElement _ item).trans_ne
      (by decide)) (below_pduMappingElement · (by decide))
  have hmappings : (signalMappingNodes (buildPduElement value).raw).map buildPduSignalMapping =
      (sortedPduSignalMappings value.signalMappings).map fun mapping =>
        { mapping with byteOrder := .mostSignificantByteFirst } := by
    rw [signalMappingNodes, hother, List.nil_append, raw_buildPduElement,
      findDescendants_sized (by decide), collectDescendantsOf_all _
        (tagName_pduMappingElement _) (below_pduMappingElement · (by decide)), List.map_map]
    conv_rhs => rw [← List.zipIdx_map_fst 0 (sortedPduSignalMappings value.signalMappings),
      List.map_map]
    apply List.map_congr_left
    intro item hitem
    have href := h.signalMappings item.1
      ((List.mem_insertionSort _).mp (List.fst_mem_of_mem_zipIdx hitem))
    have habsent : ∀ tag : String, tag ∉ ["SHORT-NAME", "I-SIGNAL-REF", "START-POSITION"] →
        childText (pduMappingElement value.common.shortName item).raw tag = none := by
      intro tag h
      exact childText_mapping_absent h
    have hstart : childUint32 (pduMappingElement value.common.shortName item).raw
        "START-POSITION" 0 = item.1.startPosition := childText_mapping_start (by decide)
    have hname : ((childText (pduMappingElement value.common.shortName item).raw
        "I-SIGNAL-REF").map shortNameOfRef).getD "" = item.1.signalShortNameRef :=
      childText_mapping_ref (by decide) href
    simp only [Function.comp_apply, buildPduSignalMapping, habsent "SIGNAL-REF" (by decide),
      habsent "BYTE-ORDER" (by decide), habsent "PACKING-BYTE-ORDER" (by decide), hstart,
      Option.orElse_none, hname]
    rfl
  simp only [buildPdu, populateCommonFields, extractShortName, hname, hcategory, hlength,
    hmappings, Option.getD_some, raw_span]

/-! ## Signals and groups -/

/-- The texts of a signal can be written and read, and so can its initial value. -/
structure Signal.Plain {D : Type} [Double D] (value : Signal D) : Prop where
  shortName : PlainText value.common.shortName
  initValue : ∀ initValue ∈ value.initValue, Readable initValue

/-- The texts of a group can be written and read. -/
structure SignalGroup.Plain (value : SignalGroup) : Prop where
  shortName : PlainText value.common.shortName
  members : ∀ member ∈ value.members, PlainRef member ∧ member ≠ ""

theorem setContent_print17 {D : Type} [Double D] [LawfulDouble D] (d : D) :
    LibXml.setContent (Double.print17 d) = Double.print17 d :=
  LawfulLibXml.setContent_plain _ fun h =>
    absurd (LawfulDouble.print17_chars d _ h) (by decide)

section
variable {D : Type} [Double D] [LawfulDouble D]

theorem raw_buildSignalElement (value : Signal D) :
    (buildSignalElement value).raw = ⟨"I-SIGNAL", [], "", {},
      leaf "SHORT-NAME" (LibXml.setContent value.common.shortName) [] ::
        ((value.initValue.map initValueNode).toList ++
          leaf "LENGTH" (toString value.bitLength.toNat) [] ::
            if value.isSigned then [signedBaseTypeNode] else [])⟩ := by
  have hbase : LibXml.setContent "/SwBaseType/SINT8" = "/SwBaseType/SINT8" :=
    LawfulLibXml.setContent_plain _ (by decide)
  rw [buildSignalElement, XmlNode.raw, rawOf_eq]
  cases value.initValue <;> cases value.isSigned <;>
    simp [XmlNode.raw, rawOf_eq, setContent_print17, setContent_toString, signedBaseType, hbase,
      initValueNode, signedBaseTypeNode, -Nat.toString_eq_repr]

theorem findChild_signal (value : Signal D) {tag : String} (h : tag ∉ ["SHORT-NAME", "INIT-VALUE",
    "LENGTH", "NETWORK-REPRESENTATION-PROPS"]) : findChild (buildSignalElement value).raw tag = none := by
  simp only [List.mem_cons, List.not_mem_nil, or_false, not_or, ← ne_eq] at h
  obtain ⟨h1, h2, h3, h4⟩ := h
  rw [raw_buildSignalElement]
  cases value.initValue <;> cases value.isSigned <;>
    simp [findChild, initValueNode, signedBaseTypeNode, h1.symm, h2.symm, h3.symm, h4.symm]

theorem findChild_signal_initValue (value : Signal D) :
    findChild (buildSignalElement value).raw "INIT-VALUE" = value.initValue.map initValueNode := by
  rw [raw_buildSignalElement]
  cases value.initValue <;> cases value.isSigned <;>
    simp [findChild, initValueNode, signedBaseTypeNode]

theorem childText_signal_length (value : Signal D) :
    childText (buildSignalElement value).raw "LENGTH" = some (toString value.bitLength.toNat) := by
  rw [raw_buildSignalElement, childText, findChild]
  cases value.initValue <;> simp [initValueNode, -Nat.toString_eq_repr]

/-- Below a signal only values and base types are searched for. -/
theorem findDescendants_signal (value : Signal D) {tag : String} (h : tag ∉ ["SHORT-NAME",
    "INIT-VALUE", "NUMERICAL-VALUE-SPECIFICATION", "VALUE", "LENGTH", "NETWORK-REPRESENTATION-PROPS",
    "SW-DATA-DEF-PROPS-VARIANTS", "SW-DATA-DEF-PROPS-CONDITIONAL"]) :
    findDescendants (buildSignalElement value).raw tag = if value.isSigned then
      collectDescendantsOf tag [leaf "BASE-TYPE-REF" "/SwBaseType/SINT8" [("DEST", "SW-BASE-TYPE")]]
      else [] := by
  simp only [List.mem_cons, List.not_mem_nil, or_false, not_or, ← ne_eq] at h
  obtain ⟨h1, h2, h3, h4, h5, h6, h7, h8⟩ := h
  rw [raw_buildSignalElement, findDescendants]
  cases value.initValue <;> cases value.isSigned <;>
    simp [initValueNode, signedBaseTypeNode, h1.symm, h2.symm, h3.symm, h4.symm, h5.symm, h6.symm,
      h7.symm, h8.symm]

/-- A written signal reads back its name, length, sign and initial value. -/
theorem buildSignal_element {value : Signal D} (h : value.Plain) :
    (buildSignal (buildSignalElement value).raw : Signal D × List Warning).1 =
      { common := { shortName := value.common.shortName }
        bitLength := value.bitLength
        isSigned := value.isSigned
        initValue := value.initValue } := by
  have hname : childText (buildSignalElement value).raw "SHORT-NAME" =
      some value.common.shortName := by
    simp [childText, findChild, raw_buildSignalElement, setContent_plainText h.shortName]
  have habsent : ∀ tag : String, tag ∉ ["SHORT-NAME", "INIT-VALUE", "LENGTH",
      "NETWORK-REPRESENTATION-PROPS"] → childText (buildSignalElement value).raw tag = none := by
    intro tag htag
    rw [childText, findChild_signal value htag]
    rfl
  have hlength : childUint32 (buildSignalElement value).raw "BIT-LENGTH"
      (childUint32 (buildSignalElement value).raw "LENGTH" 0) = value.bitLength := by
    simp only [childUint32, habsent "BIT-LENGTH" (by decide), childText_signal_length,
      parseUint32_toString, Option.getD_some]
  have hstart : childUint32 (buildSignalElement value).raw "START-BIT" 0 = 0 := by
    simp only [childUint32, habsent "START-BIT" (by decide)]
  have hsigned : ((findDescendant (buildSignalElement value).raw "BASE-TYPE-REF").map fun ref =>
      isSignedBaseType ref.text).getD false = value.isSigned := by
    have hbase : isSignedBaseType "/SwBaseType/SINT8" = true := by decide +kernel
    rw [findDescendant, findDescendants_signal value (by decide)]
    cases value.isSigned
    · rfl
    · exact hbase
  have hinit : ((findChild (buildSignalElement value).raw "INIT-VALUE").bind fun initValue =>
      (findDescendant initValue "VALUE").bind fun found => parseDouble found.text) =
      value.initValue := by
    rw [findChild_signal_initValue]
    cases hv : value.initValue with
    | none => rfl
    | some initValue =>
      rw [Option.map_some, Option.bind_some, findDescendant_initValueNode, Option.bind_some,
        leaf_text, parseDouble_print17 (h.initValue initValue hv)]
  have hreceivers : refShortNames (buildSignalElement value).raw "RECEIVER-REF" = [] := by
    rw [refShortNames, findDescendants_signal value (by decide)]
    cases value.isSigned <;> rfl
  simp only [buildSignal, populateCommonFields, extractShortName, hname, hlength, hstart, hsigned,
    hinit, hreceivers, habsent "CATEGORY" (by decide), habsent "BYTE-ORDER" (by decide),
    findChild_signal value (show "VALUE-TABLE" ∉ _ by decide), Option.getD_some, Option.map_none,
    Option.getD_none, raw_span]

end

/-- A written group reads back without its category. -/
theorem buildSignalGroup_element {value : SignalGroup} (h : value.Plain) :
    (buildSignalGroup (buildSignalGroupElement value).raw).1 =
      { common := { shortName := value.common.shortName }
        members := sortedStrings value.members } := by
  have hname : childText (buildSignalGroupElement value).raw "SHORT-NAME" =
      some value.common.shortName := by
    simp [childText, findChild, raw_buildSignalGroupElement, setContent_plainText h.shortName]
  have hcategory : childText (buildSignalGroupElement value).raw "CATEGORY" = none := by
    rw [childText, findChild, raw_buildSignalGroupElement, List.find?_cons_of_neg (by simp),
      find_wrapper (by decide)]
    rfl
  have hfind : ∀ tag : String, tag ≠ "SHORT-NAME" → tag ≠ "I-SIGNAL-REFS" →
      findDescendants (buildSignalGroupElement value).raw tag =
        collectDescendantsOf tag ((sortedStrings value.members).map fun member =>
          (refChild "I-SIGNAL-REF" "I-SIGNAL" ("/Sys/" ++ member)).raw) := by
    intro tag hname hrefs
    rw [findDescendants, raw_buildSignalGroupElement, collectDescendants_mk,
      collectDescendantsOf_cons, collectDescendantsOf_wrapper hrefs.symm, List.map_map]
    · simp [hname.symm, Function.comp_def]
    · intro hempty
      rw [List.isEmpty_iff.mp hempty]
      exact collectDescendantsOf_nil tag
  have hsystem : refShortNames (buildSignalGroupElement value).raw "SYSTEM-SIGNAL-REF" = [] := by
    rw [refShortNames, hfind _ (by decide) (by decide),
      collectDescendantsOf_none _ (fun _ => by simp) (fun _ => by simp)]
    rfl
  have hmembers : refShortNames (buildSignalGroupElement value).raw "I-SIGNAL-REF" =
      sortedStrings value.members := by
    rw [refShortNames, hfind _ (by decide) (by decide),
      collectDescendantsOf_all _ (fun _ => by simp) (fun _ => by simp), List.map_map]
    have hread : ∀ member ∈ sortedStrings value.members,
        ((fun ref => shortNameOfRef ref.text) ∘ fun member =>
          (refChild "I-SIGNAL-REF" "I-SIGNAL" ("/Sys/" ++ member)).raw) member = id member := by
      intro member hmem
      simp [shortNameOfRef_sys (h.members member (mem_sortedStrings.mp hmem)).1]
    rw [List.map_congr_left hread, List.map_id]
    exact List.filter_eq_self.mpr fun member hmem => by
      simp [(h.members member (mem_sortedStrings.mp hmem)).2]
  simp only [buildSignalGroup, populateCommonFields, extractShortName, hname, hcategory, hmembers,
    hsystem, Option.getD_some, List.append_nil, raw_span]

end

end ParseX

import ParseX.Write.Reread

/-! # Parser outputs can be written

Texts that the parser produced are trimmed and references are plain names, so
without `&` the document of a valid project passes the white-space guard. -/
namespace ParseX
open Cpp

/-! ## Texts of a project -/

def CommonFields.texts (common : CommonFields) : List String :=
  common.shortName :: common.category.toList

def Cluster.texts (value : Cluster) : List String := value.common.texts ++ value.physicalChannels

def EcuInstance.texts (value : EcuInstance) : List String :=
  value.common.texts ++ value.connectedChannels ++ value.controllers

def Frame.texts (value : Frame) : List String :=
  value.common.texts ++ value.transmitters ++ value.pdus.map FramePduMapping.pduShortNameRef

def Pdu.texts (value : Pdu) : List String :=
  value.common.texts ++ value.signalMappings.map PduSignalMapping.signalShortNameRef

def SignalGroup.texts (value : SignalGroup) : List String := value.common.texts ++ value.members

section
variable {D : Type} [Double D]

def Signal.texts (value : Signal D) : List String :=
  value.common.texts ++ value.unit.toList ++ value.receivers ++
    (value.valueTable.getD []).map ValueTableEntry.label

/-- No text of any element contains the character. -/
structure Without (letter : Char) (project : ParsedProject D) : Prop where
  clusters : ∀ x ∈ collectAll project ParsedFile.clusters, ∀ text ∈ x.texts, letter ∉ text.toList
  ecuInstances : ∀ x ∈ collectAll project ParsedFile.ecuInstances, ∀ text ∈ x.texts,
    letter ∉ text.toList
  frames : ∀ x ∈ collectAll project ParsedFile.frames, ∀ text ∈ x.texts, letter ∉ text.toList
  pdus : ∀ x ∈ collectAll project ParsedFile.pdus, ∀ text ∈ x.texts, letter ∉ text.toList
  signals : ∀ x ∈ collectAll project ParsedFile.signals, ∀ text ∈ x.texts, letter ∉ text.toList
  signalGroups : ∀ x ∈ collectAll project ParsedFile.signalGroups, ∀ text ∈ x.texts,
    letter ∉ text.toList

/-- A property of every element's common fields. -/
structure EveryCommon (P : CommonFields → Prop) (project : ParsedProject D) : Prop where
  clusters : ∀ x ∈ collectAll project ParsedFile.clusters, P x.common
  ecuInstances : ∀ x ∈ collectAll project ParsedFile.ecuInstances, P x.common
  frames : ∀ x ∈ collectAll project ParsedFile.frames, P x.common
  pdus : ∀ x ∈ collectAll project ParsedFile.pdus, P x.common
  signals : ∀ x ∈ collectAll project ParsedFile.signals, P x.common
  signalGroups : ∀ x ∈ collectAll project ParsedFile.signalGroups, P x.common

/-- No element whose category is written has an empty one. -/
structure NoEmptyCategory (project : ParsedProject D) : Prop where
  clusters : ∀ x ∈ collectAll project ParsedFile.clusters, x.common.category ≠ some ""
  ecuInstances : ∀ x ∈ collectAll project ParsedFile.ecuInstances, x.common.category ≠ some ""

end

/-! ## What the readers return -/

theorem isRefName_getD (ref : Option String) : IsRefName ((ref.map shortNameOfRef).getD "") := by
  cases ref with
  | none => simp [IsRefName]
  | some text => exact isRefName_shortNameOfRef text

/-! ## Plain elements -/

section
variable {node : RawNode}

theorem buildCluster_plain (h : ∀ text ∈ (buildCluster node).1.texts, '&' ∉ text.toList) :
    (buildCluster node).1.Plain where
  shortName := ⟨isTrimmed_extractShortName node, h _ (by simp [Cluster.texts, CommonFields.texts])⟩
  category text htext := ⟨isTrimmed_childText htext,
    h _ (by simp [Cluster.texts, CommonFields.texts, Option.mem_def.mp htext])⟩
  physicalChannels name hname := by
    have hspec : IsTrimmed name ∧ name ≠ "" :=
      (List.mem_append.mp hname).elim directShortNames_spec directShortNames_spec
    exact ⟨⟨hspec.1, h _ (by simp [Cluster.texts, hname])⟩, hspec.2⟩

theorem buildEcuInstance_plain
    (h : ∀ text ∈ (buildEcuInstance node).1.common.texts ++ (buildEcuInstance node).1.controllers,
      '&' ∉ text.toList) : (buildEcuInstance node).1.Plain where
  shortName := ⟨isTrimmed_extractShortName node, h _ (by simp [CommonFields.texts])⟩
  category text htext := ⟨isTrimmed_childText htext,
    h _ (by simp [CommonFields.texts, Option.mem_def.mp htext])⟩
  controllers name hname := by
    have hspec : IsTrimmed name ∧ name ≠ "" :=
      (List.mem_append.mp hname).elim directShortNames_spec directShortNames_spec
    exact ⟨⟨hspec.1, h _ (List.mem_append_right _ hname)⟩, hspec.2⟩

theorem buildFrame_plain (hname : '&' ∉ (buildFrame node).1.common.shortName.toList)
    (h : ∀ mapping ∈ (buildFrame node).1.pdus, '&' ∉ mapping.pduShortNameRef.toList) :
    (buildFrame node).1.Plain where
  shortName := ⟨isTrimmed_extractShortName node, hname⟩
  pdus mapping hmapping := by
    refine ⟨?_, h mapping hmapping⟩
    obtain ⟨child, -, rfl⟩ := List.mem_map.mp hmapping
    exact isRefName_getD _

theorem buildPdu_plain (hname : '&' ∉ (buildPdu node).1.common.shortName.toList)
    (h : ∀ mapping ∈ (buildPdu node).1.signalMappings, '&' ∉ mapping.signalShortNameRef.toList) :
    (buildPdu node).1.Plain where
  shortName := ⟨isTrimmed_extractShortName node, hname⟩
  signalMappings mapping hmapping := by
    refine ⟨?_, h mapping hmapping⟩
    obtain ⟨child, -, rfl⟩ := List.mem_map.mp hmapping
    exact isRefName_getD _

theorem buildSignal_plain {D : Type} [Double D]
    (hname : '&' ∉ (buildSignal node : Signal D × List Warning).1.common.shortName.toList) :
    (buildSignal node : Signal D × List Warning).1.Plain where
  shortName := ⟨isTrimmed_extractShortName node, hname⟩
  initValue d hd := by
    obtain ⟨initValue, -, hd⟩ := Option.bind_eq_some_iff.mp hd
    obtain ⟨found, -, hd⟩ := Option.bind_eq_some_iff.mp hd
    exact readable_of_parseDouble hd

theorem buildSignalGroup_plain (hname : '&' ∉ (buildSignalGroup node).1.common.shortName.toList)
    (h : ∀ name ∈ (buildSignalGroup node).1.members, '&' ∉ name.toList) :
    (buildSignalGroup node).1.Plain where
  shortName := ⟨isTrimmed_extractShortName node, hname⟩
  members name hmember := by
    have hspec : IsRefName name ∧ name ≠ "" :=
      (List.mem_append.mp hmember).elim refShortNames_spec refShortNames_spec
    exact ⟨⟨hspec.1, h name hmember⟩, hspec.2⟩

end

/-- What the writer needs of every element. -/
structure PlainProject {D : Type} [Double D] (project : ParsedProject D) : Prop where
  clusters : ∀ x ∈ collectAll project ParsedFile.clusters, x.Plain
  ecuInstances : ∀ x ∈ collectAll project ParsedFile.ecuInstances, x.Plain
  frames : ∀ x ∈ collectAll project ParsedFile.frames, x.Plain
  pdus : ∀ x ∈ collectAll project ParsedFile.pdus, x.Plain
  signals : ∀ x ∈ collectAll project ParsedFile.signals, x.Plain
  signalGroups : ∀ x ∈ collectAll project ParsedFile.signalGroups, x.Plain

section
variable {D : Type} [Double D] {project : ParsedProject D}

/-- The elements of parser outputs are plain when no text has an ampersand. -/
theorem plainProject_of_parsed (hparsed : ∀ file ∈ project.files, ParserOutput file)
    (hwithout : Without '&' project) : PlainProject project where
  clusters x hx := by
    obtain ⟨node, rfl⟩ := exists_build (fun _ _ h => h.clusters) hparsed hx
    exact buildCluster_plain (hwithout.clusters _ hx)
  ecuInstances x hx := by
    obtain ⟨node, rfl⟩ := exists_build (fun _ _ h => h.ecuInstances) hparsed hx
    refine buildEcuInstance_plain fun text htext => hwithout.ecuInstances _ hx text ?_
    rcases List.mem_append.mp htext with hcommon | hcontroller
    · exact List.mem_append_left _ (List.mem_append_left _ hcommon)
    · exact List.mem_append_right _ hcontroller
  frames x hx := by
    obtain ⟨node, rfl⟩ := exists_build (fun _ _ h => h.frames) hparsed hx
    exact buildFrame_plain (hwithout.frames _ hx _ (by simp [Frame.texts, CommonFields.texts]))
      fun mapping hmapping => hwithout.frames _ hx _
        (List.mem_append_right _ (List.mem_map_of_mem hmapping))
  pdus x hx := by
    obtain ⟨node, rfl⟩ := exists_build (fun _ _ h => h.pdus) hparsed hx
    exact buildPdu_plain (hwithout.pdus _ hx _ (by simp [Pdu.texts, CommonFields.texts]))
      fun mapping hmapping => hwithout.pdus _ hx _
        (List.mem_append_right _ (List.mem_map_of_mem hmapping))
  signals x hx := by
    obtain ⟨node, rfl⟩ := exists_build (fun _ _ h => h.signals) hparsed hx
    exact buildSignal_plain (hwithout.signals _ hx _ (by simp [Signal.texts, CommonFields.texts]))
  signalGroups x hx := by
    obtain ⟨node, rfl⟩ := exists_build (fun _ _ h => h.signalGroups) hparsed hx
    exact buildSignalGroup_plain
      (hwithout.signalGroups _ hx _ (by simp [SignalGroup.texts, CommonFields.texts]))
      fun member hmember => hwithout.signalGroups _ hx _ (List.mem_append_right _ hmember)

end

/-! ## The white-space guard -/

theorem hasBlankTexts_eq (children : List XmlNode) :
    hasBlankTexts children = children.any hasBlankText := by
  induction children with
  | nil => rfl
  | cons child rest ih => rw [hasBlankTexts, ih, List.any_cons]

theorem hasBlankText_eq (node : XmlNode) : hasBlankText node =
    (node.content.any isWhitespaceOnly || node.children.any hasBlankText) := by
  rw [← hasBlankTexts_eq]
  cases node
  rw [hasBlankText]

/-- A text that the writer stores as it is and that is not white space. -/
def Visible (text : String) : Prop :=
  '&' ∉ text.toList ∧ ∃ c ∈ text.toList, isBlank c = false

theorem PlainText.visible {text : String} (h : PlainText text) (hne : text ≠ "") :
    Visible text := by
  refine ⟨h.2, ?_⟩
  have htrim : trimChars text.toList = text.toList := by
    rw [← toList_trimText, h.1]
  cases hl : text.toList with
  | nil => exact absurd (String.toList_inj.mp hl) hne
  | cons c cs =>
    refine ⟨c, by simp, ?_⟩
    have := (trimmed_trimChars text.toList).1
    rw [htrim, hl] at this
    exact this c rfl

theorem visible_toString (n : Nat) : Visible (toString n) := by
  refine ⟨not_mem_toString_nat (by decide), ?_⟩
  cases hl : (toString n).toList with
  | nil => exact absurd (String.toList_inj.mp hl) (toString_nat_ne_empty n)
  | cons c cs =>
    refine ⟨c, by simp, ?_⟩
    cases hb : isBlank c with
    | false => rfl
    | true =>
      have hmem : c ∈ (toString n).toList := by rw [hl]; simp
      exact absurd hmem (not_mem_toString_nat (digitVal_none_of_isSpace (isSpace_of_isBlank hb)))

theorem visible_print17 {D : Type} [Double D] [LawfulDouble D] (d : D) :
    Visible (Double.print17 d) := by
  have hchars := LawfulDouble.print17_chars d
  refine ⟨fun h => absurd (hchars _ h) (by decide), ?_⟩
  cases hl : (Double.print17 d).toList with
  | nil => exact absurd (String.toList_inj.mp hl) (LawfulDouble.print17_ne_empty d)
  | cons c cs =>
    exact ⟨c, by simp, isBlank_eq_false_of_isDoubleChar (hchars c (by rw [hl]; simp))⟩

theorem Visible.append {front back : String} (h : Visible front) (hback : '&' ∉ back.toList) :
    Visible (front ++ back) := by
  obtain ⟨hplain, c, hc, hb⟩ := h
  refine ⟨?_, c, ?_, hb⟩
  · rw [String.toList_append, List.mem_append]
    rintro (h | h)
    · exact hplain h
    · exact hback h
  · rw [String.toList_append]
    exact List.mem_append_left _ hc

theorem visible_sys {name : String} (h : '&' ∉ name.toList) : Visible ("/Sys/" ++ name) :=
  Visible.append ⟨by decide, '/', by decide, by decide⟩ h

theorem Visible.mappingShortName {owner ref : String} (h : Visible owner) (href : '&' ∉ ref.toList)
    (idx : Nat) : Visible (mappingShortName owner ref idx) := by
  unfold ParseX.mappingShortName
  split
  · exact (h.append (by decide)).append (visible_toString idx).1
  · exact (h.append (by decide)).append href

section
variable [LibXml] [LawfulLibXml]

theorem Visible.setContent {text : String} (h : Visible text) :
    isWhitespaceOnly (LibXml.setContent text) = false := by
  obtain ⟨hplain, c, hc, hb⟩ := h
  rw [LawfulLibXml.setContent_plain text hplain, isWhitespaceOnly, List.all_eq_false]
  exact ⟨c, hc, by simp [hb]⟩

theorem hasBlankText_textChild {tagName text : String} (h : Visible text) :
    hasBlankText (textChild tagName text) = false := by
  simp [hasBlankText_eq, textChild, h.setContent]

theorem hasBlankText_refChild {tagName dest text : String} (h : Visible text) :
    hasBlankText (refChild tagName dest text) = false := by
  simp [hasBlankText_eq, refChild, setSortedAttributes, h.setContent]

omit [LibXml] [LawfulLibXml] in
theorem any_wrapperUnless {empty : Bool} {tagName : String} {children : List XmlNode}
    (h : children.any hasBlankText = false) :
    (wrapperUnless empty tagName children).any hasBlankText = false := by
  cases empty with
  | true => rfl
  | false =>
    simp only [wrapperUnless, Bool.false_eq_true, if_false, List.any_cons, List.any_nil,
      Bool.or_false]
    rw [hasBlankText_eq, h]
    rfl

theorem any_optionalTextChild {tagName : String} {value : Option String}
    (h : ∀ text ∈ value, Visible text) :
    (optionalTextChild tagName value).any hasBlankText = false := by
  cases value with
  | none => rfl
  | some text => simp [optionalTextChild, hasBlankText_textChild (h text rfl)]

theorem any_namedElements {tagName : String} {names : List String}
    (h : ∀ name ∈ names, PlainText name ∧ name ≠ "") :
    ((sortedStrings names).map (namedElement tagName)).any hasBlankText = false := by
  rw [List.any_eq_false]
  intro element hmem
  obtain ⟨name, hname, rfl⟩ := List.mem_map.mp hmem
  obtain ⟨hplain, hne⟩ := h name (mem_sortedStrings.mp hname)
  rw [hasBlankText_eq, namedElement, List.any_cons, hasBlankText_textChild (hplain.visible hne)]
  simp

omit [LibXml] [LawfulLibXml] in
/-- A category is not empty where it is there. -/
theorem visible_category {category : Option String} (hplain : ∀ text ∈ category, PlainText text)
    (hne : category ≠ some "") : ∀ text ∈ category, Visible text :=
  fun text htext => (hplain text htext).visible fun he => hne (he ▸ htext)

theorem hasBlankText_cluster {value : Cluster} (h : value.Plain) (hname : value.common.shortName ≠ "")
    (hcategory : value.common.category ≠ some "") :
    hasBlankText (buildClusterElement value) = false := by
  have hbaudrate : (optionalTextChild "BAUDRATE" (value.baudrate.map fun baudrate =>
      toString baudrate.toNat)).any hasBlankText = false := by
    apply any_optionalTextChild
    intro text htext
    obtain ⟨baudrate, -, rfl⟩ := Option.map_eq_some_iff.mp htext
    exact visible_toString _
  have hconditional : [clusterConditional value].any hasBlankText = false := by
    rw [List.any_cons, List.any_nil, Bool.or_false, hasBlankText_eq, clusterConditional,
      List.any_append, hbaudrate, any_wrapperUnless (any_namedElements h.physicalChannels)]
    rfl
  rw [hasBlankText_eq, buildClusterElement, List.any_append, List.any_cons,
    hasBlankText_textChild (h.shortName.visible hname), any_wrapperUnless hconditional,
    any_optionalTextChild (visible_category h.category hcategory)]
  rfl

theorem hasBlankText_ecuInstance {value : EcuInstance} (h : value.Plain)
    (hname : value.common.shortName ≠ "") (hcategory : value.common.category ≠ some "") :
    hasBlankText (buildEcuInstanceElement value) = false := by
  rw [hasBlankText_eq, buildEcuInstanceElement, List.any_append, List.any_cons,
    hasBlankText_textChild (h.shortName.visible hname),
    any_wrapperUnless (any_namedElements h.controllers),
    any_optionalTextChild (visible_category h.category hcategory)]
  rfl

theorem hasBlankText_mappingElement {tagName refTag dest owner ref : String}
    {startPosition : UInt32} {idx : Nat} (howner : Visible owner) (href : '&' ∉ ref.toList) :
    hasBlankText (mappingElement tagName refTag dest owner ref startPosition idx) = false := by
  have hname := @hasBlankText_textChild _ _ "SHORT-NAME" _ (howner.mappingShortName href idx)
  have hstart := @hasBlankText_textChild _ _ "START-POSITION" _ (visible_toString startPosition.toNat)
  rw [hasBlankText_eq, mappingElement]
  by_cases hne : ref = ""
  · simp [hne ▸ hname, hstart, hne, -Nat.toString_eq_repr]
  · simp [hname, hstart, hne, hasBlankText_refChild (visible_sys href), -Nat.toString_eq_repr]

theorem hasBlankText_frame {value : Frame} (h : value.Plain) (hw : value.common.shortName ≠ "") :
    hasBlankText (buildFrameElement value) = false := by
  have hmappings : ((sortedFramePduMappings value.pdus).zipIdx.map
      (frameMappingElement value.common.shortName)).any hasBlankText = false := by
    rw [List.any_eq_false]
    intro element hmem
    obtain ⟨item, hitem, rfl⟩ := List.mem_map.mp hmem
    have href := h.pdus item.1 ((List.mem_insertionSort _).mp (List.fst_mem_of_mem_zipIdx hitem))
    rw [frameMappingElement, hasBlankText_mappingElement (h.shortName.visible hw) href.2]
    simp
  rw [hasBlankText_eq, buildFrameElement, List.any_cons, List.any_cons,
    hasBlankText_textChild (h.shortName.visible hw), hasBlankText_textChild (visible_toString _),
    any_wrapperUnless hmappings]
  rfl

theorem hasBlankText_pdu {value : Pdu} (h : value.Plain) (hw : value.common.shortName ≠ "") :
    hasBlankText (buildPduElement value) = false := by
  have hmappings : ((sortedPduSignalMappings value.signalMappings).zipIdx.map
      (pduMappingElement value.common.shortName)).any hasBlankText = false := by
    rw [List.any_eq_false]
    intro element hmem
    obtain ⟨item, hitem, rfl⟩ := List.mem_map.mp hmem
    have href := h.signalMappings item.1
      ((List.mem_insertionSort _).mp (List.fst_mem_of_mem_zipIdx hitem))
    rw [pduMappingElement, hasBlankText_mappingElement (h.shortName.visible hw) href.2]
    simp
  rw [hasBlankText_eq, buildPduElement, List.any_cons, List.any_cons,
    hasBlankText_textChild (h.shortName.visible hw), hasBlankText_textChild (visible_toString _),
    any_wrapperUnless hmappings]
  rfl

theorem hasBlankText_signal {D : Type} [Double D] [LawfulDouble D] {value : Signal D}
    (h : value.Plain) (hw : value.common.shortName ≠ "") :
    hasBlankText (buildSignalElement value) = false := by
  have hname := @hasBlankText_textChild _ _ "SHORT-NAME" _ (h.shortName.visible hw)
  have hlength := @hasBlankText_textChild _ _ "LENGTH" _ (visible_toString value.bitLength.toNat)
  have hbase : hasBlankText signedBaseType = false := by
    have href := @hasBlankText_refChild _ _ "BASE-TYPE-REF" "SW-BASE-TYPE" "/SwBaseType/SINT8"
      ⟨by decide, '/', by decide, by decide⟩
    simp only [signedBaseType, hasBlankText, hasBlankTexts, href, Option.any_none, Bool.or_false]
  have hinit : ((value.initValue.map fun initValue =>
      ({ name := "INIT-VALUE", children := [{ name := "NUMERICAL-VALUE-SPECIFICATION", children :=
        [textChild "VALUE" (Double.print17 initValue)] }] } : XmlNode)).toList).any
          hasBlankText = false := by
    cases value.initValue with
    | none => rfl
    | some initValue =>
      have hvalue := @hasBlankText_textChild _ _ "VALUE" _ (visible_print17 initValue)
      simp only [Option.map_some, Option.toList_some, List.any_cons, List.any_nil, hasBlankText,
        hasBlankTexts, hvalue, Option.any_none, Bool.or_false]
  rw [hasBlankText_eq, buildSignalElement, List.any_append, List.any_cons, List.any_cons, hname,
    hinit, hlength]
  cases value.isSigned with
  | false => rfl
  | true => simp [hbase]

theorem hasBlankText_signalGroup {value : SignalGroup} (h : value.Plain)
    (hw : value.common.shortName ≠ "") : hasBlankText (buildSignalGroupElement value) = false := by
  have hmembers : ((sortedStrings value.members).map fun member =>
      refChild "I-SIGNAL-REF" "I-SIGNAL" ("/Sys/" ++ member)).any hasBlankText = false := by
    rw [List.any_eq_false]
    intro element hmem
    obtain ⟨member, hmember, rfl⟩ := List.mem_map.mp hmem
    rw [hasBlankText_refChild (visible_sys (h.members member (mem_sortedStrings.mp hmember)).1.2)]
    simp
  rw [hasBlankText_eq, buildSignalGroupElement, List.any_cons,
    hasBlankText_textChild (h.shortName.visible hw), any_wrapperUnless hmembers]
  rfl

omit [LibXml] [LawfulLibXml] in
/-- The elements of one type, none of which the guard refuses. -/
theorem any_sortedCopy {T : Type} [DomainElement T] {items : List T} {element : T → XmlNode}
    (h : ∀ x ∈ items, hasBlankText (element x) = false) :
    ((sortedCopy items).map element).any hasBlankText = false := by
  rw [List.any_eq_false]
  intro node hmem
  obtain ⟨x, hx, rfl⟩ := List.mem_map.mp hmem
  rw [h x ((List.mem_insertionSort _).mp hx)]
  simp

variable {D : Type} [Double D] [LawfulDouble D] {project : ParsedProject D}

/-- The document of plain, named elements passes the guard. -/
theorem hasBlankText_buildDocument (h : PlainProject project)
    (hnames : EveryCommon (fun common => common.shortName ≠ "") project)
    (hcategories : NoEmptyCategory project) : hasBlankText (buildDocument project).root = false := by
  have hsys := @hasBlankText_textChild _ _ "SHORT-NAME" "Sys" ⟨by decide, 'S', by decide, by decide⟩
  have helements : (writeElements project).any hasBlankText = false := by
    simp only [writeElements, List.any_append]
    rw [any_sortedCopy fun x hx => hasBlankText_cluster (h.clusters x hx) (hnames.clusters x hx)
        (hcategories.clusters x hx),
      any_sortedCopy fun x hx => hasBlankText_ecuInstance (h.ecuInstances x hx)
        (hnames.ecuInstances x hx) (hcategories.ecuInstances x hx),
      any_sortedCopy fun x hx => hasBlankText_frame (h.frames x hx) (hnames.frames x hx),
      any_sortedCopy fun x hx => hasBlankText_pdu (h.pdus x hx) (hnames.pdus x hx),
      any_sortedCopy fun x hx => hasBlankText_signal (h.signals x hx) (hnames.signals x hx),
      any_sortedCopy fun x hx =>
        hasBlankText_signalGroup (h.signalGroups x hx) (hnames.signalGroups x hx)]
    rfl
  simp only [buildDocument, forRelease, hasBlankText, hasBlankTexts, hsys, hasBlankTexts_eq,
    helements, Option.any_none, Bool.or_false]

end

/-! ## Validation -/

theorem checkShortNames_eq_nil {type : String} {names : List String} {fileIndex : Nat}
    (h : checkShortNames type names fileIndex = []) : ∀ name ∈ names, name ≠ "" := by
  intro name hname
  rw [← List.zipIdx_map_fst 0 names] at hname
  obtain ⟨item, hitem, rfl⟩ := List.mem_map.mp hname
  have hnone := List.filterMap_eq_nil_iff.mp h _ hitem
  by_contra hempty
  simp [hempty] at hnone

section
variable {D : Type} [Double D] {project : ParsedProject D}

/-- A project without findings has short names everywhere. -/
theorem everyCommon_of_validate (h : WriteEngine.validate project = ⟨[]⟩) :
    EveryCommon (fun common => common.shortName ≠ "") project := by
  have hfile : ∀ file ∈ project.files, ∃ idx, validateFile file idx = [] := by
    intro file hfile
    rw [← List.zipIdx_map_fst 0 project.files] at hfile
    obtain ⟨item, hitem, rfl⟩ := List.mem_map.mp hfile
    exact ⟨item.2, List.flatMap_eq_nil_iff.mp (congrArg ValidationResult.errors h) item hitem⟩
  have hmember {T : Type} [DomainElement T] {member : ParsedFile D → List T} {type : String}
      (hnil : ∀ file idx, validateFile file idx = [] →
        checkShortNames type ((member file).map shortName) idx = []) :
      ∀ x ∈ collectAll project member, shortName x ≠ "" := by
    intro x hx
    obtain ⟨file, hf, hx⟩ := List.mem_flatMap.mp hx
    obtain ⟨idx, hidx⟩ := hfile file hf
    exact checkShortNames_eq_nil (hnil file idx hidx) _ (List.mem_map_of_mem hx)
  simp only [validateFile, List.append_eq_nil_iff] at hmember
  exact ⟨hmember fun _ _ h => h.1.1.1.1.1, hmember fun _ _ h => h.1.1.1.1.2,
    hmember fun _ _ h => h.1.1.1.2, hmember fun _ _ h => h.1.1.2, hmember fun _ _ h => h.1.2,
    hmember fun _ _ h => h.2⟩

end

end ParseX

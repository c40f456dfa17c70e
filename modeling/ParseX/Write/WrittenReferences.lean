import ParseX.Parser.Resolve
import ParseX.Write.WrittenPaths

/-! # References of the written document

Every reference is re-rooted below the package `Sys`. The reference check of the
document passes exactly when every reference leads to its element there. -/
namespace ParseX
open Cpp

/-! ## References of the elements -/

/-- All references of the sibling trees are sound. -/
def SoundRefs (paths : List (String × String)) (nodes : List RawNode) : Prop :=
  ∀ site ∈ nodes.flatMap collectRefs, SoundRef paths (trimText site.node.text) site.dest

section
variable {paths : List (String × String)}

@[simp] theorem soundRefs_nil : SoundRefs paths [] := by simp [SoundRefs]

@[simp] theorem soundRefs_append {front back : List RawNode} :
    SoundRefs paths (front ++ back) ↔ SoundRefs paths front ∧ SoundRefs paths back := by
  simp only [SoundRefs, List.flatMap_append, List.forall_mem_append]

theorem collectRefs_eq (node : RawNode) : collectRefs node =
    (if isRefTag node.tagName then (destAttr node).map fun dest => ⟨node, dest⟩ else none).toList ++
      node.children.flatMap collectRefs := by
  rw [collectRefs, RawNode.nodes_eq, List.filterMap_cons, List.filterMap_flatMap]
  split <;> rename_i hnone <;> rw [hnone] <;> rfl

/-- A node that is no reference. -/
theorem soundRefs_other {tagName text : String} {attributes : List (String × String)}
    {span : RawSpan} {children rest : List RawNode}
    (h : isRefTag tagName = true → (attributes.find? fun attr => attr.1 == "DEST") = none) :
    SoundRefs paths (⟨tagName, attributes, text, span, children⟩ :: rest) ↔
      SoundRefs paths children ∧ SoundRefs paths rest := by
  have hnone : (if isRefTag tagName then
      (destAttr ⟨tagName, attributes, text, span, children⟩).map fun dest =>
        (⟨⟨tagName, attributes, text, span, children⟩, dest⟩ : RefSite) else none) = none := by
    split
    · rename_i htag
      rw [destAttr, h htag]
      rfl
    · rfl
  rw [SoundRefs, List.flatMap_cons, collectRefs_eq, hnone, Option.toList_none, List.nil_append,
    List.forall_mem_append]
  rfl

@[simp] theorem soundRefs_plain {tagName text : String} {span : RawSpan}
    {children rest : List RawNode} : SoundRefs paths (⟨tagName, [], text, span, children⟩ :: rest) ↔
      SoundRefs paths children ∧ SoundRefs paths rest :=
  soundRefs_other fun _ => rfl

@[simp] theorem soundRefs_leaf {tagName text : String} {rest : List RawNode} :
    SoundRefs paths (leaf tagName text [] :: rest) ↔ SoundRefs paths rest := by
  rw [leaf, soundRefs_plain]
  exact and_iff_right soundRefs_nil

/-- A reference element. -/
theorem soundRefs_ref {tagName text dest : String} {rest : List RawNode}
    (htag : isRefTag tagName = true) : SoundRefs paths (leaf tagName text [("DEST", dest)] :: rest) ↔
      SoundRef paths (trimText text) dest ∧ SoundRefs paths rest := by
  rw [SoundRefs, List.flatMap_cons, collectRefs_eq, leaf_tagName, if_pos htag,
    List.forall_mem_append]
  refine and_congr_left fun _ => ?_
  simp [destAttr, leaf]

theorem soundRefs_map {T : Type} {node : T → RawNode} {items : List T} :
    SoundRefs paths (items.map node) ↔ ∀ x ∈ items, SoundRefs paths [node x] := by
  induction items with
  | nil => simp
  | cons x items ih =>
    rw [List.map_cons, ← List.singleton_append, soundRefs_append, ih, List.forall_mem_cons]

theorem soundRefs_wrapper {empty : Bool} {tagName : String} {children : List XmlNode}
    (hempty : empty = true → SoundRefs paths (children.map XmlNode.raw)) :
    SoundRefs paths ((wrapperUnless empty tagName children).map XmlNode.raw) ↔
      SoundRefs paths (children.map XmlNode.raw) := by
  cases empty with
  | true => exact iff_of_true soundRefs_nil (hempty rfl)
  | false => simp [wrapperUnless, XmlNode.raw_eq]

theorem soundRefs_option {T : Type} {value : Option T} {tagName : String} {text : T → String} :
    SoundRefs paths (value.map fun x => leaf tagName (text x) []).toList := by
  cases value <;> simp

section
variable [LibXml]

theorem soundRefs_namedElements {tagName : String} {names : List String} :
    SoundRefs paths ((names.map (namedElement tagName)).map XmlNode.raw) := by
  rw [List.map_map, soundRefs_map]
  intro name _
  rw [Function.comp_apply, raw_namedElement]
  simp

theorem soundRefs_cluster (value : Cluster) : SoundRefs paths [(buildClusterElement value).raw] := by
  have hconditional : SoundRefs paths [(clusterConditional value).raw] := by
    rw [XmlNode.raw_eq, clusterConditional, List.map_append, map_raw_optionalTextChild]
    exact soundRefs_plain.mpr ⟨soundRefs_append.mpr ⟨soundRefs_option,
      (soundRefs_wrapper fun _ => soundRefs_namedElements).mpr soundRefs_namedElements⟩,
      soundRefs_nil⟩
  rw [raw_buildClusterElement]
  exact soundRefs_plain.mpr ⟨soundRefs_leaf.mpr (soundRefs_append.mpr ⟨soundRefs_option,
    (soundRefs_wrapper fun _ => hconditional).mpr hconditional⟩), soundRefs_nil⟩

theorem soundRefs_ecuInstance (value : EcuInstance) :
    SoundRefs paths [(buildEcuInstanceElement value).raw] := by
  rw [raw_buildEcuInstanceElement]
  exact soundRefs_plain.mpr ⟨soundRefs_leaf.mpr (soundRefs_append.mpr ⟨soundRefs_option,
    (soundRefs_wrapper fun _ => soundRefs_namedElements).mpr soundRefs_namedElements⟩),
    soundRefs_nil⟩

omit [LibXml] in
/-- A sized node refers to what its items refer to. -/
theorem soundRefs_sized {M : Type} {tagName shortName lengthTag length wrapper : String}
    {items : List M} {element : M → XmlNode} :
    SoundRefs paths [sizedNode tagName shortName lengthTag length wrapper items element] ↔
      ∀ x ∈ items, SoundRefs paths [(element x).raw] := by
  rw [sizedNode, soundRefs_plain, soundRefs_leaf, soundRefs_leaf, soundRefs_wrapper, List.map_map,
    soundRefs_map]
  · exact and_iff_left soundRefs_nil
  · intro hempty
    rw [List.isEmpty_iff.mp hempty]
    exact soundRefs_nil

variable [LawfulLibXml]

theorem trimText_setContent_sys {name : String} (h : '&' ∉ name.toList) :
    trimText (LibXml.setContent ("/Sys/" ++ name)) = "/Sys/" ++ pathTail name := by
  rw [LawfulLibXml.setContent_plain _ (visible_sys h).1, trimText_sys]

/-- A mapping refers to its element, if it has a reference. -/
theorem soundRefs_mapping {tagName refTag dest owner ref : String} {startPosition : UInt32}
    {idx : Nat} (hrefTag : isRefTag refTag = true) (href : '&' ∉ ref.toList) :
    SoundRefs paths [(mappingElement tagName refTag dest owner ref startPosition idx).raw] ↔
      (ref ≠ "" → SoundRef paths ("/Sys/" ++ pathTail ref) dest) := by
  rw [raw_mappingElement, soundRefs_plain, soundRefs_leaf]
  by_cases hempty : ref = ""
  · simp [hempty]
  · rw [if_neg hempty, List.singleton_append, soundRefs_ref hrefTag, trimText_setContent_sys href]
    simp [hempty]

omit [LibXml] [LawfulLibXml] in
/-- Sorted and counted mappings are the mappings. -/
theorem forall_zipIdx_stableSort {M : Type} {key : M → String} {mappings : List M} {P : M → Prop} :
    (∀ item ∈ (stableSort key mappings).zipIdx, P item.1) ↔ ∀ mapping ∈ mappings, P mapping := by
  rw [← List.forall_mem_map (f := Prod.fst), List.zipIdx_map_fst]
  exact ⟨fun h mapping hmapping => h mapping (mem_stableSort.mpr hmapping),
    fun h mapping hmapping => h mapping (mem_stableSort.mp hmapping)⟩

theorem soundRefs_frame {value : Frame}
    (hrefs : ∀ mapping ∈ value.pdus, '&' ∉ mapping.pduShortNameRef.toList) :
    SoundRefs paths [(buildFrameElement value).raw] ↔ ∀ mapping ∈ value.pdus,
      mapping.pduShortNameRef ≠ "" →
        SoundRef paths ("/Sys/" ++ pathTail mapping.pduShortNameRef) "I-SIGNAL-I-PDU" := by
  rw [raw_buildFrameElement, soundRefs_sized, ← @forall_zipIdx_stableSort _
    FramePduMapping.pduShortNameRef value.pdus]
  refine forall₂_congr fun item hitem => ?_
  exact soundRefs_mapping (by decide) (hrefs _ (mem_of_mem_zipIdx_stableSort hitem))

theorem soundRefs_pdu {value : Pdu}
    (hrefs : ∀ mapping ∈ value.signalMappings, '&' ∉ mapping.signalShortNameRef.toList) :
    SoundRefs paths [(buildPduElement value).raw] ↔ ∀ mapping ∈ value.signalMappings,
      mapping.signalShortNameRef ≠ "" →
        SoundRef paths ("/Sys/" ++ pathTail mapping.signalShortNameRef) "I-SIGNAL" := by
  rw [raw_buildPduElement, soundRefs_sized, ← @forall_zipIdx_stableSort _
    PduSignalMapping.signalShortNameRef value.signalMappings]
  refine forall₂_congr fun item hitem => ?_
  exact soundRefs_mapping (by decide) (hrefs _ (mem_of_mem_zipIdx_stableSort hitem))

theorem soundRefs_signal {D : Type} [Double D] [LawfulDouble D] (value : Signal D) :
    SoundRefs paths [(buildSignalElement value).raw] ↔
      (value.isSigned = true → SoundRef paths "/SwBaseType/SINT8" "SW-BASE-TYPE") := by
  have hinit : SoundRefs paths (value.initValue.map initValueNode).toList := by
    cases value.initValue <;> simp [initValueNode]
  have hbase : SoundRefs paths [signedBaseTypeNode] ↔
      SoundRef paths "/SwBaseType/SINT8" "SW-BASE-TYPE" := by
    have htrim : trimText "/SwBaseType/SINT8" = "/SwBaseType/SINT8" := by decide
    rw [signedBaseTypeNode]
    simp only [soundRefs_plain, soundRefs_nil, and_true]
    rw [soundRefs_ref (by decide), htrim]
    exact and_iff_left soundRefs_nil
  rw [raw_buildSignalElement, soundRefs_plain, soundRefs_leaf, soundRefs_append, soundRefs_leaf]
  cases value.isSigned <;> simp [hinit, hbase]

theorem soundRefs_signalGroup {value : SignalGroup}
    (hrefs : ∀ member ∈ value.members, '&' ∉ member.toList) :
    SoundRefs paths [(buildSignalGroupElement value).raw] ↔ ∀ member ∈ value.members,
      SoundRef paths ("/Sys/" ++ pathTail member) "I-SIGNAL" := by
  have hmembers : SoundRefs paths (((sortedStrings value.members).map fun member =>
      refChild "I-SIGNAL-REF" "I-SIGNAL" ("/Sys/" ++ member)).map XmlNode.raw) ↔
      ∀ member ∈ value.members, SoundRef paths ("/Sys/" ++ pathTail member) "I-SIGNAL" := by
    rw [List.map_map, soundRefs_map]
    have hone (member : String) (hmember : member ∈ value.members) :
        SoundRefs paths [(XmlNode.raw ∘ fun member =>
          refChild "I-SIGNAL-REF" "I-SIGNAL" ("/Sys/" ++ member)) member] ↔
          SoundRef paths ("/Sys/" ++ pathTail member) "I-SIGNAL" := by
      rw [Function.comp_apply, raw_refChild, soundRefs_ref (by decide),
        trimText_setContent_sys (hrefs member hmember)]
      exact and_iff_left soundRefs_nil
    exact ⟨fun h member hmember => (hone member hmember).mp (h member (mem_sortedStrings.mpr hmember)),
      fun h member hmember => (hone member (mem_sortedStrings.mp hmember)).mpr
        (h member (mem_sortedStrings.mp hmember))⟩
  rw [raw_buildSignalGroupElement, soundRefs_plain, soundRefs_leaf, soundRefs_wrapper, hmembers]
  · exact and_iff_left soundRefs_nil
  · intro hempty
    rw [hmembers, List.isEmpty_iff.mp hempty]
    simp

end

end

/-! ## The document -/

section
variable {D : Type} [Double D]

/-- A reference to a signal that no other element or mapping hides. -/
def SignalTarget (project : ParsedProject D) (ref : String) : Prop :=
  LeadingVisible ref ∧ trimText ref ∉ takenPaths project

instance (project : ParsedProject D) (ref : String) : Decidable (SignalTarget project ref) :=
  inferInstanceAs (Decidable (_ ∧ _))

/-- No signal is signed, no reference starts with a blank, no member is empty
and no path of a signal is taken. -/
structure SoundTargets (project : ParsedProject D) : Prop where
  signals : ∀ x ∈ collectAll project ParsedFile.signals, x.isSigned = false
  frames : ∀ x ∈ collectAll project ParsedFile.frames, ∀ mapping ∈ x.pdus,
    LeadingVisible mapping.pduShortNameRef
  pdus : ∀ x ∈ collectAll project ParsedFile.pdus, ∀ mapping ∈ x.signalMappings,
    mapping.signalShortNameRef ≠ "" → SignalTarget project mapping.signalShortNameRef
  signalGroups : ∀ x ∈ collectAll project ParsedFile.signalGroups, ∀ member ∈ x.members,
    member ≠ "" ∧ SignalTarget project member

/-- All tagged paths of the document. -/
def documentPaths (project : ParsedProject D) : List (String × String) :=
  ("/Sys", "AR-PACKAGE") :: (elementPaths project).map belowSys

variable {project : ParsedProject D}

theorem tagAt_documentPaths (path : String) :
    tagAt (documentPaths project) ("/Sys/" ++ path) = tagAt (elementPaths project) path := by
  have hne : "/Sys" ≠ "/Sys/" ++ path := by
    intro he
    have hlist := congrArg String.toList he
    rw [String.toList_append] at hlist
    simp at hlist
  rw [tagAt, documentPaths, List.find?_cons_of_neg (by simpa using hne)]
  exact tagAt_belowSys _ path

/-- A reference below the package. -/
theorem soundRef_below {path dest : String} :
    SoundRef (documentPaths project) ("/Sys/" ++ path) dest ↔
      ∃ tag, tagAt (elementPaths project) path = some tag ∧
        ∀ tags, destToTags.lookup dest = some tags → tag ∈ tags := by
  have hne : "/Sys/" ++ path ≠ "" := by
    intro he
    have hlist := congrArg String.toList he
    rw [String.toList_append] at hlist
    simp at hlist
  rw [SoundRef, tagAt_documentPaths]
  exact or_iff_right hne

/-- The base type of signed signals is not part of the document. -/
theorem not_soundRef_base :
    ¬ SoundRef (documentPaths project) "/SwBaseType/SINT8" "SW-BASE-TYPE" := by
  rintro (hempty | ⟨tag, htag, -⟩)
  · exact absurd hempty (by decide)
  · have hmem := tagAt_eq_some htag
    rw [documentPaths, List.mem_cons, List.mem_map] at hmem
    rcases hmem with hroot | ⟨entry, -, hentry⟩
    · exact absurd (congrArg Prod.fst hroot) (by decide : "/SwBaseType/SINT8" ≠ "/Sys")
    · have hlist := congrArg String.toList (congrArg Prod.fst hentry)
      rw [belowSys, String.toList_append] at hlist
      simp at hlist

/-- A path that leads somewhere starts with a visible character. -/
theorem leadingVisible_of_tagAt (h : VisibleNames project) {ref tag : String}
    (htag : tagAt (elementPaths project) (pathTail ref) = some tag) : LeadingVisible ref := by
  obtain ⟨hne, hleading⟩ := h.visiblePath _ (List.mem_map_of_mem (tagAt_eq_some htag))
  exact leadingVisible_of_pathTail hne hleading

/-- A reference to a PDU of the project leads to a node unless it starts with a
blank. -/
theorem soundRef_pdu_iff (h : VisibleNames project) {ref : String}
    (hknown : ∃ pdu ∈ collectAll project ParsedFile.pdus, pdu.common.shortName = ref) :
    SoundRef (documentPaths project) ("/Sys/" ++ pathTail ref) "I-SIGNAL-I-PDU" ↔
      LeadingVisible ref := by
  rw [soundRef_below]
  constructor
  · rintro ⟨tag, htag, -⟩
    exact leadingVisible_of_tagAt h htag
  · intro hleading
    obtain ⟨pdu, hpdu, rfl⟩ := hknown
    have hmem : trimText pdu.common.shortName ∈ (elementPaths project).map Prod.fst := by
      rw [elementPaths, List.map_append, List.map_append, List.mem_append, List.mem_append,
        mem_ownersOf, takenPaths]
      exact .inl (.inl (List.mem_append_right _ (List.mem_flatMap.mpr
        ⟨pdu, hpdu, List.mem_cons_self⟩)))
    rw [pathTail_eq hleading]
    cases htag : tagAt (elementPaths project) (trimText pdu.common.shortName) with
    | none => exact absurd hmem (tagAt_eq_none.mp htag)
    | some tag =>
      have hlookup : destToTags.lookup "I-SIGNAL-I-PDU" = none := by decide
      exact ⟨tag, rfl, fun tags htags => by rw [hlookup] at htags; cases htags⟩

/-- A reference to a signal of the project leads to a signal unless it starts
with a blank or another node takes its path. -/
theorem soundRef_signal_iff (h : VisibleNames project) {ref : String}
    (hknown : ∃ signal ∈ collectAll project ParsedFile.signals, signal.common.shortName = ref) :
    SoundRef (documentPaths project) ("/Sys/" ++ pathTail ref) "I-SIGNAL" ↔
      SignalTarget project ref := by
  have hdest (tag : String) : (∀ tags, destToTags.lookup "I-SIGNAL" = some tags → tag ∈ tags) ↔
      tag = "I-SIGNAL" := by
    have hlookup : destToTags.lookup "I-SIGNAL" = some ["I-SIGNAL"] := by decide
    simp [hlookup]
  have hsplit (path : String) : tagAt (elementPaths project) path =
      (tagAt (ownersOf project) path).or ((tagAt ((sortedCopy (collectAll project
        ParsedFile.signals)).map fun x => (trimText x.common.shortName, "I-SIGNAL")) path).or
          (tagAt ((sortedCopy (collectAll project ParsedFile.signalGroups)).map fun x =>
            (trimText x.common.shortName, "I-SIGNAL-GROUP")) path)) := by
    rw [elementPaths, tagAt_append, tagAt_append, Option.or_assoc]
  rw [soundRef_below]
  simp only [hdest, exists_eq_right]
  constructor
  · intro htag
    have hleading := leadingVisible_of_tagAt h htag
    refine ⟨hleading, fun htaken => ?_⟩
    rw [hsplit, pathTail_eq hleading] at htag
    rw [← mem_ownersOf] at htaken
    cases howner : tagAt (ownersOf project) (trimText ref) with
    | none => exact absurd htaken (tagAt_eq_none.mp howner)
    | some tag =>
      rw [howner, Option.some_or, Option.some.injEq] at htag
      exact ownersOf_tag _ (tagAt_eq_some howner) htag
  · rintro ⟨hleading, htaken⟩
    rw [← mem_ownersOf] at htaken
    obtain ⟨signal, hsignal, rfl⟩ := hknown
    rw [pathTail_eq hleading, hsplit, tagAt_eq_none.mpr htaken, Option.none_or,
      @tagAt_of_tag _ _ "I-SIGNAL"]
    · rfl
    · exact List.forall_mem_map.mpr fun _ _ => rfl
    · rw [List.map_map]
      exact List.mem_map_of_mem (mem_stableSort.mpr hsignal)

theorem not_soundRef_empty (h : VisibleNames project) :
    ¬ SoundRef (documentPaths project) ("/Sys/" ++ pathTail "") "I-SIGNAL" := by
  rw [soundRef_below]
  rintro ⟨tag, htag, -⟩
  exact (h.visiblePath _ (List.mem_map_of_mem (tagAt_eq_some htag))).1 rfl

variable [LibXml] [LawfulLibXml] [LawfulDouble D]

/-- The references of the document. -/
theorem soundRefs_buildDocument (h : VisibleNames project) {paths : List (String × String)} :
    SoundRefs paths ((writeElements project).map XmlNode.raw) ↔
      (∀ x ∈ collectAll project ParsedFile.frames, ∀ mapping ∈ x.pdus,
        mapping.pduShortNameRef ≠ "" →
          SoundRef paths ("/Sys/" ++ pathTail mapping.pduShortNameRef) "I-SIGNAL-I-PDU") ∧
      (∀ x ∈ collectAll project ParsedFile.pdus, ∀ mapping ∈ x.signalMappings,
        mapping.signalShortNameRef ≠ "" →
          SoundRef paths ("/Sys/" ++ pathTail mapping.signalShortNameRef) "I-SIGNAL") ∧
      (∀ x ∈ collectAll project ParsedFile.signals,
        x.isSigned = true → SoundRef paths "/SwBaseType/SINT8" "SW-BASE-TYPE") ∧
      ∀ x ∈ collectAll project ParsedFile.signalGroups, ∀ member ∈ x.members,
        SoundRef paths ("/Sys/" ++ pathTail member) "I-SIGNAL" := by
  have hgroup {T : Type} [DomainElement T] {items : List T} {element : T → XmlNode} {P : T → Prop}
      (hone : ∀ x ∈ items, SoundRefs paths [(element x).raw] ↔ P x) :
      SoundRefs paths (((sortedCopy items).map element).map XmlNode.raw) ↔ ∀ x ∈ items, P x := by
    rw [List.map_map, soundRefs_map]
    exact ⟨fun h x hx => (hone x hx).mp (h x (mem_stableSort.mpr hx)),
      fun h x hx => (hone x (mem_stableSort.mp hx)).mpr (h x (mem_stableSort.mp hx))⟩
  have h1 := hgroup fun (x : Cluster) (_ : x ∈ collectAll project ParsedFile.clusters) =>
    iff_true_intro (@soundRefs_cluster paths _ x)
  have h2 := hgroup fun (x : EcuInstance) (_ : x ∈ collectAll project ParsedFile.ecuInstances) =>
    iff_true_intro (@soundRefs_ecuInstance paths _ x)
  have h3 := hgroup fun x hx => soundRefs_frame (h.pduRefs x hx)
  have h4 := hgroup fun x hx => soundRefs_pdu (h.signalRefs x hx)
  have h5 := hgroup fun (x : Signal D) (_ : x ∈ collectAll project ParsedFile.signals) =>
    soundRefs_signal x
  have h6 := hgroup fun x hx => soundRefs_signalGroup (h.members x hx)
  simp only [writeElements, List.map_append, soundRefs_append, h1, h2, h3, h4, h5, h6,
    implies_true, true_and, and_assoc]

/-- The reference check of the written document has no errors exactly when the
targets of the project are sound. -/
theorem written_references_iff {resolved : ParsedProject D}
    (hresolved : resolveCrossFileReferences project = .ok resolved)
    (hwithout : Without '&' project) {document : XmlDocument}
    (hwrite : WriteEngine.write project = .ok document) {file : ParsedFile D}
    (hfile : file.rawDocument = some document.root.raw) (refs : StdMap ResolvedReference) :
    (validateReferences ⟨[file], refs⟩).hasErrors = false ↔ SoundTargets project := by
  obtain ⟨hdocument, hguard⟩ : document = buildDocument project ∧
      hasBlankText (buildDocument project).root = false := by
    unfold WriteEngine.write at hwrite
    split_ifs at hwrite with _ hguard
    exact ⟨(Except.ok.inj hwrite).symm, Bool.eq_false_iff.mpr hguard⟩
  subst hdocument
  have hvisible := visibleNames_of_guard hwithout hguard
  obtain ⟨hpdus, hsignals, hmembers⟩ := references_known hresolved
  obtain ⟨attributes, hroot⟩ := @raw_buildDocument D _ _ project
  have htag : (buildDocument project).root.raw.tagName ≠ "SHORT-NAME" := by
    rw [hroot]
    exact (by decide : "AUTOSAR" ≠ "SHORT-NAME")
  have hrefs : (∀ site ∈ collectRefs (buildDocument project).root.raw,
      SoundRef (documentPaths project) (trimText site.node.text) site.dest) ↔
      SoundRefs (documentPaths project) ((writeElements project).map XmlNode.raw) := by
    have hspine : SoundRefs (documentPaths project) [(buildDocument project).root.raw] ↔
        SoundRefs (documentPaths project) ((writeElements project).map XmlNode.raw) := by
      rw [hroot, soundRefs_other fun hroot => absurd hroot (by decide)]
      simp
    rw [← hspine, SoundRefs, List.flatMap_singleton]
  rw [validateReferences_no_errors_iff hfile htag, taggedPaths_buildDocument hvisible]
  refine hrefs.trans ((soundRefs_buildDocument hvisible).trans ⟨?_, ?_⟩)
  · rintro ⟨sframes, spdus, ssignals, sgroups⟩
    refine ⟨fun x hx => ?_, fun x hx mapping hmapping => ?_, fun x hx mapping hmapping hne => ?_,
      fun x hx member hmember => ?_⟩
    · exact Bool.eq_false_iff.mpr fun hsigned => not_soundRef_base (ssignals x hx hsigned)
    · by_cases hne : mapping.pduShortNameRef = ""
      · rw [hne]
        exact fun c hc => absurd hc (by simp)
      · exact (soundRef_pdu_iff hvisible (hpdus x hx mapping hmapping hne)).mp
          (sframes x hx mapping hmapping hne)
    · exact (soundRef_signal_iff hvisible (hsignals x hx mapping hmapping hne)).mp
        (spdus x hx mapping hmapping hne)
    · have hne : member ≠ "" := by
        rintro rfl
        exact not_soundRef_empty hvisible (sgroups x hx "" hmember)
      exact ⟨hne, (soundRef_signal_iff hvisible (hmembers x hx member hmember hne)).mp
        (sgroups x hx member hmember)⟩
  · rintro ⟨tsignals, tframes, tpdus, tgroups⟩
    refine ⟨fun x hx mapping hmapping hne => ?_, fun x hx mapping hmapping hne => ?_,
      fun x hx hsigned => ?_, fun x hx member hmember => ?_⟩
    · exact (soundRef_pdu_iff hvisible (hpdus x hx mapping hmapping hne)).mpr
        (tframes x hx mapping hmapping)
    · exact (soundRef_signal_iff hvisible (hsignals x hx mapping hmapping hne)).mpr
        (tpdus x hx mapping hmapping hne)
    · rw [tsignals x hx] at hsigned
      cases hsigned
    · obtain ⟨hne, htarget⟩ := tgroups x hx member hmember
      exact (soundRef_signal_iff hvisible (hmembers x hx member hmember hne)).mpr htarget

end

/-! ## An instance -/

/-- A frame, and a PDU that maps one signal. -/
def projectOfMapping (frame signal : String) (isSigned : Bool) : ParsedProject WholeDouble :=
  { files := [{
      frames := [{ common := { shortName := frame } }]
      pdus := [{ common := { shortName := "Status" }, signalMappings :=
        [{ signalShortNameRef := signal }] }]
      signals := [{ common := { shortName := signal }, isSigned }] }] }

theorem resolves_mapping (frame signal : String) (isSigned : Bool) :
    ∃ resolved, resolveCrossFileReferences (projectOfMapping frame signal isSigned) =
      .ok resolved := by
  rw [resolveCrossFileReferences_ok_iff]
  simp [projectOfMapping, fileSites, sitesOf, collectKnownRefs, ReferenceSite.Missing, shortName,
    DomainElement.common]

/-- The references resolve in the project, and not in its document. -/
structure LosesReferences [LibXml] (project : ParsedProject WholeDouble) : Prop where
  resolves : ∃ resolved, resolveCrossFileReferences project = .ok resolved
  valid : WriteEngine.validate project = ⟨[]⟩
  wrong : ∃ document, WriteEngine.write project = .ok document ∧
    (validateReferences (projectOfDocument document)).hasErrors = true

namespace Literal

/-- The base type of a signed signal dangles, a frame hides a signal of its name,
and resolved names hide each other. -/
theorem written_references_dangle : LosesReferences (projectOfMapping "Brake" "Speed" true) ∧
    LosesReferences (projectOfMapping "Speed" "Speed" false) ∧
    @LosesReferences resolvingLibXml (projectOfMapping "A" "&#65;" false) ∧
    SoundTargets (projectOfMapping "A" "&#65;" false) := by
  refine ⟨⟨resolves_mapping _ _ _, by decide +kernel, ?_⟩,
    ⟨resolves_mapping _ _ _, by decide +kernel, ?_⟩,
    @LosesReferences.mk resolvingLibXml _ (resolves_mapping _ _ _) (by decide +kernel) ?_,
    by constructor <;> decide +kernel⟩
  · refine ⟨buildDocument (projectOfMapping "Brake" "Speed" true), ?_, by decide +kernel⟩
    rw [WriteEngine.write, if_neg (by decide +kernel), if_neg (by decide +kernel)]
  · refine ⟨buildDocument (projectOfMapping "Speed" "Speed" false), ?_, by decide +kernel⟩
    rw [WriteEngine.write, if_neg (by decide +kernel), if_neg (by decide +kernel)]
  · let : LibXml := resolvingLibXml
    refine ⟨buildDocument (projectOfMapping "A" "&#65;" false), ?_, by decide +kernel⟩
    rw [WriteEngine.write, if_neg (by decide +kernel), if_neg (by decide +kernel)]

theorem written_references_two_names :
    let project := projectOfMapping "Brake" "Speed" false
    WriteEngine.write project = .ok (buildDocument project) ∧
      (validateReferences (projectOfDocument (buildDocument project))).hasErrors = false := by
  intro project
  obtain ⟨resolved, hresolved⟩ := resolves_mapping "Brake" "Speed" false
  have hwithout : Without '&' project := by constructor <;> decide +kernel
  have hwrite : WriteEngine.write project = .ok (buildDocument project) := by
    rw [WriteEngine.write, if_neg (by decide +kernel), if_neg (by decide +kernel)]
  have htargets : SoundTargets project := by constructor <;> decide +kernel
  exact ⟨hwrite, (written_references_iff hresolved hwithout hwrite rfl ∅).mpr htargets⟩

end Literal

end ParseX

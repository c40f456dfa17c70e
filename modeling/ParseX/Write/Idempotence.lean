import ParseX.Write.Fidelity
import ParseX.Write.StableSort

/-! # Write, parse, write

What is written reads back as elements that are already in order, so writing
them again gives the same document. -/
namespace ParseX
open Cpp

/-- The loader's tree of a saved document. Its root has the attributes of the
document, then the namespace declarations. -/
structure Loads (document : XmlDocument) (root : RawNode) : Prop where
  tree : Reloads document root
  attributes : root.attributes = document.root.attributes ++ [("xmlns", document.namespaceUri),
    ("xmlns:xsi", "http://www.w3.org/2001/XMLSchema-instance")]

/-! ## The release -/

section
variable {D : Type} [Double D] {project : ParsedProject D}

theorem buildSubtree_autosarRelease (node : RawNode) (file : ParsedFile D) :
    (buildSubtree node file).autosarRelease = file.autosarRelease := by
  rw [buildSubtree_eq]
  generalize node.nodes = nodes
  induction nodes generalizing file with
  | nil => rfl
  | cons node nodes ih =>
    rw [List.foldl_cons, ih, buildNode]
    dsimp only
    split_ifs <;> rfl

theorem release_of_parserOutput {file : ParsedFile D} (h : ParserOutput file) :
    file.autosarRelease ∈ schemaFilenameTable.map Prod.snd := by
  obtain ⟨path, root, h⟩ := h
  unfold parseDocument at h
  split at h
  · cases h
  · split at h
    · cases h
    · rename_i schemaFilename _ _ release hrelease
      obtain rfl := Except.ok.inj h
      unfold resolveRelease at hrelease
      split at hrelease
      · rename_i found hfound
        obtain rfl := Except.ok.inj hrelease
        obtain ⟨front, back, htable, -⟩ := List.lookup_eq_some_iff.mp hfound
        rw [show ({ buildSubtree root ({ autosarRelease := found, sourcePath := path } :
            ParsedFile D) with rawDocument := some root } : ParsedFile D).autosarRelease = found from
          buildSubtree_autosarRelease root _, htable]
        simp
      · cases hrelease

/-- Every release of the table is written as its own schema file. -/
theorem detect_written_release {release : String}
    (h : release ∈ schemaFilenameTable.map Prod.snd) :
    resolveRelease (schemaFilenameForRelease release) = .ok release ∧ release ≠ "" ∧
    ∀ root : RawNode, root.attributes = (forRelease release []).root.attributes ++
        [("xmlns", (forRelease release []).namespaceUri),
          ("xmlns:xsi", "http://www.w3.org/2001/XMLSchema-instance")] →
      detectSchemaFilename root = some (schemaFilenameForRelease release) := by
  have hroot (root : RawNode) : detectSchemaFilename root =
      detectSchemaFilename { tagName := "AUTOSAR", attributes := root.attributes } := rfl
  simp only [hroot]
  revert release
  have hall : ∀ release ∈ schemaFilenameTable.map Prod.snd,
      resolveRelease (schemaFilenameForRelease release) = .ok release ∧ release ≠ "" ∧
      detectSchemaFilename { tagName := "AUTOSAR", attributes :=
        (forRelease release []).root.attributes ++ [("xmlns", (forRelease release []).namespaceUri),
          ("xmlns:xsi", "http://www.w3.org/2001/XMLSchema-instance")] } =
        some (schemaFilenameForRelease release) := by decide +kernel
  intro release h
  obtain ⟨h1, h2, h3⟩ := hall release h
  exact ⟨h1, h2, fun root hattributes => hattributes ▸ h3⟩

/-- The release of a document is one of the table. -/
theorem writeRelease_mem (hparsed : ∀ file ∈ project.files, ParserOutput file) :
    writeRelease project ∈ schemaFilenameTable.map Prod.snd := by
  unfold writeRelease
  split
  · rename_i file rest hfiles
    split
    · decide
    · exact release_of_parserOutput (hparsed file (hfiles ▸ List.mem_cons_self))
  · decide

/-- A loaded document is parsed, as a file of its release. -/
theorem parseDocument_loads [LibXml] (hparsed : ∀ file ∈ project.files, ParserOutput file)
    (path : String) {root : RawNode} (hroot : Loads (buildDocument project) root) :
    ∃ file : ParsedFile D, parseDocument path root = .ok file ∧
      file.autosarRelease = writeRelease project ∧ file.autosarRelease ≠ "" := by
  obtain ⟨hresolve, hne, hdetect⟩ := detect_written_release (writeRelease_mem hparsed)
  refine ⟨{ buildSubtree root { autosarRelease := writeRelease project, sourcePath := path } with
    rawDocument := some root }, ?_, ?_, ?_⟩
  · rw [parseDocument, hdetect root hroot.attributes]
    dsimp only
    rw [hresolve]
  · exact buildSubtree_autosarRelease root _
  · exact (buildSubtree_autosarRelease root _).trans_ne hne

end

/-! ## Elements -/

section
variable [LibXml] [LawfulLibXml] {node : RawNode}

/-- A value that is written as another and has its name. -/
def WrittenAs {T : Type} [DomainElement T] (element : T → XmlNode) (old new : T) : Prop :=
  element new = element old ∧ shortName new = shortName old

theorem Cluster.Plain.writtenAs {value : Cluster} (h : value.Plain)
    (hnode : node.bare = (buildClusterElement value).raw.bare) :
    WrittenAs buildClusterElement value (buildCluster node).1 := by
  obtain ⟨hname, hcategory, hbaudrate, hchannels⟩ := Cluster.survives_reread h hnode
  refine ⟨?_, hname⟩
  simp only [buildClusterElement, clusterConditional, hname, hcategory, hbaudrate, hchannels,
    sortedStrings, isEmpty_stableSort, stableSort_stableSort]

theorem EcuInstance.Plain.writtenAs {value : EcuInstance} (h : value.Plain)
    (hnode : node.bare = (buildEcuInstanceElement value).raw.bare) :
    WrittenAs buildEcuInstanceElement value (buildEcuInstance node).1 := by
  obtain ⟨hname, hcategory, hcontrollers⟩ := EcuInstance.survives_reread h hnode
  refine ⟨?_, hname⟩
  simp only [buildEcuInstanceElement, hname, hcategory, hcontrollers, sortedStrings,
    isEmpty_stableSort, stableSort_stableSort]

theorem Frame.Plain.writtenAs {value : Frame} (h : value.Plain)
    (hnode : node.bare = (buildFrameElement value).raw.bare) :
    WrittenAs buildFrameElement value (buildFrame node).1 := by
  have hbare := congrArg (fun n => (buildFrame n).1) hnode
  simp only [buildFrame_bare, buildFrame_element h] at hbare
  have hname : (buildFrame node).1.common.shortName = value.common.shortName :=
    (congrArg (fun x : Frame => x.common.shortName) hbare :)
  have hlength : (buildFrame node).1.length = value.length := (congrArg Frame.length hbare :)
  have hpdus : (buildFrame node).1.pdus = sortedFramePduMappings value.pdus :=
    (congrArg Frame.pdus hbare :)
  refine ⟨?_, hname⟩
  simp only [buildFrameElement, hname, hlength, hpdus, sortedFramePduMappings, isEmpty_stableSort,
    stableSort_stableSort]

/-- The byte order that is lost was not written either. -/
theorem Pdu.Plain.writtenAs {value : Pdu} (h : value.Plain)
    (hnode : node.bare = (buildPduElement value).raw.bare) :
    WrittenAs buildPduElement value (buildPdu node).1 := by
  have hbare := congrArg (fun n => (buildPdu n).1) hnode
  simp only [buildPdu_bare, buildPdu_element h] at hbare
  have hname : (buildPdu node).1.common.shortName = value.common.shortName :=
    (congrArg (fun x : Pdu => x.common.shortName) hbare :)
  have hlength : (buildPdu node).1.length = value.length := (congrArg Pdu.length hbare :)
  have hmappings : (buildPdu node).1.signalMappings =
      (sortedPduSignalMappings value.signalMappings).map fun mapping =>
        { mapping with byteOrder := .mostSignificantByteFirst } :=
    (congrArg Pdu.signalMappings hbare :)
  have hsorted : sortedPduSignalMappings (buildPdu node).1.signalMappings =
      (buildPdu node).1.signalMappings := by
    rw [hmappings]
    exact stableSort_of_pairwise (List.pairwise_map.mpr (pairwise_stableSort _ _))
  have hempty : (buildPdu node).1.signalMappings.isEmpty = value.signalMappings.isEmpty := by
    rw [hmappings, List.isEmpty_map, sortedPduSignalMappings, isEmpty_stableSort]
  refine ⟨?_, hname⟩
  simp only [buildPduElement, hname, hlength, hempty, hsorted]
  rw [hmappings, List.zipIdx_map, List.map_map]
  rfl

theorem Signal.Plain.writtenAs {D : Type} [Double D] [LawfulDouble D] {value : Signal D}
    (h : value.Plain) (hnode : node.bare = (buildSignalElement value).raw.bare) :
    WrittenAs buildSignalElement value (buildSignal node : Signal D × List Warning).1 := by
  have hbare := congrArg (fun n => (buildSignal n : Signal D × List Warning).1) hnode
  simp only [buildSignal_bare, buildSignal_element h] at hbare
  have hname : (buildSignal node : Signal D × List Warning).1.common.shortName =
      value.common.shortName := (congrArg (fun x : Signal D => x.common.shortName) hbare :)
  have hlength : (buildSignal node : Signal D × List Warning).1.bitLength = value.bitLength :=
    (congrArg Signal.bitLength hbare :)
  have hsigned : (buildSignal node : Signal D × List Warning).1.isSigned = value.isSigned :=
    (congrArg Signal.isSigned hbare :)
  have hinit : (buildSignal node : Signal D × List Warning).1.initValue = value.initValue :=
    (congrArg Signal.initValue hbare :)
  refine ⟨?_, hname⟩
  simp only [buildSignalElement, hname, hlength, hsigned, hinit]

theorem SignalGroup.Plain.writtenAs {value : SignalGroup} (h : value.Plain)
    (hnode : node.bare = (buildSignalGroupElement value).raw.bare) :
    WrittenAs buildSignalGroupElement value (buildSignalGroup node).1 := by
  have hbare := congrArg (fun n => (buildSignalGroup n).1) hnode
  simp only [buildSignalGroup_bare, buildSignalGroup_element h] at hbare
  have hname : (buildSignalGroup node).1.common.shortName = value.common.shortName :=
    (congrArg (fun x : SignalGroup => x.common.shortName) hbare :)
  have hmembers : (buildSignalGroup node).1.members = sortedStrings value.members :=
    (congrArg SignalGroup.members hbare :)
  refine ⟨?_, hname⟩
  simp only [buildSignalGroupElement, hname, hmembers, sortedStrings, isEmpty_stableSort,
    stableSort_stableSort]

end

/-! ## The document -/

/-- The rebuilt elements of one type are written as the old ones, and are in
order already. -/
theorem written_again {T : Type} [DomainElement T] {build : RawNode → T} {element : T → XmlNode}
    {items : List T} {family : String → Bool} {root reread : RawNode}
    (hreload : reread.bare = root.bare)
    (hfound : nodesOfFamily root family = (sortedCopy items).map fun x => (element x).raw)
    (hpair : ∀ x ∈ items, ∀ node : RawNode, node.bare = (element x).raw.bare →
      WrittenAs element x (build node)) :
    (sortedCopy ((nodesOfFamily reread family).map build)).map element =
        (sortedCopy items).map element ∧
      ∀ y ∈ (nodesOfFamily reread family).map build, ∃ x ∈ items, shortName y = shortName x := by
  have hall : List.Forall₂ (WrittenAs element) (sortedCopy items)
      ((nodesOfFamily reread family).map build) :=
    (forall₂_reread_iff hreload hfound fun x hx node hnode =>
      iff_true_intro (hpair x hx node hnode)).mpr fun _ _ => trivial
  generalize (nodesOfFamily reread family).map build = rebuilt at hall
  have hnames : rebuilt.map shortName = (sortedCopy items).map shortName :=
    (map_eq_of_forall₂ hall fun _ _ _ h => h.2.symm).symm
  have helements : rebuilt.map element = (sortedCopy items).map element :=
    (map_eq_of_forall₂ hall fun _ _ _ h => h.1.symm).symm
  constructor
  · have hsorted : sortedCopy rebuilt = rebuilt := by
      refine stableSort_of_pairwise (List.pairwise_map.mp ?_)
      rw [hnames]
      exact List.pairwise_map.mpr (pairwise_stableSort shortName items)
    rw [hsorted, helements]
  · intro y hy
    have hmem : shortName y ∈ rebuilt.map shortName := List.mem_map_of_mem hy
    rw [hnames] at hmem
    obtain ⟨x, hx, hname⟩ := List.mem_map.mp hmem
    exact ⟨x, mem_stableSort.mp hx, hname.symm⟩

/-- A file whose elements all have names has no findings. -/
theorem validate_of_names {D : Type} [Double D] {file : ParsedFile D}
    (h1 : ∀ x ∈ file.clusters, shortName x ≠ "") (h2 : ∀ x ∈ file.ecuInstances, shortName x ≠ "")
    (h3 : ∀ x ∈ file.frames, shortName x ≠ "") (h4 : ∀ x ∈ file.pdus, shortName x ≠ "")
    (h5 : ∀ x ∈ file.signals, shortName x ≠ "") (h6 : ∀ x ∈ file.signalGroups, shortName x ≠ "")
    (refs : StdMap ResolvedReference) : WriteEngine.validate ⟨[file], refs⟩ = ⟨[]⟩ := by
  have hnil {T : Type} [DomainElement T] {type : String} {items : List T}
      (h : ∀ x ∈ items, shortName x ≠ "") : checkShortNames type (items.map shortName) 0 = [] := by
    refine List.filterMap_eq_nil_iff.mpr fun item hitem => ?_
    have hmem : item.1 ∈ (items.map shortName).zipIdx.map Prod.fst := List.mem_map_of_mem hitem
    rw [List.zipIdx_map_fst] at hmem
    obtain ⟨x, hx, hname⟩ := List.mem_map.mp hmem
    exact if_pos (hname ▸ h x hx)
  simp only [WriteEngine.validate, List.zipIdx_singleton, List.flatMap_cons, List.flatMap_nil,
    validateFile, hnil h1, hnil h2, hnil h3, hnil h4, hnil h5, hnil h6, List.append_nil]

section
variable {D : Type} [Double D] [LawfulDouble D] [LibXml] [LawfulLibXml]
  {project : ParsedProject D}

/-- A file built from a loaded document is written as this document. -/
theorem write_reread (hplain : PlainProject project)
    (hvalid : WriteEngine.validate project = ⟨[]⟩)
    (hcategory : EveryCommon (fun common => common.category ≠ some "") project)
    {root : RawNode} (hroot : Reloads (buildDocument project) root) {file : ParsedFile D}
    (hbuilt : BuiltFrom root file) (hrelease : file.autosarRelease = writeRelease project)
    (hne : file.autosarRelease ≠ "") (refs : StdMap ResolvedReference) :
    WriteEngine.write ⟨[file], refs⟩ = .ok (buildDocument project) := by
  obtain ⟨n1, n2, n3, n4, n5, n6⟩ := everyCommon_of_validate hvalid
  obtain ⟨d1, d2, d3, d4, d5, d6⟩ := nodesOfFamily_document_each project
  have named {T : Type} [DomainElement T] {items rebuilt : List T}
      (h : ∀ y ∈ rebuilt, ∃ x ∈ items, shortName y = shortName x)
      (hn : ∀ x ∈ items, shortName x ≠ "") : ∀ y ∈ rebuilt, shortName y ≠ "" := by
    intro y hy
    obtain ⟨x, hx, hname⟩ := h y hy
    rw [hname]
    exact hn x hx
  obtain ⟨e1, m1⟩ := written_again hroot d1 fun x hx _ => (hplain.clusters x hx).writtenAs
  obtain ⟨e2, m2⟩ := written_again hroot d2 fun x hx _ => (hplain.ecuInstances x hx).writtenAs
  obtain ⟨e3, m3⟩ := written_again hroot d3 fun x hx _ => (hplain.frames x hx).writtenAs
  obtain ⟨e4, m4⟩ := written_again hroot d4 fun x hx _ => (hplain.pdus x hx).writtenAs
  obtain ⟨e5, m5⟩ := written_again hroot d5 fun x hx _ => (hplain.signals x hx).writtenAs
  obtain ⟨e6, m6⟩ := written_again hroot d6 fun x hx _ => (hplain.signalGroups x hx).writtenAs
  rw [← hbuilt.clusters] at e1 m1
  rw [← hbuilt.ecuInstances] at e2 m2
  rw [← hbuilt.frames] at e3 m3
  rw [← hbuilt.pdus] at e4 m4
  rw [← hbuilt.signals] at e5 m5
  rw [← hbuilt.signalGroups] at e6 m6
  have hdocument : buildDocument (⟨[file], refs⟩ : ParsedProject D) = buildDocument project := by
    have hsame : writeRelease (⟨[file], refs⟩ : ParsedProject D) = writeRelease project :=
      (if_neg hne).trans hrelease
    simp only [buildDocument, hsame, writeElements, collectAll, List.flatMap_cons,
      List.flatMap_nil, List.append_nil]
    simp only [collectAll] at e1 e2 e3 e4 e5 e6
    rw [e1, e2, e3, e4, e5, e6]
  have hblank : hasBlankText (buildDocument project).root = false := by
    have hwrite := write_ok hplain hvalid ⟨hcategory.clusters, hcategory.ecuInstances⟩
    unfold WriteEngine.write at hwrite
    split_ifs at hwrite with _ hblank
    exact Bool.eq_false_iff.mpr hblank
  have hclean : (WriteEngine.validate (⟨[file], refs⟩ : ParsedProject D)) = ⟨[]⟩ :=
    validate_of_names (named m1 n1) (named m2 n2) (named m3 n3) (named m4 n4) (named m5 n5)
      (named m6 n6) refs
  rw [WriteEngine.write, hclean, hdocument, hblank]
  rfl

/-- **Writing what was written gives the same document.** -/
theorem write_parse_write (hparsed : ∀ file ∈ project.files, ParserOutput file)
    (hvalid : WriteEngine.validate project = ⟨[]⟩) (hwithout : Without '&' project)
    (hcategory : EveryCommon (fun common => common.category ≠ some "") project) :
    ∃ document, WriteEngine.write project = .ok document ∧
      ∀ path root, Loads document root → ∃ file : ParsedFile D,
        parseDocument path root = .ok file ∧
        ∀ refs, WriteEngine.write ⟨[file], refs⟩ = .ok document := by
  have hplain := plainProject_of_parsed hparsed hwithout
  refine ⟨_, write_ok hplain hvalid ⟨hcategory.clusters, hcategory.ecuInstances⟩, fun path root hroot => ?_⟩
  obtain ⟨file, hfile, hrelease, hne⟩ := parseDocument_loads hparsed path hroot
  exact ⟨file, hfile, write_reread hplain hvalid hcategory hroot.tree
    (parseDocument_ok hfile).2 hrelease hne⟩

end

namespace Literal

theorem write_parse_write_little_endian :
    let project := projectOfOrder "LEAST-SIGNIFICANT-BYTE-FIRST"
    ∃ document, WriteEngine.write project = .ok document ∧
      ∀ path root, Loads document root → ∃ file : ParsedFile WholeDouble,
        parseDocument path root = .ok file ∧
        ∀ refs, WriteEngine.write ⟨[file], refs⟩ = .ok document :=
  write_parse_write (parsed_of_order _) (by decide +kernel) (by constructor <;> decide +kernel)
    (by constructor <;> decide +kernel)

end Literal

end ParseX

import ParseX.Diff.Reorder
import ParseX.Write.Fidelity
import ParseX.Write.StableSort

/-! # Order of the input

The document is the same for every order of files, elements and nested
collections, unless mappings of one owner tie: the sort by reference then keeps
the order of the input. -/
namespace ParseX
open Cpp

/-! ## Reordered projects -/

section
variable {D : Type} [Double D]

/-- The second file is the first with its elements and their nested collections
in another order. -/
structure ParsedFile.Reordered (x y : ParsedFile D) : Prop where
  autosarRelease : x.autosarRelease = y.autosarRelease
  clusters : ReorderedList Cluster.Reordered x.clusters y.clusters
  ecuInstances : ReorderedList EcuInstance.Reordered x.ecuInstances y.ecuInstances
  frames : ReorderedList Frame.Reordered x.frames y.frames
  pdus : ReorderedList Pdu.Reordered x.pdus y.pdus
  signals : ReorderedList Signal.Reordered x.signals y.signals
  signalGroups : ReorderedList SignalGroup.Reordered x.signalGroups y.signalGroups

/-- The second project is the first with its files in another order, each of
them reordered. -/
def FilesReordered (old new : ParsedProject D) : Prop :=
  ReorderedList ParsedFile.Reordered old.files new.files

/-- All files are of one release. -/
def OneRelease (project : ParsedProject D) : Prop :=
  ∀ file ∈ project.files, ∀ file' ∈ project.files, file.autosarRelease = file'.autosarRelease

/-- Mappings of one owner with the same reference start at the same position. -/
structure SteadyMappings (project : ParsedProject D) : Prop where
  frames : ∀ frame ∈ collectAll project ParsedFile.frames, ∀ m ∈ frame.pdus, ∀ m' ∈ frame.pdus,
    m.pduShortNameRef = m'.pduShortNameRef → m.startPosition = m'.startPosition
  pdus : ∀ pdu ∈ collectAll project ParsedFile.pdus, ∀ m ∈ pdu.signalMappings,
    ∀ m' ∈ pdu.signalMappings,
    m.signalShortNameRef = m'.signalShortNameRef → m.startPosition = m'.startPosition

end

theorem ReorderedList.flatMap {S T : Type} {R : S → S → Prop} {Q : T → T → Prop}
    {f : S → List T} {old new : List S} (h : ReorderedList R old new)
    (hf : ∀ x y, R x y → ReorderedList Q (f x) (f y)) :
    ReorderedList Q (old.flatMap f) (new.flatMap f) := by
  obtain ⟨permuted, hperm, hall⟩ := h
  obtain ⟨flat, hflat, hpairs⟩ : ReorderedList Q (permuted.flatMap f) (new.flatMap f) := by
    clear hperm
    induction hall with
    | nil => exact ⟨[], .nil, .nil⟩
    | cons hxy _ ih =>
      obtain ⟨front, hfront, hfronts⟩ := hf _ _ hxy
      obtain ⟨back, hback, hbacks⟩ := ih
      exact ⟨front ++ back, hfront.append hback, List.rel_append hfronts hbacks⟩
  exact ⟨flat, hflat.trans (hperm.flatMap_right f), hpairs⟩

theorem ReorderedList.refl {T : Type} {R : T → T → Prop} (hR : ∀ x, R x x) (items : List T) :
    ReorderedList R items items :=
  ⟨items, .refl items, List.forall₂_same.mpr fun x _ => hR x⟩

/-! ## Elements of reordered items -/

/-- Mapping elements depend on reference, start position and index. -/
theorem mappingElements_eq {M : Type} {key : M → String} {start : M → UInt32}
    {element : M × Nat → XmlNode} {write : (String × UInt32) × Nat → XmlNode}
    (helement : ∀ item, element item = write ((key item.1, start item.1), item.2))
    (mappings : List M) : mappings.zipIdx.map element =
      (mappings.map fun m => (key m, start m)).zipIdx.map write := by
  rw [List.zipIdx_map, List.map_map]
  exact List.map_congr_left fun item _ => helement item

section
variable [LibXml]

theorem Cluster.Reordered.element_eq {x y : Cluster} (h : x.Reordered y) :
    buildClusterElement x = buildClusterElement y := by
  simp only [buildClusterElement, clusterConditional, h.common, h.baudrate,
    sortedStrings_perm h.physicalChannels, h.physicalChannels.isEmpty_eq]

theorem EcuInstance.Reordered.element_eq {x y : EcuInstance} (h : x.Reordered y) :
    buildEcuInstanceElement x = buildEcuInstanceElement y := by
  simp only [buildEcuInstanceElement, h.common, sortedStrings_perm h.controllers,
    h.controllers.isEmpty_eq]

theorem SignalGroup.Reordered.element_eq {x y : SignalGroup} (h : x.Reordered y) :
    buildSignalGroupElement x = buildSignalGroupElement y := by
  simp only [buildSignalGroupElement, h.common, sortedStrings_perm h.members, h.members.isEmpty_eq]

theorem Signal.Reordered.element_eq {D : Type} [Double D] {x y : Signal D} (h : x.Reordered y) :
    buildSignalElement x = buildSignalElement y := by
  obtain ⟨-, hlength, -, hsigned, -, -, -, -, hinit⟩ := h.scalars
  simp only [buildSignalElement, h.common, hlength, hsigned, hinit]

theorem Frame.Reordered.element_eq {x y : Frame} (h : x.Reordered y)
    (hsteady : ∀ m ∈ x.pdus, ∀ m' ∈ x.pdus,
      m.pduShortNameRef = m'.pduShortNameRef → m.startPosition = m'.startPosition) :
    buildFrameElement x = buildFrameElement y := by
  have hmappings (mappings : List FramePduMapping) :=
    @mappingElements_eq FramePduMapping FramePduMapping.pduShortNameRef
      FramePduMapping.startPosition (frameMappingElement y.common.shortName)
      (fun item => mappingElement "PDU-TO-FRAME-MAPPING" "PDU-REF" "I-SIGNAL-I-PDU"
        y.common.shortName item.1.1 item.1.2 item.2) (fun _ => rfl) mappings
  simp only [buildFrameElement, h.common, h.length, h.pdus.isEmpty_eq, hmappings,
    sortedFramePduMappings, stableSort_perm_eq _ _ h.pdus hsteady]

theorem Pdu.Reordered.element_eq {x y : Pdu} (h : x.Reordered y)
    (hsteady : ∀ m ∈ x.signalMappings, ∀ m' ∈ x.signalMappings,
      m.signalShortNameRef = m'.signalShortNameRef → m.startPosition = m'.startPosition) :
    buildPduElement x = buildPduElement y := by
  have hmappings (mappings : List PduSignalMapping) :=
    @mappingElements_eq PduSignalMapping PduSignalMapping.signalShortNameRef
      PduSignalMapping.startPosition (pduMappingElement y.common.shortName)
      (fun item => mappingElement "I-SIGNAL-TO-I-PDU-MAPPING" "I-SIGNAL-REF" "I-SIGNAL"
        y.common.shortName item.1.1 item.1.2 item.2) (fun _ => rfl) mappings
  simp only [buildPduElement, h.common, h.length, h.signalMappings.isEmpty_eq, hmappings,
    sortedPduSignalMappings, stableSort_perm_eq _ _ h.signalMappings hsteady]

/-! ## The same document -/

omit [LibXml] in
/-- Reordered elements with distinct names are written alike. -/
theorem map_sortedCopy_eq {T : Type} [DomainElement T] {R : T → T → Prop} {element : T → XmlNode}
    {old new : List T} (h : ReorderedList R old new) (hn : (old.map shortName).Nodup)
    (hcommon : ∀ x y, R x y → DomainElement.common x = DomainElement.common y)
    (helement : ∀ x ∈ old, ∀ y, R x y → element x = element y) :
    (sortedCopy new).map element = (sortedCopy old).map element := by
  obtain ⟨permuted, hperm, hall⟩ := h
  have hsorted : sortedCopy old = sortedCopy permuted :=
    stableSort_perm_eq_of_nodup hperm.symm hn
  rw [hsorted]
  refine (map_eq_of_forall₂ (forall₂_stableSort (fun x y hxy => ?_) hall) fun x hx => ?_).symm
  · rw [shortName, shortName, hcommon x y hxy]
  · exact helement x (hperm.mem_iff.mp (mem_stableSort.mp hx))

variable {D : Type} [Double D] {p q : ParsedProject D}

omit [LibXml] in
theorem FilesReordered.collectAll {T : Type} {R : T → T → Prop} {member : ParsedFile D → List T}
    (h : FilesReordered p q)
    (hmember : ∀ x y : ParsedFile D, x.Reordered y → ReorderedList R (member x) (member y)) :
    ReorderedList R (ParseX.collectAll p member) (ParseX.collectAll q member) :=
  h.flatMap hmember

omit [LibXml] in
theorem writeRelease_reordered (h : FilesReordered p q) (hone : OneRelease p) :
    writeRelease q = writeRelease p := by
  obtain ⟨permuted, hperm, hall⟩ := h
  unfold writeRelease
  generalize q.files = files at hall
  cases hall with
  | nil => rw [hperm.symm.eq_nil]
  | @cons first file _ _ hfirst hrest =>
    cases hp : p.files with
    | nil => rw [hp] at hperm; exact absurd hperm.eq_nil (List.cons_ne_nil _ _)
    | cons head tail =>
      have hsame := hone first (hperm.mem_iff.mp List.mem_cons_self) head
        (by rw [hp]; exact List.mem_cons_self)
      dsimp only
      rw [← hfirst.autosarRelease, hsame]

/-- Without ties the order of the input leaves no trace. -/
theorem buildDocument_reordered (hunique : UniqueShortNames p) (hone : OneRelease p)
    (hsteady : SteadyMappings p) (h : FilesReordered p q) : buildDocument q = buildDocument p := by
  obtain ⟨n1, n2, n3, n4, n5, n6⟩ := hunique
  have e1 := map_sortedCopy_eq (h.collectAll fun _ _ hf => hf.clusters) n1
    (fun _ _ hx => hx.common) fun _ _ _ hx => hx.element_eq
  have e2 := map_sortedCopy_eq (h.collectAll fun _ _ hf => hf.ecuInstances) n2
    (fun _ _ hx => hx.common) fun _ _ _ hx => hx.element_eq
  have e3 := map_sortedCopy_eq (h.collectAll fun _ _ hf => hf.frames) n3
    (fun _ _ hx => hx.common) fun x hmem _ hx => hx.element_eq (hsteady.frames x hmem)
  have e4 := map_sortedCopy_eq (h.collectAll fun _ _ hf => hf.pdus) n4
    (fun _ _ hx => hx.common) fun x hmem _ hx => hx.element_eq (hsteady.pdus x hmem)
  have e5 := map_sortedCopy_eq (h.collectAll fun _ _ hf => hf.signals) n5
    (fun _ _ hx => hx.common) fun _ _ _ hx => hx.element_eq
  have e6 := map_sortedCopy_eq (h.collectAll fun _ _ hf => hf.signalGroups) n6
    (fun _ _ hx => hx.common) fun _ _ _ hx => hx.element_eq
  rw [buildDocument, buildDocument, writeRelease_reordered h hone, writeElements, writeElements,
    e1, e2, e3, e4, e5, e6]

end

/-! ## Ties -/

/-- If two items of one key, each put in front, are sorted into the same values,
these items have the same value. -/
theorem value_eq_of_tie {M V : Type} [DecidableEq M] {key : M → String} {value : M → V}
    {items : List M} {m m' : M} (hm : m ∈ items) (hm' : m' ∈ items) (hkey : key m = key m')
    (h : (stableSort key (m :: items.erase m)).map value =
      (stableSort key (m' :: items.erase m')).map value) : value m = value m' := by
  have hperm : (m :: items.erase m).Perm (m' :: items.erase m') :=
    (List.perm_cons_erase hm).symm.trans (List.perm_cons_erase hm')
  have hkeys := congrArg (List.map Prod.fst)
    (stableSort_perm_eq key key hperm fun _ _ _ _ he => he)
  simp only [List.map_map, Function.comp_def] at hkeys
  have hpairs := congrArg₂ List.zip hkeys h
  rw [List.zip_map', List.zip_map'] at hpairs
  -- the first pair of the common key comes from the item in front
  have hfirst (m : M) (rest : List M) : ((((stableSort key (m :: rest)).map fun x =>
      (key x, value x)).filter fun pair => pair.1 = key m).map Prod.snd).head? =
      some (value m) := by
    rw [List.filter_map, List.map_map]
    change (List.map _ ((stableSort key (m :: rest)).filter fun x => decide (key x = key m))).head? = _
    rw [filter_stableSort, List.filter_cons_of_pos (by simp)]
    rfl
  have hhead := hfirst m (items.erase m)
  rw [hpairs, hkey, hfirst m' (items.erase m')] at hhead
  exact (Option.some.inj hhead).symm

/-- The start position that a mapping element states. -/
def startOf (node : XmlNode) : Option String := node.children.getLast?.bind XmlNode.content

section
variable [LibXml] [LawfulLibXml]

theorem startOf_mappingElement {tagName refTag dest owner ref : String} {startPosition : UInt32}
    {idx : Nat} : startOf (mappingElement tagName refTag dest owner ref startPosition idx) =
      some (toString startPosition.toNat) := by
  rw [startOf, mappingElement, List.getLast?_concat]
  exact congrArg some (setContent_toString _)

omit [LibXml] [LawfulLibXml] in
/-- The start positions in a list of mapping elements. -/
theorem starts_of_elements {M : Type} {start : M → UInt32} {element : M × Nat → XmlNode}
    (helement : ∀ item, startOf (element item) = some (toString (start item.1).toNat))
    {mappings mappings' : List M}
    (h : mappings.zipIdx.map element = mappings'.zipIdx.map element) :
    mappings.map start = mappings'.map start := by
  have hstarts (mappings : List M) : (mappings.zipIdx.map element).map startOf =
      (mappings.map start).map fun position => some (toString position.toNat) := by
    rw [List.map_map, List.map_map, ← List.zipIdx_map_fst 0 mappings, List.map_map,
      List.zipIdx_map_fst]
    exact List.map_congr_left fun item _ => helement item
  have heq := congrArg (List.map startOf) h
  rw [hstarts, hstarts] at heq
  refine List.map_injective_iff.mpr (fun a b hab => ?_) heq
  exact UInt32.toNat_inj.mp (toString_nat_inj (Option.some.inj hab))

end

/-! ## Edited projects -/

section
variable {D : Type} [Double D]

/-- The project with every frame edited. -/
def ParsedProject.mapFrames (project : ParsedProject D) (edit : Frame → Frame) :
    ParsedProject D :=
  { project with
    files := project.files.map fun file => { file with
      frames := file.frames.map edit } }

/-- The project with every PDU edited. -/
def ParsedProject.mapPdus (project : ParsedProject D) (edit : Pdu → Pdu) : ParsedProject D :=
  { project with
    files := project.files.map fun file => { file with
      pdus := file.pdus.map edit } }

theorem ReorderedList.of_map {T : Type} {R : T → T → Prop} {edit : T → T}
    (hR : ∀ x, R x (edit x)) (items : List T) : ReorderedList R items (items.map edit) :=
  ⟨items, .refl items, List.forall₂_map_right_iff.mpr (List.forall₂_same.mpr fun x _ => hR x)⟩

theorem Signal.Reordered.refl (x : Signal D) : x.Reordered x :=
  ⟨rfl, ⟨rfl, rfl, rfl, rfl, rfl, rfl, rfl, rfl, rfl⟩, rfl, .refl _, by
    cases x.valueTable <;> constructor
    exact .refl _⟩

/-- A file keeps its elements. -/
theorem ParsedFile.Reordered.refl (file : ParsedFile D) : file.Reordered file :=
  ⟨rfl, .refl (fun _ => ⟨rfl, rfl, .refl _⟩) _, .refl (fun _ => ⟨rfl, .refl _, .refl _⟩) _,
    .refl (fun _ => ⟨rfl, rfl, .refl _, .refl _⟩) _, .refl (fun _ => ⟨rfl, rfl, .refl _⟩) _,
    .refl Signal.Reordered.refl _, .refl (fun _ => ⟨rfl, .refl _⟩) _⟩

theorem mapFrames_reordered {edit : Frame → Frame} (h : ∀ x : Frame, x.Reordered (edit x))
    (project : ParsedProject D) : FilesReordered project (project.mapFrames edit) :=
  .of_map (fun file =>
    { ParsedFile.Reordered.refl file with
      frames := .of_map h file.frames }) _

theorem mapPdus_reordered {edit : Pdu → Pdu} (h : ∀ x : Pdu, x.Reordered (edit x))
    (project : ParsedProject D) : FilesReordered project (project.mapPdus edit) :=
  .of_map (fun file =>
    { ParsedFile.Reordered.refl file with
      pdus := .of_map h file.pdus }) _

theorem sortedCopy_map {T : Type} [DomainElement T] {edit : T → T} {items : List T}
    (h : ∀ x, shortName (edit x) = shortName x) :
    sortedCopy (items.map edit) = (sortedCopy items).map edit :=
  (map_stableSort fun x _ => h x).symm

variable [LibXml]

theorem writeElements_eq_of_document {p q : ParsedProject D}
    (h : buildDocument p = buildDocument q) : writeElements p = writeElements q := by
  simp only [buildDocument, forRelease, XmlDocument.mk.injEq, XmlNode.mk.injEq,
    List.cons.injEq, true_and, and_true] at h
  exact h.2.2

theorem writeElements_mapFrames {edit : Frame → Frame} (h : ∀ x, (edit x).common = x.common)
    (project : ParsedProject D) : writeElements (project.mapFrames edit) =
      (sortedCopy (collectAll project ParsedFile.clusters)).map buildClusterElement ++
      (sortedCopy (collectAll project ParsedFile.ecuInstances)).map buildEcuInstanceElement ++
      (sortedCopy (collectAll project ParsedFile.frames)).map (buildFrameElement ∘ edit) ++
      (sortedCopy (collectAll project ParsedFile.pdus)).map buildPduElement ++
      (sortedCopy (collectAll project ParsedFile.signals)).map buildSignalElement ++
      (sortedCopy (collectAll project ParsedFile.signalGroups)).map buildSignalGroupElement := by
  have hframes : collectAll (project.mapFrames edit) ParsedFile.frames =
      (collectAll project ParsedFile.frames).map edit := by
    simp only [collectAll, ParsedProject.mapFrames, List.flatMap_map, List.map_flatMap]
  rw [writeElements, hframes, sortedCopy_map fun x => congrArg CommonFields.shortName (h x),
    List.map_map]
  simp only [collectAll, ParsedProject.mapFrames, List.flatMap_map]

theorem writeElements_mapPdus {edit : Pdu → Pdu} (h : ∀ x, (edit x).common = x.common)
    (project : ParsedProject D) : writeElements (project.mapPdus edit) =
      (sortedCopy (collectAll project ParsedFile.clusters)).map buildClusterElement ++
      (sortedCopy (collectAll project ParsedFile.ecuInstances)).map buildEcuInstanceElement ++
      (sortedCopy (collectAll project ParsedFile.frames)).map buildFrameElement ++
      (sortedCopy (collectAll project ParsedFile.pdus)).map (buildPduElement ∘ edit) ++
      (sortedCopy (collectAll project ParsedFile.signals)).map buildSignalElement ++
      (sortedCopy (collectAll project ParsedFile.signalGroups)).map buildSignalGroupElement := by
  have hpdus : collectAll (project.mapPdus edit) ParsedFile.pdus =
      (collectAll project ParsedFile.pdus).map edit := by
    simp only [collectAll, ParsedProject.mapPdus, List.flatMap_map, List.map_flatMap]
  rw [writeElements, hpdus, sortedCopy_map fun x => congrArg CommonFields.shortName (h x),
    List.map_map]
  simp only [collectAll, ParsedProject.mapPdus, List.flatMap_map]

variable [LawfulLibXml]

/-- Tied mappings with different positions show in the document of a frame. -/
theorem startPositions_of_frame {x : Frame} {m m' : FramePduMapping}
    {rest rest' : List FramePduMapping}
    (h : buildFrameElement { x with pdus := m :: rest } =
      buildFrameElement { x with pdus := m' :: rest' }) :
    (sortedFramePduMappings (m :: rest)).map FramePduMapping.startPosition =
      (sortedFramePduMappings (m' :: rest')).map FramePduMapping.startPosition := by
  simp only [buildFrameElement, wrapperUnless, List.isEmpty_cons, Bool.false_eq_true, if_false,
    XmlNode.mk.injEq, List.cons.injEq, true_and, and_true] at h
  exact starts_of_elements (fun _ => startOf_mappingElement) h

theorem startPositions_of_pdu {x : Pdu} {m m' : PduSignalMapping}
    {rest rest' : List PduSignalMapping}
    (h : buildPduElement { x with signalMappings := m :: rest } =
      buildPduElement { x with signalMappings := m' :: rest' }) :
    (sortedPduSignalMappings (m :: rest)).map PduSignalMapping.startPosition =
      (sortedPduSignalMappings (m' :: rest')).map PduSignalMapping.startPosition := by
  simp only [buildPduElement, wrapperUnless, List.isEmpty_cons, Bool.false_eq_true, if_false,
    XmlNode.mk.injEq, List.cons.injEq, true_and, and_true] at h
  exact starts_of_elements (fun _ => startOf_mappingElement) h

/-- A document that does not change with the order of the input has no ties. -/
theorem steady_of_reordered {p : ParsedProject D}
    (h : ∀ q, FilesReordered p q → buildDocument q = buildDocument p) : SteadyMappings p := by
  constructor
  · intro frame hframe m hm m' hm' href
    let edit (n : FramePduMapping) (x : Frame) : Frame :=
      if x = frame then { x with pdus := n :: x.pdus.erase n } else x
    have hedit {n : FramePduMapping} (hn : n ∈ frame.pdus) (x : Frame) : x.Reordered (edit n x) := by
      simp only [edit]
      split
      · rename_i hx
        exact ⟨rfl, rfl, .refl _, List.perm_cons_erase (hx ▸ hn)⟩
      · exact ⟨rfl, rfl, .refl _, .refl _⟩
    have hsame := writeElements_eq_of_document ((h _ (mapFrames_reordered (hedit hm) p)).trans
      (h _ (mapFrames_reordered (hedit hm') p)).symm)
    rw [writeElements_mapFrames (fun x => (hedit hm x).common.symm),
      writeElements_mapFrames (fun x => (hedit hm' x).common.symm)] at hsame
    simp only [List.append_left_inj, List.append_right_inj, List.map_inj_left] at hsame
    have helement := hsame frame (mem_stableSort.mpr hframe)
    simp only [edit, Function.comp_apply, if_true] at helement
    exact value_eq_of_tie hm hm' href (startPositions_of_frame helement)
  · intro pdu hpdu m hm m' hm' href
    let edit (n : PduSignalMapping) (x : Pdu) : Pdu :=
      if x = pdu then { x with signalMappings := n :: x.signalMappings.erase n } else x
    have hedit {n : PduSignalMapping} (hn : n ∈ pdu.signalMappings) (x : Pdu) :
        x.Reordered (edit n x) := by
      simp only [edit]
      split
      · rename_i hx
        exact ⟨rfl, rfl, List.perm_cons_erase (hx ▸ hn)⟩
      · exact ⟨rfl, rfl, .refl _⟩
    have hsame := writeElements_eq_of_document ((h _ (mapPdus_reordered (hedit hm) p)).trans
      (h _ (mapPdus_reordered (hedit hm') p)).symm)
    rw [writeElements_mapPdus (fun x => (hedit hm x).common.symm),
      writeElements_mapPdus (fun x => (hedit hm' x).common.symm)] at hsame
    simp only [List.append_left_inj, List.append_right_inj, List.map_inj_left] at hsame
    have helement := hsame pdu (mem_stableSort.mpr hpdu)
    simp only [edit, Function.comp_apply, if_true] at helement
    exact value_eq_of_tie hm hm' href (startPositions_of_pdu helement)

/-- **The document does not depend on the order of the input exactly when no
mappings tie.** -/
theorem write_order_iff {p : ParsedProject D} (hunique : UniqueShortNames p) (hone : OneRelease p) :
    (∀ q, FilesReordered p q → buildDocument q = buildDocument p) ↔ SteadyMappings p :=
  ⟨steady_of_reordered, fun hsteady _ h => buildDocument_reordered hunique hone hsteady h⟩

end

/-! ## Two mappings -/

/-- A project with one PDU that maps one signal at both positions. -/
def projectOfPositions (first second : UInt32) : ParsedProject WholeDouble :=
  { files := [{ pdus := [{ common := { shortName := "Status" }, length := 8, signalMappings :=
      [{ signalShortNameRef := "Speed", startPosition := first },
        { signalShortNameRef := "Speed", startPosition := second }] }] }] }

theorem positions_unique (first second : UInt32) :
    UniqueShortNames (projectOfPositions first second) ∧
      OneRelease (projectOfPositions first second) := by
  constructor
  · unfold UniqueShortNames EachType
    simp [projectOfPositions, collectAll, shortName]
  · simp [OneRelease, projectOfPositions]

theorem positions_reordered (first second : UInt32) :
    FilesReordered (projectOfPositions first second) (projectOfPositions second first) :=
  ⟨_, .refl _, .cons ⟨rfl, .refl (fun _ => ⟨rfl, rfl, .refl _⟩) _,
    .refl (fun _ => ⟨rfl, .refl _, .refl _⟩) _, .refl (fun _ => ⟨rfl, rfl, .refl _, .refl _⟩) _,
    ⟨_, .refl _, .cons ⟨rfl, rfl, .swap _ _ _⟩ .nil⟩, .refl Signal.Reordered.refl _,
    .refl (fun _ => ⟨rfl, .refl _⟩) _⟩ .nil⟩

namespace Literal

/-- Two mappings of one signal are written in the order of the input. -/
theorem tied_mappings_keep_order :
    let p := projectOfPositions 0 8
    UniqueShortNames p ∧ OneRelease p ∧
      ∃ q, FilesReordered p q ∧ buildDocument q ≠ buildDocument p := by
  refine ⟨(positions_unique 0 8).1, (positions_unique 0 8).2, _, positions_reordered 0 8, ?_⟩
  intro h
  have hstarts := congrArg (fun nodes => nodes.flatMap fun node => node.children.flatMap
    fun child => child.children.map startOf) (writeElements_eq_of_document h)
  exact absurd hstarts (by decide +kernel)

theorem write_order_one_position :
    let p := projectOfPositions 8 8
    SteadyMappings p ∧ ∀ q, FilesReordered p q → buildDocument q = buildDocument p := by
  intro p
  have hsteady : SteadyMappings p := by constructor <;> decide +kernel
  exact ⟨hsteady, (write_order_iff (positions_unique 8 8).1 (positions_unique 8 8).2).mpr hsteady⟩

end Literal

end ParseX

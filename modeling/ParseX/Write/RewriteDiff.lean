import ParseX.Diff.DiffEmpty
import ParseX.Write.Fidelity
import ParseX.Write.StableSort

/-! # The difference of a project and its rewrite

A project is written, read back and compared with what it was. The report never has additions, removals
or moves, and which changes it has is told by the fields the writer leaves out. -/
namespace ParseX
open Cpp

/-! ## What the report does not see -/

def Cluster.Unreported (x : Cluster) : Prop :=
  joined x.physicalChannels = joined (sortedStrings x.physicalChannels)

/-- The connected channels are not written. -/
def EcuInstance.Unreported (x : EcuInstance) : Prop :=
  joined x.connectedChannels = "" ∧ joined x.controllers = joined (sortedStrings x.controllers)

/-- Neither the category nor the transmitters are written. -/
def Frame.Unreported (x : Frame) : Prop :=
  optionText x.common.category = "nullopt" ∧ joined x.transmitters = ""

/-- Neither the category nor the byte orders are written; only the first mapping of a signal is compared. -/
def Pdu.Unreported (x : Pdu) : Prop :=
  optionText x.common.category = "nullopt" ∧ ∀ ref mapping,
    x.signalMappings.find? (fun m => pduSignalMappingKey m = ref) = some mapping →
      mapping.byteOrder = .mostSignificantByteFirst

/-- The layout, the receivers and the value table are not written. -/
def Signal.Unreported {D : Type} [Double D] (x : Signal D) : Prop :=
  optionText x.common.category = "nullopt" ∧ x.startBit = 0 ∧
    x.byteOrder = .mostSignificantByteFirst ∧ x.receivers = [] ∧ x.valueTable.getD [] = []

def SignalGroup.Unreported (x : SignalGroup) : Prop := optionText x.common.category = "nullopt"

/-- No element has anything that a report of its rewrite shows. -/
structure RewriteUnreported {D : Type} [Double D] (project : ParsedProject D) : Prop where
  clusters : ∀ x ∈ collectAll project ParsedFile.clusters, x.Unreported
  ecuInstances : ∀ x ∈ collectAll project ParsedFile.ecuInstances, x.Unreported
  frames : ∀ x ∈ collectAll project ParsedFile.frames, x.Unreported
  pdus : ∀ x ∈ collectAll project ParsedFile.pdus, x.Unreported
  signals : ∀ x ∈ collectAll project ParsedFile.signals, x.Unreported
  signalGroups : ∀ x ∈ collectAll project ParsedFile.signalGroups, x.Unreported

/-! ## Comparing with a sorted list -/

theorem sameSet_sortedStrings (items : List String) : SameSet items (sortedStrings items) :=
  fun _ => mem_stableSort.symm

theorem sameSet_nil {items : List String} : SameSet items [] ↔ items = [] := by
  simp [SameSet, List.eq_nil_iff_forall_not_mem]

theorem find?_stableSort {T : Type} (key : T → String) (items : List T) (value : String) :
    (stableSort key items).find? (fun x => key x = value) = items.find? fun x => key x = value := by
  rw [← List.head?_filter, ← List.head?_filter, filter_stableSort]

theorem sameFirst_stableSort {T : Type} (key : T → String) (items : List T) :
    SameFirst key items (stableSort key items) :=
  fun value => (find?_stableSort key items value).symm

theorem sameFirst_nil {T : Type} {key : T → String} {items : List T} :
    SameFirst key items [] ↔ items = [] := by
  constructor
  · intro h
    refine List.eq_nil_iff_forall_not_mem.mpr fun item hitem => ?_
    have hnone := List.find?_eq_none.mp (h (key item)) item hitem
    simp at hnone
  · intro h
    rw [h]
    exact fun _ => rfl

/-- The mappings of a PDU come back in another order and all with the same byte order. -/
theorem sameFirst_reread (mappings : List PduSignalMapping) :
    SameFirst pduSignalMappingKey mappings ((sortedPduSignalMappings mappings).map fun mapping =>
        { mapping with byteOrder := .mostSignificantByteFirst }) ↔
      ∀ ref mapping, mappings.find? (fun m => pduSignalMappingKey m = ref) = some mapping →
        mapping.byteOrder = .mostSignificantByteFirst := by
  have hfind (ref : String) : ((sortedPduSignalMappings mappings).map fun mapping =>
      { mapping with byteOrder := .mostSignificantByteFirst }).find?
        (fun m => pduSignalMappingKey m = ref) =
      (mappings.find? fun m => pduSignalMappingKey m = ref).map fun mapping =>
        { mapping with byteOrder := .mostSignificantByteFirst } := by
    rw [List.find?_map, ← find?_stableSort pduSignalMappingKey]
    rfl
  constructor
  · intro h ref mapping hmapping
    have hsame := h ref
    rw [hfind, hmapping, Option.map_some] at hsame
    rw [Option.some.inj hsame]
  · intro h ref
    rw [hfind]
    cases hmapping : mappings.find? fun m => pduSignalMappingKey m = ref with
    | none => rfl
    | some mapping => rw [Option.map_some, ← h ref mapping hmapping]

/-! ## Pairs of one name -/

/-- With distinct names the pairs of one name are the pairs of one place. -/
theorem sameNamed_iff_forall₂ {T : Type} [DomainElement T] {R : T → T → Prop} {old new : List T}
    (hnames : old.map shortName = new.map shortName) (hdistinct : (old.map shortName).Nodup)
    (hne : ∀ x ∈ old, shortName x ≠ "") : SameNamed R old new ↔ List.Forall₂ R old new := by
  induction old generalizing new with
  | nil =>
    rw [List.map_nil, eq_comm, List.map_eq_nil_iff] at hnames
    rw [hnames]
    simp [SameNamed]
  | cons x old ih =>
    cases new with
    | nil => simp at hnames
    | cons y new =>
      rw [List.map_cons, List.map_cons, List.cons.injEq] at hnames
      obtain ⟨hname, hrest⟩ := hnames
      rw [List.map_cons, List.nodup_cons] at hdistinct
      obtain ⟨hnot, hdistinct⟩ := hdistinct
      rw [List.forall₂_cons, ← ih hrest hdistinct fun z hz => hne z (List.mem_cons_of_mem _ hz)]
      constructor
      · intro h
        exact ⟨h x (List.mem_cons_self ..) y (List.mem_cons_self ..) hname (hne x (List.mem_cons_self ..)),
          fun a ha b hb => h a (List.mem_cons_of_mem _ ha) b (List.mem_cons_of_mem _ hb)⟩
      · rintro ⟨hxy, h⟩ a ha b hb hab hane
        rcases List.mem_cons.mp ha with rfl | ha
        · rcases List.mem_cons.mp hb with rfl | hb
          · exact hxy
          · exact absurd (hab ▸ hrest ▸ List.mem_map_of_mem hb) hnot
        · rcases List.mem_cons.mp hb with rfl | hb
          · exact absurd (hname ▸ hab ▸ List.mem_map_of_mem ha) hnot
          · exact h a ha b hb hab hane

/-- The elements of one type and what is read back of them. -/
structure Rewritten {T : Type} [DomainElement T] (R : T → T → Prop) (P : T → Prop)
    (items new : List T) : Prop where
  distinct : (new.map shortName).Nodup
  sameNames : SameNames items new
  sameNamed_iff : SameNamed R items new ↔ ∀ x ∈ items, P x

theorem Rewritten.of_reread {T : Type} [DomainElement T] {R : T → T → Prop} {P : T → Prop}
    {build : RawNode → T} {element : T → XmlNode} {items : List T} {family : String → Bool}
    {root reread : RawNode} (hreload : reread.bare = root.bare)
    (hfound : nodesOfFamily root family = (sortedCopy items).map fun x => (element x).raw)
    (hpair : ∀ x ∈ items, ∀ node : RawNode, node.bare = (element x).raw.bare →
      shortName x = shortName (build node) ∧ (R x (build node) ↔ P x))
    (hdistinct : (items.map shortName).Nodup) (hne : ∀ x ∈ items, shortName x ≠ "") :
    Rewritten R P items ((nodesOfFamily reread family).map build) := by
  have hperm : (sortedCopy items).Perm items := stableSort_perm shortName items
  have hnamed := (forall₂_reread_iff (R := fun x y => shortName x = shortName y) hreload hfound
    fun x hx node hnode => iff_true_intro (hpair x hx node hnode).1).mpr fun _ _ => trivial
  have hnames : (sortedCopy items).map shortName =
      ((nodesOfFamily reread family).map build).map shortName := by
    rw [← List.forall₂_eq_eq_eq, List.forall₂_map_left_iff, List.forall₂_map_right_iff]
    exact hnamed
  have hsorted : ((sortedCopy items).map shortName).Nodup :=
    (hperm.map shortName).nodup_iff.mpr hdistinct
  refine ⟨hnames ▸ hsorted, fun name _ => ?_, ?_⟩
  · rw [← hnames]
    exact (hperm.map shortName).mem_iff.symm
  · rw [← forall₂_reread_iff hreload hfound fun x hx node hnode => (hpair x hx node hnode).2,
      ← sameNamed_iff_forall₂ hnames hsorted fun x hx => hne x (hperm.mem_iff.mp hx)]
    simp only [SameNamed, hperm.mem_iff]

/-! ## Types one by one -/

section
variable [LibXml] [LawfulLibXml] {node : RawNode}

theorem Cluster.rewritten {value : Cluster} (h : value.Plain)
    (hnode : node.bare = (buildClusterElement value).raw.bare) :
    shortName value = shortName (buildCluster node).1 ∧
      (value.LooksAlike (buildCluster node).1 ↔ value.Unreported) := by
  have hs := Cluster.survives_reread h hnode
  refine ⟨hs.shortName.symm, ?_⟩
  rw [Cluster.LooksAlike, hs.category, hs.baudrate, hs.physicalChannels, Cluster.Unreported]
  simp

theorem EcuInstance.rewritten {value : EcuInstance} (h : value.Plain)
    (hnode : node.bare = (buildEcuInstanceElement value).raw.bare) :
    shortName value = shortName (buildEcuInstance node).1 ∧
      (value.LooksAlike (buildEcuInstance node).1 ↔ value.Unreported) := by
  have hs := EcuInstance.survives_reread h hnode
  have hbare := congrArg (fun n => (buildEcuInstance n).1) hnode
  simp only [buildEcuInstance_bare, buildEcuInstance_element h] at hbare
  have hchannels : (buildEcuInstance node).1.connectedChannels = [] :=
    congrArg EcuInstance.connectedChannels hbare
  refine ⟨hs.shortName.symm, ?_⟩
  rw [EcuInstance.LooksAlike, hs.category, hs.controllers, hchannels, EcuInstance.Unreported]
  simp [show joined [] = "" from rfl]

theorem Frame.rewritten {value : Frame} (h : value.Plain)
    (hnode : node.bare = (buildFrameElement value).raw.bare) :
    shortName value = shortName (buildFrame node).1 ∧
      (value.LooksAlike (buildFrame node).1 ↔ value.Unreported) := by
  have hbare := congrArg (fun n => (buildFrame n).1) hnode
  simp only [buildFrame_bare, buildFrame_element h] at hbare
  have hcommon := congrArg Frame.common hbare
  have hcategory : (buildFrame node).1.common.category = none := congrArg CommonFields.category hcommon
  have hlength : (buildFrame node).1.length = value.length := (congrArg Frame.length hbare :)
  have htransmitters : (buildFrame node).1.transmitters = [] := congrArg Frame.transmitters hbare
  have hpdus : (buildFrame node).1.pdus = stableSort framePduMappingKey value.pdus :=
    congrArg Frame.pdus hbare
  refine ⟨(congrArg CommonFields.shortName hcommon).symm, ?_⟩
  rw [Frame.LooksAlike, hcategory, hlength, htransmitters, hpdus, sameSet_nil, Frame.Unreported]
  constructor
  · rintro ⟨hnone, -, hjoined | hnil, -⟩
    · exact ⟨hnone, hjoined⟩
    · exact ⟨hnone, by rw [hnil]; rfl⟩
  · rintro ⟨hnone, hjoined⟩
    exact ⟨hnone, rfl, .inl hjoined, sameFirst_stableSort _ _⟩

theorem Pdu.rewritten {value : Pdu} (h : value.Plain)
    (hnode : node.bare = (buildPduElement value).raw.bare) :
    shortName value = shortName (buildPdu node).1 ∧
      (value.LooksAlike (buildPdu node).1 ↔ value.Unreported) := by
  have hbare := congrArg (fun n => (buildPdu n).1) hnode
  simp only [buildPdu_bare, buildPdu_element h] at hbare
  have hcommon := congrArg Pdu.common hbare
  have hcategory : (buildPdu node).1.common.category = none := congrArg CommonFields.category hcommon
  have hlength : (buildPdu node).1.length = value.length := (congrArg Pdu.length hbare :)
  have hmappings : (buildPdu node).1.signalMappings =
      (sortedPduSignalMappings value.signalMappings).map fun mapping =>
        { mapping with byteOrder := .mostSignificantByteFirst } :=
    congrArg Pdu.signalMappings hbare
  refine ⟨(congrArg CommonFields.shortName hcommon).symm, ?_⟩
  rw [Pdu.LooksAlike, hcategory, hlength, hmappings, sameFirst_reread, Pdu.Unreported]
  exact and_congr_right fun _ => and_iff_right rfl

theorem Signal.rewritten {D : Type} [Double D] [LawfulDouble D] {old : RawNode}
    (h : (buildSignal old : Signal D × List Warning).1.Plain)
    (hnode : node.bare =
      (buildSignalElement (buildSignal old : Signal D × List Warning).1).raw.bare) :
    shortName (buildSignal old : Signal D × List Warning).1 =
        shortName (buildSignal node : Signal D × List Warning).1 ∧
      ((buildSignal old).1.LooksAlike (buildSignal node : Signal D × List Warning).1 ↔
        (buildSignal old : Signal D × List Warning).1.Unreported) := by
  have hbare := congrArg (fun n => (buildSignal n : Signal D × List Warning).1) hnode
  simp only [buildSignal_bare, buildSignal_element h] at hbare
  have hcommon := congrArg Signal.common hbare
  have hcategory : (buildSignal node : Signal D × List Warning).1.common.category = none :=
    congrArg CommonFields.category hcommon
  have hstart : (buildSignal node : Signal D × List Warning).1.startBit = 0 :=
    congrArg Signal.startBit hbare
  have hbits : (buildSignal node : Signal D × List Warning).1.bitLength =
      (buildSignal old : Signal D × List Warning).1.bitLength := (congrArg Signal.bitLength hbare :)
  have horder : (buildSignal node : Signal D × List Warning).1.byteOrder = .mostSignificantByteFirst :=
    congrArg Signal.byteOrder hbare
  have hsigned : (buildSignal node : Signal D × List Warning).1.isSigned =
      (buildSignal old : Signal D × List Warning).1.isSigned := (congrArg Signal.isSigned hbare :)
  have hinit : (buildSignal node : Signal D × List Warning).1.initValue =
      (buildSignal old : Signal D × List Warning).1.initValue := (congrArg Signal.initValue hbare :)
  have hreceivers : (buildSignal node : Signal D × List Warning).1.receivers = [] :=
    congrArg Signal.receivers hbare
  have htable : (buildSignal node : Signal D × List Warning).1.valueTable = none :=
    congrArg Signal.valueTable hbare
  refine ⟨(congrArg CommonFields.shortName hcommon).symm, ?_⟩
  rw [Signal.LooksAlike, Signal.SameScalars, hcategory, hstart, hbits, horder, hsigned, hinit, hreceivers,
    htable, sameSet_nil, Option.getD_none, sameFirst_nil, Signal.Unreported]
  constructor
  · rintro ⟨hnone, ⟨hzero, -, hmost, -⟩, -, hreceived, htabled⟩
    exact ⟨hnone, hzero, hmost, hreceived, htabled⟩
  · rintro ⟨hnone, hzero, hmost, hreceived, htabled⟩
    -- The scaling, the limits and the unit are what every parsed signal has.
    exact ⟨hnone, ⟨hzero, rfl, hmost, rfl, rfl, rfl, rfl, rfl, rfl⟩, rfl, hreceived, htabled⟩

theorem SignalGroup.rewritten {value : SignalGroup} (h : value.Plain)
    (hnode : node.bare = (buildSignalGroupElement value).raw.bare) :
    shortName value = shortName (buildSignalGroup node).1 ∧
      (value.LooksAlike (buildSignalGroup node).1 ↔ value.Unreported) := by
  have hbare := congrArg (fun n => (buildSignalGroup n).1) hnode
  simp only [buildSignalGroup_bare, buildSignalGroup_element h] at hbare
  have hcommon := congrArg SignalGroup.common hbare
  have hcategory : (buildSignalGroup node).1.common.category = none :=
    congrArg CommonFields.category hcommon
  have hmembers : (buildSignalGroup node).1.members = sortedStrings value.members :=
    congrArg SignalGroup.members hbare
  refine ⟨(congrArg CommonFields.shortName hcommon).symm, ?_⟩
  rw [SignalGroup.LooksAlike, hcategory, hmembers, SignalGroup.Unreported]
  exact and_iff_left (sameSet_sortedStrings value.members)

end

/-! ## The report of a rewrite -/

section
variable {D : Type} [Double D]

theorem kind_populateEntry {oldIdx newIdx : ProjectIndex D} {entry populated : DiffEntry}
    (h : populateEntry oldIdx newIdx entry = some populated) : populated.kind = entry.kind := by
  unfold populateEntry at h
  split at h
  · rw [← Option.some.inj h]
  · dsimp only at h
    split at h
    · rw [← Option.some.inj h]
    · cases h

/-- Where the paths are the same, a report has changes alone. -/
theorem modified_of_samePaths {a b : ParsedProject D} (h : ∀ pass ∈ passes a b, pass.SamePaths)
    {entry : DiffEntry} (hentry : entry ∈ (diff a b).entries) : entry.kind = .modified := by
  obtain ⟨before, hbefore, hpopulated⟩ :=
    List.mem_filterMap.mp ((diff_entries_perm a b).mem_iff.mp hentry)
  obtain ⟨pass, hpass, hsettled⟩ := List.mem_flatMap.mp hbefore
  obtain ⟨hold, hnew⟩ := pass.samePaths_iff.mp (h pass hpass)
  rcases pass.mem_settled.mp hsettled with ⟨⟨o, n⟩, hpair, -⟩ | ⟨path, hpath, -⟩ | ⟨path, hpath, -⟩ |
    ⟨path, -, rfl⟩
  · obtain ⟨key, hkey⟩ := pass.mem_pairs.mp hpair
    exact absurd (pass.mem_of_pairOf hkey).1 (hold ▸ List.not_mem_nil)
  · exact absurd (List.mem_of_mem_filter hpath) (hold ▸ List.not_mem_nil)
  · exact absurd (List.mem_of_mem_filter hpath) (hnew ▸ List.not_mem_nil)
  · rw [kind_populateEntry hpopulated]
    rfl

variable [LawfulDouble D] [LibXml] [LawfulLibXml] {project : ParsedProject D}

/-- The report of a project and a reloaded rewrite of it. -/
theorem diff_reread_iff (hparsed : ∀ file ∈ project.files, ParserOutput file)
    (hplain : PlainProject project) (hnames : EveryCommon (fun common => common.shortName ≠ "") project)
    (hunique : UniqueShortNames project) {root : RawNode} (hroot : Reloads (buildDocument project) root) :
    let rewritten : ParsedProject D := { files := [buildSubtree root {}] }
    SameShortNames project rewritten ∧
      ((diff project rewritten).entries = [] ↔ RewriteUnreported project) := by
  intro rewritten
  obtain ⟨b1, b2, b3, b4, b5, b6⟩ := @buildSubtree_builtFrom D _ root "" ""
  obtain ⟨d1, d2, d3, d4, d5, d6⟩ := nodesOfFamily_document_each project
  obtain ⟨u1, u2, u3, u4, u5, u6⟩ := hunique
  obtain ⟨n1, n2, n3, n4, n5, n6⟩ := hnames
  have hclusters := Rewritten.of_reread hroot d1
    (fun x hx node hnode => Cluster.rewritten (hplain.clusters x hx) hnode) u1 n1
  have hecus := Rewritten.of_reread hroot d2
    (fun x hx node hnode => EcuInstance.rewritten (hplain.ecuInstances x hx) hnode) u2 n2
  have hframes := Rewritten.of_reread hroot d3
    (fun x hx node hnode => Frame.rewritten (hplain.frames x hx) hnode) u3 n3
  have hpdus := Rewritten.of_reread hroot d4
    (fun x hx node hnode => Pdu.rewritten (hplain.pdus x hx) hnode) u4 n4
  have hsignals := @Rewritten.of_reread (Signal D) _ Signal.LooksAlike Signal.Unreported
    (fun node => (buildSignal node).1) buildSignalElement _ _ _ _ hroot d5 (fun x hx node hnode => by
      obtain ⟨old, rfl⟩ := exists_build (fun _ _ h => h.signals) hparsed hx
      exact Signal.rewritten (hplain.signals _ hx) hnode) u5 n5
  have hgroups := Rewritten.of_reread hroot d6
    (fun x hx node hnode => SignalGroup.rewritten (hplain.signalGroups x hx) hnode) u6 n6
  have hall {T : Type} (member : ParsedFile D → List T) :
      collectAll rewritten member = member (buildSubtree root {}) := by
    simp [rewritten, collectAll]
  rw [← b1, ← hall ParsedFile.clusters] at hclusters
  rw [← b2, ← hall ParsedFile.ecuInstances] at hecus
  rw [← b3, ← hall ParsedFile.frames] at hframes
  rw [← b4, ← hall ParsedFile.pdus] at hpdus
  rw [← b5, ← hall ParsedFile.signals] at hsignals
  rw [← b6, ← hall ParsedFile.signalGroups] at hgroups
  have hsame : SameShortNames project rewritten :=
    ⟨hclusters.sameNames, hecus.sameNames, hframes.sameNames, hpdus.sameNames, hsignals.sameNames,
      hgroups.sameNames⟩
  have hrewritten : UniqueShortNames rewritten :=
    ⟨hclusters.distinct, hecus.distinct, hframes.distinct, hpdus.distinct, hsignals.distinct,
      hgroups.distinct⟩
  refine ⟨hsame, ?_⟩
  rw [diff_entries_nil_iff ⟨u1, u2, u3, u4, u5, u6⟩ hrewritten, silent_eq_looksAlike]
  constructor
  · rintro ⟨-, p1, p2, p3, p4, p5, p6⟩
    exact ⟨hclusters.sameNamed_iff.mp p1, hecus.sameNamed_iff.mp p2, hframes.sameNamed_iff.mp p3,
      hpdus.sameNamed_iff.mp p4, hsignals.sameNamed_iff.mp p5, hgroups.sameNamed_iff.mp p6⟩
  · rintro ⟨q1, q2, q3, q4, q5, q6⟩
    exact ⟨hsame, hclusters.sameNamed_iff.mpr q1, hecus.sameNamed_iff.mpr q2, hframes.sameNamed_iff.mpr q3,
      hpdus.sameNamed_iff.mpr q4, hsignals.sameNamed_iff.mpr q5, hgroups.sameNamed_iff.mpr q6⟩

/-- **A rewrite is told from its project by what the writer leaves out.** A project whose names are unique is
written; the report of it and what reads back has changes alone, and none exactly when nothing is left out
that a report shows. -/
theorem diff_rewritten_iff (hparsed : ∀ file ∈ project.files, ParserOutput file)
    (hvalid : WriteEngine.validate project = ⟨[]⟩) (hwithout : Without '&' project)
    (hcategory : EveryCommon (fun common => common.category ≠ some "") project)
    (hunique : UniqueShortNames project) :
    ∃ document, WriteEngine.write project = .ok document ∧ ∀ root, Reloads document root →
      let report := diff project { files := [buildSubtree root {}] }
      (∀ entry ∈ report.entries, entry.kind = .modified) ∧ report.diagnostics = [] ∧
        (report.entries = [] ↔ RewriteUnreported project) := by
  have hplain := plainProject_of_parsed hparsed hwithout
  refine ⟨_, write_ok hplain hvalid ⟨hcategory.clusters, hcategory.ecuInstances⟩, fun root hroot => ?_⟩
  obtain ⟨hsame, hreport⟩ :=
    diff_reread_iff hparsed hplain (everyCommon_of_validate hvalid) hunique hroot
  have hpaths := samePaths_passes.mpr hsame
  exact ⟨fun entry hentry => modified_of_samePaths hpaths hentry, diff_diagnostics_nil hpaths, hreport⟩

end

/-! ## An instance -/

namespace Literal

/-- A byte order that is not written is a change. -/
theorem diff_rewritten_iff_little_endian :
    let project := projectOfOrder "LEAST-SIGNIFICANT-BYTE-FIRST"
    ∃ document, WriteEngine.write project = .ok document ∧ ∀ root, Reloads document root →
      let report := diff project { files := [buildSubtree root {}] }
      (∀ entry ∈ report.entries, entry.kind = .modified) ∧ report.diagnostics = [] ∧
        report.entries ≠ [] := by
  intro project
  obtain ⟨document, hwrite, hreport⟩ := diff_rewritten_iff (parsed_of_order "LEAST-SIGNIFICANT-BYTE-FIRST")
    (by decide +kernel) (by constructor <;> decide +kernel) (by constructor <;> decide +kernel)
    ⟨by decide +kernel, by decide +kernel, by decide +kernel, by decide +kernel, by decide +kernel,
      by decide +kernel⟩
  refine ⟨document, hwrite, fun root hroot => ?_⟩
  obtain ⟨hmodified, hdiagnostics, hempty⟩ := hreport root hroot
  refine ⟨hmodified, hdiagnostics, fun hentries => ?_⟩
  have hmapped : ∃ pdu ∈ collectAll project ParsedFile.pdus,
      (pdu.signalMappings.find? fun m => pduSignalMappingKey m = "Speed").map
        PduSignalMapping.byteOrder = some .leastSignificantByteFirst := by
    decide +kernel
  obtain ⟨pdu, hpdu, horder⟩ := hmapped
  obtain ⟨mapping, hmapping, hlittle⟩ := Option.map_eq_some_iff.mp horder
  have hplain := ((hempty.mp hentries).pdus pdu hpdu).2 "Speed" mapping hmapping
  exact absurd (hlittle.symm.trans hplain) (by decide)

end Literal

end ParseX

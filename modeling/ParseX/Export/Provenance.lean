import ParseX.Export.Accounting
import ParseX.Export.Lookup
import ParseX.Parser.Parser

/-! # Where exported frames and signals come from

For a parsed file, every exported frame comes from one frame node of the
document, and every exported signal from a PDU mapping of it, the first PDU
node of the mapped name and a signal mapping of that. -/
namespace ParseX.CanDb
open Cpp

/-- The first PDU node of a name. -/
def pduNodeOf (root : RawNode) (name : String) : Option RawNode :=
  (nodesOfFamily root isPduTag).find? fun node => decide (extractShortName node = name)

/-- The PDU mappings below a frame node. -/
def framePduNodes (node : RawNode) : List RawNode :=
  findDescendants node "FRAME-PDU" ++ findDescendants node "PDU-TO-FRAME-MAPPING"

section
variable {D : Type} [Double D]

/-! ## One outcome each -/

theorem PlaceGives.unique {file : ParsedFile D} {frameName : String} {who : FrameParties}
    {mapping : FramePduMapping} (place : PduSignalMapping)
    (outs outs' : List (ExportSignal D)) (notes notes' : List Warning)
    (h : PlaceGives file frameName who mapping place outs notes)
    (h' : PlaceGives file frameName who mapping place outs' notes') :
    outs = outs' ∧ notes = notes' := by
  cases h with
  | group hempty =>
    cases h' with
    | group _ => exact ⟨rfl, rfl⟩
    | undefined hne _ => exact absurd hempty hne
    | exported hne _ _ _ => exact absurd hempty hne
  | undefined hne hnone =>
    cases h' with
    | group hempty => exact absurd hempty hne
    | undefined _ _ => exact ⟨rfl, rfl⟩
    | exported _ _ hmem hname => exact absurd hname (hnone _ hmem)
  | exported hne hpick hmem hname =>
    cases h' with
    | group hempty => exact absurd hempty hne
    | undefined _ hnone => exact absurd hname (hnone _ hmem)
    | exported _ hpick' _ _ =>
      obtain rfl := Option.some.inj (hpick.symm.trans hpick')
      exact ⟨rfl, rfl⟩

theorem MappingGives.unique {file : ParsedFile D} {frameName : String} {who : FrameParties}
    (mapping : FramePduMapping) (outs outs' : List (ExportSignal D)) (notes notes' : List Warning)
    (h : MappingGives file frameName who mapping outs notes)
    (h' : MappingGives file frameName who mapping outs' notes') :
    outs = outs' ∧ notes = notes' := by
  have hclash {pdu : Pdu}
      (hnone : ∀ pdu ∈ file.pdus, pdu.common.shortName ≠ mapping.pduShortNameRef)
      (hfind : file.pdus.find? (fun pdu =>
        decide (pdu.common.shortName = mapping.pduShortNameRef)) = some pdu) : False :=
    hnone pdu (List.mem_of_find?_eq_some hfind) (by simpa using List.find?_some hfind)
  cases h with
  | unresolved hnone =>
    cases h' with
    | unresolved _ => exact ⟨rfl, rfl⟩
    | resolved hfind _ => exact absurd hfind (hclash hnone)
  | resolved hfind haccount =>
    cases h' with
    | unresolved hnone => exact absurd hfind (hclash hnone)
    | resolved hfind' haccount' =>
      obtain rfl := Option.some.inj (hfind.symm.trans hfind')
      exact haccount.unique PlaceGives.unique haccount'

theorem FrameGives.unique {file : ParsedFile D} (frame : Frame)
    (outs outs' : List (ExportFrame D)) (notes notes' : List Warning)
    (h : FrameGives file frame outs notes) (h' : FrameGives file frame outs' notes') :
    outs = outs' ∧ notes = notes' := by
  cases h with
  | skipped hnone =>
    cases h' with
    | skipped _ => exact ⟨rfl, rfl⟩
    | exported hsome _ _ => rw [hnone] at hsome; cases hsome
  | exported hsome _ haccount =>
    cases h' with
    | skipped hnone => rw [hnone] at hsome; cases hsome
    | exported hsome' _ haccount' =>
      obtain rfl := Option.some.inj (hsome.symm.trans hsome')
      obtain ⟨rfl, rfl⟩ := haccount.unique MappingGives.unique haccount'
      exact ⟨rfl, rfl⟩

/-! ## Nodes -/

/-- An exported frame and its node. -/
structure ExportedFrame (file : ParsedFile D) (root frameNode : RawNode) (out : ExportFrame D) :
    Prop where
  mem : frameNode ∈ nodesOfFamily root isFrameTag
  gives : ∃ warnings, FrameGives file (buildFrame frameNode).1 [out] warnings

/-- An exported signal and the nodes it comes from. -/
structure ExportedSignal (file : ParsedFile D)
    (root frameNode mappingNode pduNode placeNode : RawNode) (out : ExportFrame D)
    (signal : ExportSignal D) : Prop where
  frame : ExportedFrame file root frameNode out
  mapping_mem : mappingNode ∈ framePduNodes frameNode
  pdu : pduNodeOf root (buildFramePduMapping mappingNode).pduShortNameRef = some pduNode
  place_mem : placeNode ∈ signalMappingNodes pduNode
  gives : PlaceGives file (buildFrame frameNode).1.common.shortName
    (frameParties file (buildFrame frameNode).1) (buildFramePduMapping mappingNode)
    (buildPduSignalMapping placeNode) [signal] []

theorem find?_pdus {file : ParsedFile D} {root : RawNode} (hbuilt : BuiltFrom root file)
    (name : String) : file.pdus.find? (fun pdu => decide (pdu.common.shortName = name)) =
      (pduNodeOf root name).map fun node => (buildPdu node).1 := by
  rw [hbuilt.pdus, List.find?_map]
  rfl

/-- The exported frames are those of the frame nodes. -/
theorem mem_exported_frames {file : ParsedFile D} {root : RawNode} (hbuilt : BuiltFrom root file)
    {out : ExportFrame D} : out ∈ (buildExportDatabase file).frames ↔
      ∃ frameNode, ExportedFrame file root frameNode out := by
  have haccount := buildExportDatabase_account file
  constructor
  · intro hout
    obtain ⟨frame, hframe, outs, warnings, hgives, hmem⟩ := haccount.mem hout
    rw [hbuilt.frames] at hframe
    obtain ⟨frameNode, hnode, rfl⟩ := List.mem_map.mp hframe
    refine ⟨frameNode, hnode, warnings, ?_⟩
    cases hgives with
    | skipped _ => cases hmem
    | exported hsome hname hsignals =>
      obtain rfl := List.mem_singleton.mp hmem
      exact .exported hsome hname hsignals
  · rintro ⟨frameNode, hnode, warnings, hgives⟩
    have hframe : (buildFrame frameNode).1 ∈ file.frames := by
      rw [hbuilt.frames]
      exact List.mem_map.mpr ⟨frameNode, hnode, rfl⟩
    obtain ⟨outs, notes, hgives', houts, -⟩ := haccount.of_mem hframe
    obtain ⟨rfl, -⟩ := FrameGives.unique _ _ _ _ _ hgives hgives'
    exact houts out (List.mem_singleton_self _)

/-- The signals of an exported frame are those of its mappings. -/
theorem mem_exported_signals {file : ParsedFile D} {root frameNode : RawNode}
    {out : ExportFrame D} (hbuilt : BuiltFrom root file)
    (hframe : ExportedFrame file root frameNode out) {signal : ExportSignal D} :
    signal ∈ out.signals ↔ ∃ mappingNode pduNode placeNode,
      ExportedSignal file root frameNode mappingNode pduNode placeNode out signal := by
  obtain ⟨warnings, hgives⟩ := hframe.gives
  cases hgives with
  | @exported header signals _ _ _ haccount =>
    dsimp only
    constructor
    · intro hsignal
      obtain ⟨mapping, hmapping, outs, notes, hmappingGives, hmem⟩ := haccount.mem hsignal
      obtain ⟨mappingNode, hmappingNode, rfl⟩ := List.mem_map.mp hmapping
      cases hmappingGives with
      | unresolved _ => cases hmem
      | resolved hfind hplaces =>
        rw [find?_pdus hbuilt] at hfind
        obtain ⟨pduNode, hpdu, rfl⟩ := Option.map_eq_some_iff.mp hfind
        obtain ⟨place, hplace, outs', notes', hplaceGives, hmem'⟩ := hplaces.mem hmem
        obtain ⟨placeNode, hplaceNode, rfl⟩ := List.mem_map.mp hplace
        refine ⟨mappingNode, pduNode, placeNode, hframe, hmappingNode, hpdu, hplaceNode, ?_⟩
        cases hplaceGives with
        | group _ => cases hmem'
        | undefined _ _ => cases hmem'
        | exported hne hpick hin hname =>
          obtain rfl := List.mem_singleton.mp hmem'
          exact .exported hne hpick hin hname
    · rintro ⟨mappingNode, pduNode, placeNode, h⟩
      obtain ⟨outs, notes, hmappingGives, houts, -⟩ :=
        haccount.of_mem (List.mem_map.mpr ⟨mappingNode, h.mapping_mem, rfl⟩)
      cases hmappingGives with
      | unresolved hnone =>
        have hfind := (find?_pdus hbuilt _).trans (congrArg (Option.map _) h.pdu)
        exact absurd (by simpa using List.find?_some hfind)
          (hnone _ (List.mem_of_find?_eq_some hfind))
      | resolved hfind hplaces =>
        rw [find?_pdus hbuilt, h.pdu] at hfind
        obtain rfl := Option.some.inj hfind
        obtain ⟨outs', notes', hplaceGives, houts', -⟩ :=
          hplaces.of_mem (List.mem_map.mpr ⟨placeNode, h.place_mem, rfl⟩)
        obtain ⟨rfl, -⟩ := PlaceGives.unique _ _ _ _ _ h.gives hplaceGives
        exact houts _ (houts' _ (List.mem_singleton_self _))

end

/-! ## A document -/

/-- A document with the frame "Brake", its PDU "Status" and the signal "Speed"
that it maps. -/
def canDocument (frameLength pduStart signalStart : String) (mapping signal : List RawNode) :
    RawNode where
  tagName := "AUTOSAR"
  attributes := [("xsi:schemaLocation", "http://autosar.org/schema/r4.0 AUTOSAR_4-2-2.xsd")]
  children := [
    { tagName := "CAN-FRAME", children := [
      { tagName := "SHORT-NAME", text := "Brake" },
      { tagName := "FRAME-LENGTH", text := frameLength },
      { tagName := "PDU-TO-FRAME-MAPPING", children := [
        { tagName := "PDU-REF", text := "/Pdus/Status" },
        { tagName := "START-POSITION", text := pduStart }] }] },
    { tagName := "I-SIGNAL-I-PDU", children := [
      { tagName := "SHORT-NAME", text := "Status" },
      { tagName := "LENGTH", text := "8" },
      { tagName := "I-SIGNAL-TO-I-PDU-MAPPING", children := [
        { tagName := "I-SIGNAL-REF", text := "/Signals/Speed" },
        { tagName := "START-POSITION", text := signalStart }] ++ mapping }] },
    { tagName := "I-SIGNAL", children :=
      { tagName := "SHORT-NAME", text := "Speed" } :: signal },
    { tagName := "CAN-FRAME-TRIGGERING", children := [
      { tagName := "FRAME-REF", text := "/Frames/Brake" },
      { tagName := "IDENTIFIER", text := "100" }] }]

/-- The file parsed from a document of release 4.2.2. -/
def fileOf (root : RawNode) : ParsedFile WholeDouble :=
  { buildSubtree root { autosarRelease := "4.2.2", sourcePath := "can.arxml" } with
    rawDocument := some root }

theorem parseDocument_canDocument (frameLength pduStart signalStart : String)
    (mapping signal : List RawNode) :
    parseDocument "can.arxml" (canDocument frameLength pduStart signalStart mapping signal) =
      .ok (fileOf (canDocument frameLength pduStart signalStart mapping signal)) := by
  have hschema : detectSchemaFilename (canDocument frameLength pduStart signalStart mapping
      signal) = some "AUTOSAR_4-2-2.xsd" := by
    rfl
  have hrelease : resolveRelease "AUTOSAR_4-2-2.xsd" = .ok "4.2.2" := by decide
  rw [parseDocument, hschema]
  dsimp only
  rw [hrelease]
  rfl

end ParseX.CanDb

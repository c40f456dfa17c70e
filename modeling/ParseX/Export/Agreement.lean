import ParseX.Export.Numbers
import ParseX.Validator.OverlapSpec

/-! # Validator and export on one layout

The overlap check places signals by the model, the export by the raw nodes.
Both agree on a mapping whose byte order and length are spelled so that both
readers understand them. -/
namespace ParseX.CanDb
open Cpp

/-- The first signal node of a name. -/
def signalNodeOf (root : RawNode) (name : String) : Option RawNode :=
  (nodesOfFamily root isSignalTag).find? fun node => decide (extractShortName node = name)

/-- The byte order of a mapping stands in its `PACKING-BYTE-ORDER` alone, as a
text both readers know, and the document repeats it wherever it maps the same
signal name in a PDU of the same name. -/
structure PlainPacking (root placeNode : RawNode) (pduName signalName : String) : Prop where
  noByteOrder : ParseX.childText placeNode "BYTE-ORDER" = none
  packing : ParseX.childText placeNode "PACKING-BYTE-ORDER" = some "MOST-SIGNIFICANT-BYTE-FIRST" ∨
    ∃ text, ParseX.childText placeNode "PACKING-BYTE-ORDER" = some text ∧
      asciiUpperCopy text = "LEAST-SIGNIFICANT-BYTE-FIRST"
  repeated : ∀ node ∈ root.nodes, node.tagName = "I-SIGNAL-I-PDU" →
    ∀ mapping ∈ findDescendants node "I-SIGNAL-TO-I-PDU-MAPPING",
      packingKey (nameOf node) (shortNameOfRef (childText mapping "I-SIGNAL-REF")) =
        packingKey pduName signalName →
      ParseX.childText mapping "PACKING-BYTE-ORDER" =
        ParseX.childText placeNode "PACKING-BYTE-ORDER"

/-- An `I-SIGNAL` of the name, where there is one, comes before any other signal
of the name, and states its length in `LENGTH` alone, as a plain integer. -/
def PlainSignalLength (root : RawNode) (signalName : String) : Prop :=
  ∀ node, iSignalOf root signalName = some node → signalNodeOf root signalName = some node ∧
    ParseX.childText node "BIT-LENGTH" = none ∧
    ∀ text, ParseX.childText node "LENGTH" = some text → PlainInteger text ∧
      ∃ value, autosarValue text = some value ∧ value < 2 ^ 32

section
variable {D : Type} [Double D]

/-- What the overlap check and the export use for one mapping agrees. -/
def SameLayout (file : ParsedFile D) (placeNode : RawNode) (signal : ExportSignal D) : Prop :=
  ∀ p, placementOf (signalTable file) (buildPduSignalMapping placeNode) = some p →
    signal.byteOrder = p.byteOrder ∧ signal.bitLength.toNat = p.length

/-- The layouts agree for every mapping of an `I-SIGNAL-I-PDU` that both
resolve. -/
def SameLayouts (file : ParsedFile D) (root : RawNode) : Prop :=
  ∀ frameNode mappingNode pduNode placeNode out signal,
    ExportedSignal file root frameNode mappingNode pduNode placeNode out signal →
    pduNode.tagName = "I-SIGNAL-I-PDU" → SameLayout file placeNode signal

/-! ## Byte order -/

theorem exportByteOrder_plain {file : ParsedFile D} {root placeNode : RawNode}
    {pduName : String} (hraw : file.rawDocument = some root)
    (hplain : PlainPacking root placeNode pduName
      (buildPduSignalMapping placeNode).signalShortNameRef) :
    exportByteOrder (fileIndex file) pduName (buildPduSignalMapping placeNode) =
      (buildPduSignalMapping placeNode).byteOrder := by
  have hmodel : (buildPduSignalMapping placeNode).byteOrder =
      ((ParseX.childText placeNode "PACKING-BYTE-ORDER").map parseByteOrder).getD
        .mostSignificantByteFirst := by
    simp [buildPduSignalMapping, hplain.noByteOrder]
  unfold exportByteOrder
  rw [fileIndex, hraw]
  dsimp only
  rw [getElem?_bigEndian]
  cases hfind : (documentPackings root).find? fun entry => decide (entry.1 =
      packingKey pduName (buildPduSignalMapping placeNode).signalShortNameRef) with
  | none => rfl
  | some entry =>
    -- the entry comes from a mapping that repeats the packing
    have hkey : entry.1 = packingKey pduName (buildPduSignalMapping placeNode).signalShortNameRef :=
      by simpa using List.find?_some hfind
    obtain ⟨node, hnode, hentry⟩ := List.mem_flatMap.mp (List.mem_of_find?_eq_some hfind)
    split at hentry
    · rename_i htag
      obtain ⟨mapping, hmapping, rfl⟩ := List.mem_map.mp hentry
      have hsame := hplain.repeated node hnode (by simpa using htag) mapping hmapping hkey
      have htrim (text : String) (h : ParseX.childText placeNode "PACKING-BYTE-ORDER" = some text) :
          trimText text = text := by
        rw [ParseX.childText, Option.map_eq_some_iff] at h
        obtain ⟨child, -, rfl⟩ := h
        exact isTrimmed_trimText _
      rw [Option.map_some, hmodel]
      dsimp only
      rw [childText_getD, hsame]
      rcases hplain.packing with hmost | ⟨text, htext, hupper⟩
      · rw [hmost]
        rfl
      · have hne : (text == "MOST-SIGNIFICANT-BYTE-FIRST") = false := by
          rw [beq_eq_false_iff_ne]
          rintro rfl
          exact absurd hupper (by decide +kernel)
        rw [htext]
        simp [hne, parseByteOrder, htrim text htext, hupper]
    · cases hentry

/-! ## Length -/

theorem getElem?_signalTable {file : ParsedFile D} {root : RawNode}
    (hbuilt : BuiltFrom root file) (name : String) : (signalTable file)[name]? =
      (signalNodeOf root name).map fun node => (buildSignal node).1 := by
  rw [signalTable, getElem?_ofFirst, hbuilt.signals, List.map_map, List.find?_map, Option.map_map]
  rfl

theorem pickLoop_keeps {signal : Signal D} (h : signal.bitLength ≠ 0) (rest : List (Signal D)) :
    pickLoop none (some signal) rest = some signal := by
  induction rest with
  | nil => rfl
  | cons head rest ih =>
    unfold pickLoop
    rw [if_neg (by simp)]
    dsimp only
    rw [if_neg (by simp [h])]
    exact ih

/-- Without an `I-SIGNAL` a first signal with a length is picked. -/
theorem pickModelSignal_first {file : ParsedFile D} {index : Index} {name : String}
    {signal : Signal D} (hindex : index.iSignals[name]? = none)
    (hfirst : file.signals.find? (fun signal => signal.common.shortName = name) = some signal)
    (h : signal.bitLength ≠ 0) : pickModelSignal file index name = some signal := by
  unfold pickModelSignal
  rw [hindex]
  rw [← List.head?_filter] at hfirst
  obtain ⟨rest, hrest⟩ := List.head?_eq_some_iff.mp hfirst
  rw [hrest]
  change pickLoop none (some signal) rest = some signal
  exact pickLoop_keeps h rest

variable [LawfulDouble D]

/-- A plain length of the first signal of the name is read alike. -/
theorem bitLength_iSignal {file : ParsedFile D} {root node : RawNode} {name text : String}
    {value : Nat} (hraw : file.rawDocument = some root) (hbuilt : BuiltFrom root file)
    (hnode : iSignalOf root name = some node) (hfirst : signalNodeOf root name = some node)
    (hbit : ParseX.childText node "BIT-LENGTH" = none)
    (htext : ParseX.childText node "LENGTH" = some text) (hinteger : PlainInteger text)
    (hvalue : autosarValue text = some value) (hfit : value < 2 ^ 32) :
    ∃ modelSignal : Signal D, (signalTable file)[name]? = some modelSignal ∧
      modelSignal.bitLength = UInt32.ofNat value ∧
      ∀ picked : Signal D,
        exportBitLength (fileIndex file) name picked = UInt32.ofNat value := by
  refine ⟨(buildSignal node).1, ?_, ?_, exportBitLength_literal hraw hnode htext hvalue hfit⟩
  · rw [getElem?_signalTable hbuilt, hfirst]
    rfl
  · obtain ⟨reading, hreading⟩ := decimalReading_isSome hvalue
    change childUint32 node "BIT-LENGTH" (childUint32 node "LENGTH" 0) = _
    rw [childUint32, hbit]
    dsimp only
    rw [childUint32, htext]
    apply UInt32.toNat_inj.mp
    dsimp only
    rw [parseUint32_literal hreading, (readingOr_eq_iff hvalue hfit).mpr (Or.inl hinteger)]
    exact (UInt32.toNat_ofNat_of_lt' hfit).symm

theorem exportBitLength_plain {file : ParsedFile D} {root : RawNode} {name : String}
    {modelSignal picked : Signal D} (hraw : file.rawDocument = some root)
    (hbuilt : BuiltFrom root file) (hplain : PlainSignalLength root name)
    (hmodel : (signalTable file)[name]? = some modelSignal) (hlength : modelSignal.bitLength ≠ 0)
    (hpick : pickModelSignal file (fileIndex file) name = some picked) :
    exportBitLength (fileIndex file) name picked = modelSignal.bitLength := by
  have hindex : (fileIndex file).iSignals[name]? = iSignalOf root name := by
    rw [fileIndex, hraw]
    exact getElem?_iSignals root name
  cases hnode : iSignalOf root name with
  | none =>
    rw [hnode] at hindex
    have hfirst : file.signals.find? (fun signal => signal.common.shortName = name) =
        some modelSignal := by
      rw [signalTable, getElem?_ofFirst, List.find?_map] at hmodel
      simpa [Function.comp_def] using hmodel
    rw [pickModelSignal_first hindex hfirst hlength] at hpick
    obtain rfl := Option.some.inj hpick
    rw [exportBitLength, hindex]
  | some node =>
    obtain ⟨hfirst, hbit, htexts⟩ := hplain node hnode
    cases htext : ParseX.childText node "LENGTH" with
    | none =>
      rw [getElem?_signalTable hbuilt, hfirst] at hmodel
      obtain rfl := Option.some.inj hmodel
      have hzero : (buildSignal node : Signal D × _).1.bitLength = 0 := by
        change childUint32 node "BIT-LENGTH" (childUint32 node "LENGTH" 0) = _
        rw [childUint32, hbit]
        dsimp only
        rw [childUint32, htext]
      exact absurd hzero hlength
    | some text =>
      obtain ⟨hinteger, value, hvalue, hfit⟩ := htexts text htext
      obtain ⟨_, hmodel', hread, hexport⟩ :=
        bitLength_iSignal hraw hbuilt hnode hfirst hbit htext hinteger hvalue hfit
      obtain rfl := Option.some.inj (hmodel.symm.trans hmodel')
      rw [hexport, hread]

/-- **Validator and export agree on every plainly spelled mapping.** -/
theorem layouts_agree {path : String} {root : RawNode} {file : ParsedFile D}
    (h : parseDocument path root = .ok file)
    {frameNode mappingNode pduNode placeNode : RawNode} {out : ExportFrame D}
    {signal : ExportSignal D}
    (hexport : ExportedSignal file root frameNode mappingNode pduNode placeNode out signal)
    (hpacking : PlainPacking root placeNode (extractShortName pduNode) signal.name)
    (hsignal : PlainSignalLength root signal.name) : SameLayout file placeNode signal := by
  obtain ⟨hraw, hbuilt⟩ := parseDocument_ok h
  obtain ⟨picked, hpick, hname, hmake⟩ := hexport.exists_pick
  intro p hp
  have hpdu : (buildFramePduMapping mappingNode).pduShortNameRef = extractShortName pduNode := by
    have := List.find?_some hexport.pdu
    exact (of_decide_eq_true this).symm
  rw [hname] at hpick hpacking hsignal
  unfold placementOf at hp
  split at hp
  · cases hp
  · rename_i modelSignal hmodel
    split at hp
    · cases hp
    · rename_i hlength
      obtain rfl := Option.some.inj hp
      constructor
      · rw [hmake, hpdu]
        exact exportByteOrder_plain hraw hpacking
      · rw [hmake]
        exact congrArg UInt32.toNat
          (exportBitLength_plain hraw hbuilt hsignal hmodel hlength hpick)

end

/-! ## One mapping -/

/-- The document with a signal of eight bits, packed as stated. -/
def documentOfPacking (packing : String) : RawNode :=
  canDocument "8" "0" "0" [{ tagName := "PACKING-BYTE-ORDER", text := packing }]
    [{ tagName := "LENGTH", text := "8" }]

theorem parse_documentOfPacking (packing : String) :
    parseDocument "can.arxml" (documentOfPacking packing) =
      .ok (fileOf (documentOfPacking packing)) :=
  parseDocument_canDocument _ _ _ _ _

/-- The nodes behind an exported signal of the file. -/
theorem exists_exportedSignal {packing : String} {signal : ExportSignal WholeDouble}
    (h : ∃ out ∈ (buildExportDatabase (fileOf (documentOfPacking packing))).frames,
      signal ∈ out.signals) :
    ∃ frameNode mappingNode pduNode placeNode out,
      ExportedSignal (fileOf (documentOfPacking packing)) (documentOfPacking packing) frameNode
        mappingNode pduNode placeNode out signal ∧
      pduNode ∈ nodesOfFamily (documentOfPacking packing) isPduTag := by
  obtain ⟨out, hout, hsignal⟩ := h
  have hbuilt := (parseDocument_ok (parse_documentOfPacking packing)).2
  obtain ⟨frameNode, hframe⟩ := (mem_exported_frames hbuilt).mp hout
  obtain ⟨mappingNode, pduNode, placeNode, hexport⟩ := (mem_exported_signals hbuilt hframe).mp hsignal
  exact ⟨frameNode, mappingNode, pduNode, placeNode, out, hexport,
    List.mem_of_find?_eq_some hexport.pdu⟩

/-- The overlap check takes a mapping with the least significant byte order
spelled from its other end as big-endian, the export as little-endian. -/
theorem byte_last_disagrees :
    let root := documentOfPacking "MOST-SIGNIFICANT-BYTE-LAST"
    parseDocument "can.arxml" root = .ok (fileOf root) ∧ ¬ SameLayouts (fileOf root) root := by
  intro root
  refine ⟨parse_documentOfPacking _, fun hsame => ?_⟩
  obtain ⟨frameNode, mappingNode, pduNode, placeNode, out, hexport, hpdu⟩ :=
    @exists_exportedSignal "MOST-SIGNIFICANT-BYTE-LAST"
      { name := "Speed", bitLength := 8 } (by decide +kernel)
  have htags : ∀ node ∈ nodesOfFamily root isPduTag, node.tagName = "I-SIGNAL-I-PDU" := by
    decide +kernel
  have hplaces : ∀ node ∈ nodesOfFamily root isPduTag, ∀ place ∈ signalMappingNodes node,
      placementOf (signalTable (fileOf root)) (buildPduSignalMapping place) =
        some ⟨"Speed", .mostSignificantByteFirst, 0, 8⟩ := by decide +kernel
  have := (hsame _ _ _ _ _ _ hexport (htags _ hpdu) _ (hplaces _ hpdu _ hexport.place_mem)).1
  cases this

theorem layouts_agree_little_endian :
    let root := documentOfPacking "least-significant-byte-first"
    ∃ placeNode signal, signal.name = "Speed" ∧ signal.bitLength = 8 ∧
      SameLayout (fileOf root) placeNode signal := by
  intro root
  obtain ⟨frameNode, mappingNode, pduNode, placeNode, out, hexport, hpdu⟩ :=
    @exists_exportedSignal "least-significant-byte-first"
      { name := "Speed", bitLength := 8 } (by decide +kernel)
  have hpacking : ∀ node ∈ nodesOfFamily root isPduTag, ∀ place ∈ signalMappingNodes node,
      ParseX.childText place "BYTE-ORDER" = none ∧
        ParseX.childText place "PACKING-BYTE-ORDER" = some "least-significant-byte-first" := by
    decide +kernel
  have hrepeated : ∀ node ∈ root.nodes, ∀ mapping ∈
      findDescendants node "I-SIGNAL-TO-I-PDU-MAPPING",
      ParseX.childText mapping "PACKING-BYTE-ORDER" = some "least-significant-byte-first" := by
    decide +kernel
  have hnode : iSignalOf root "Speed" = signalNodeOf root "Speed" := by rfl
  have htexts : (iSignalOf root "Speed").map (fun node => (ParseX.childText node "BIT-LENGTH",
      ParseX.childText node "LENGTH")) = some (none, some "8") := by decide +kernel
  obtain ⟨hnone, hsome⟩ := hpacking _ hpdu _ hexport.place_mem
  refine ⟨placeNode, _, rfl, rfl, layouts_agree (parse_documentOfPacking _) hexport
    ⟨hnone, Or.inr ⟨_, hsome, by decide +kernel⟩, ?_⟩ ?_⟩
  · intro node hmem _ mapping hmapping _
    rw [hsome]
    exact hrepeated node hmem mapping hmapping
  · intro node hfirst
    dsimp only at hfirst
    rw [hfirst, Option.map_some, Option.some.injEq, Prod.mk.injEq] at htexts
    refine ⟨hnode ▸ hfirst, htexts.1, fun text htext => ?_⟩
    rw [htexts.2, Option.some.injEq] at htext
    subst htext
    exact ⟨(plainInteger_iff "8").mpr (by decide +kernel), 8, by decide +kernel, by decide⟩

end ParseX.CanDb

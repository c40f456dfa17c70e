import ParseX.Export.Agreement

/-! # Clean PDUs in an exported frame

A PDU whose layout the overlap check finds clean keeps it in the frame: its
signals move by whole bytes, and the byte ranges of the PDUs do not meet. -/
namespace ParseX

/-! ## Shifts by whole bytes -/

/-- A placement moved up by whole bytes. -/
def Placement.shift (bytes : Nat) (p : Placement) : Placement :=
  { p with
    start := p.start + 8 * bytes }

/-- The bits move with the placement. -/
theorem Placement.occupies_shift {p : Placement} {bytes bit : Nat}
    (h : (p.shift bytes).Occupies bit) : ∃ low, bit = low + 8 * bytes ∧ p.Occupies low := by
  cases horder : p.byteOrder with
  | leastSignificantByteFirst =>
    simp only [Placement.Occupies, Placement.shift, horder] at h ⊢
    exact ⟨bit - 8 * bytes, by omega, by omega⟩
  | mostSignificantByteFirst =>
    simp only [Placement.Occupies, Placement.shift, horder, MsbFirst.index_add_bytes] at h ⊢
    have hbit : 8 * bytes ≤ bit := by
      by_contra hlt
      have := MsbFirst.index_lt_bytes.mpr (not_le.mp hlt)
      omega
    have hindex := MsbFirst.index_add_bytes (bit - 8 * bytes) bytes
    rw [Nat.sub_add_cancel hbit] at hindex
    exact ⟨bit - 8 * bytes, by omega, by omega⟩

/-- An empty placement has no bits. -/
theorem Placement.not_occupies_of_empty {p : Placement} (h : p.length = 0) (bit : Nat) :
    ¬ p.Occupies bit := by
  unfold Placement.Occupies
  cases p.byteOrder <;> (dsimp only; omega)

end ParseX

namespace ParseX.CanDb
open Cpp

section
variable {D : Type} [Double D]

/-! ## Frames -/

/-- Where an exported signal lies. -/
def ExportSignal.placement (signal : ExportSignal D) : Placement :=
  ⟨signal.name, signal.byteOrder, signal.startBit.toNat, signal.bitLength.toNat⟩

/-- `physicalBitsForSignal` of an exported signal. -/
def ExportSignal.physicalBits (signal : ExportSignal D) : Option (List Int) :=
  physicalBitsForSignal signal.byteOrder (castInt signal.startBit) (castInt signal.bitLength)

/-- The signals of a frame have their bits inside it and share none. The walk
of a signal overflows `int` at most in a frame of 2^28 bytes or more. -/
structure CleanFrame (out : ExportFrame D) : Prop where
  inside : ∀ signal ∈ out.signals, ∀ bits, signal.physicalBits = some bits →
    ∀ bit ∈ bits, 0 ≤ bit ∧ bit < 8 * out.length.toNat
  disjoint : out.signals.Pairwise fun signal signal' => ∀ bits bits',
    signal.physicalBits = some bits → signal'.physicalBits = some bits' → ∀ bit ∈ bits, bit ∉ bits'
  defined : out.length.toNat < 2 ^ 28 → ∀ signal ∈ out.signals, signal.physicalBits ≠ none

/-- The nodes with a tag and a short name. -/
def namedNodes (root : RawNode) (tag name : String) : List RawNode :=
  root.nodes.filter fun node => node.tagName == tag && decide (extractShortName node = name)

/-- A signal mapping as the claim takes it: it maps the only `I-SIGNAL` of its
name, which has a decimal `LENGTH`, and states a byte order. -/
structure RegularPlace (root placeNode : RawNode) : Prop where
  signal : ∃ node,
    namedNodes root "I-SIGNAL" (buildPduSignalMapping placeNode).signalShortNameRef = [node] ∧
    ∃ value : Nat, ParseX.childText node "LENGTH" = some (toString value) ∧ value < 2 ^ 30
  packing : ParseX.childText placeNode "PACKING-BYTE-ORDER" = some "MOST-SIGNIFICANT-BYTE-FIRST" ∨
    ParseX.childText placeNode "PACKING-BYTE-ORDER" = some "LEAST-SIGNIFICANT-BYTE-FIRST"
  start : (buildPduSignalMapping placeNode).startPosition.toNat < 2 ^ 30

/-- A PDU mapping as the claim takes it: it maps the only `I-SIGNAL-I-PDU` of its
name, at a whole byte; every signal is mapped once, and the check of the PDU has
no finding about its layout. -/
structure RegularMapping (file : ParsedFile D) (root mappingNode pduNode : RawNode) : Prop where
  unique : namedNodes root "I-SIGNAL-I-PDU" (buildFramePduMapping mappingNode).pduShortNameRef =
    [pduNode]
  aligned : (buildFramePduMapping mappingNode).startPosition.toNat % 8 = 0
  start : (buildFramePduMapping mappingNode).startPosition.toNat < 2 ^ 30
  length : 0 < (buildPdu pduNode).1.length.toNat ∧ (buildPdu pduNode).1.length.toNat < 2 ^ 30
  places : ∀ placeNode ∈ signalMappingNodes pduNode,
    (buildPduSignalMapping placeNode).signalShortNameRef ≠ "" → RegularPlace root placeNode
  once : (((signalMappingNodes pduNode).map fun placeNode =>
    (buildPduSignalMapping placeNode).signalShortNameRef).filter (· ≠ "")).Nodup
  clean : ∃ findings, validatePdu (signalTable file) (buildPdu pduNode).1 = some findings ∧
    ∀ finding ∈ findings, ¬ finding.IsLayout

/-- The bytes of a mapped PDU. -/
def byteRange (root mappingNode : RawNode) : Nat × Nat :=
  let mapping := buildFramePduMapping mappingNode
  (mapping.startPosition.toNat / 8, mapping.startPosition.toNat / 8 +
    ((namedNodes root "I-SIGNAL-I-PDU" mapping.pduShortNameRef).head?.map fun node =>
      (buildPdu node).1.length.toNat).getD 0)

/-- A frame as the claim takes it: regular mappings of different PDUs, whose
bytes lie inside the frame and do not meet. -/
structure RegularFrame (file : ParsedFile D) (root frameNode : RawNode) : Prop where
  mappings : ∀ mappingNode ∈ framePduNodes frameNode, ∃ pduNode,
    RegularMapping file root mappingNode pduNode
  distinct : ((framePduNodes frameNode).map fun mappingNode =>
    (buildFramePduMapping mappingNode).pduShortNameRef).Nodup
  inside : ∀ mappingNode ∈ framePduNodes frameNode,
    (byteRange root mappingNode).2 ≤ (buildFrame frameNode).1.length.toNat
  apart : (framePduNodes frameNode).Pairwise fun mappingNode mappingNode' =>
    (byteRange root mappingNode).2 ≤ (byteRange root mappingNode').1 ∨
      (byteRange root mappingNode').2 ≤ (byteRange root mappingNode).1
  length : (buildFrame frameNode).1.length.toNat < 2 ^ 30

/-- What one of the two readers does not know stays away from a PDU: another PDU
or signal element first of a name, signal lengths in `BIT-LENGTH`, byte orders
in `BYTE-ORDER`, signals in `SIGNAL-REF`, and line feeds in names. -/
structure Unambiguous (root pduNode : RawNode) : Prop where
  first : pduNodeOf root (extractShortName pduNode) = some pduNode
  signals : ∀ placeNode ∈ signalMappingNodes pduNode,
    (buildPduSignalMapping placeNode).signalShortNameRef ≠ "" → ∀ node,
      signalNodeOf root (buildPduSignalMapping placeNode).signalShortNameRef = some node →
        node.tagName = "I-SIGNAL" ∧ ParseX.childText node "BIT-LENGTH" = none
  byteOrder : ∀ placeNode ∈ signalMappingNodes pduNode,
    ParseX.childText placeNode "BYTE-ORDER" = none
  signalRef : ∀ placeNode ∈ signalMappingNodes pduNode,
    ParseX.childText placeNode "SIGNAL-REF" = none
  pduName : '\n' ∉ (extractShortName pduNode).toList
  signalNames : ∀ placeNode ∈ signalMappingNodes pduNode,
    '\n' ∉ (buildPduSignalMapping placeNode).signalShortNameRef.toList

/-! ## Bits -/

/-- The bits of an exported signal are those of its placement. -/
theorem mem_physicalBits {signal : ExportSignal D} {bits : List Int}
    (h : signal.physicalBits = some bits) {bit : Int} (hbit : bit ∈ bits) :
    ∃ low : Nat, bit = low ∧ signal.placement.Occupies low := by
  unfold ExportSignal.physicalBits at h
  by_cases hv : signal.placement.Visible
  · by_cases hlength : signal.bitLength = 0
    · have hnone : physicalBitsForSignal signal.byteOrder (castInt signal.startBit)
          (castInt signal.bitLength) = some [] := by
        have hguard : castInt signal.startBit < 0 ∨ castInt signal.bitLength ≤ 0 :=
          Or.inr (by rw [hlength]; decide)
        cases horder : signal.byteOrder <;> simp [physicalBitsForSignal,
          physicalBitsForIntelSignal, physicalBitsForMotorolaSignal, hguard]
      rw [hnone] at h
      obtain rfl := Option.some.inj h
      cases hbit
    · by_cases hfits : signal.placement.Fits
      · rw [physicalBits_fits hlength hv hfits] at h
        obtain rfl := Option.some.inj h
        obtain ⟨low, hlow, rfl⟩ := List.mem_map.mp hbit
        exact ⟨low, rfl, Placement.mem_bits.mp hlow⟩
      · rw [physicalBits_overflow hlength hv hfits] at h
        cases h
  · rw [physicalBits_invisible hv] at h
    obtain rfl := Option.some.inj h
    cases hbit

/-- Bits inside a small frame are walked without overflow. -/
theorem physicalBits_defined {signal : ExportSignal D} {bytes : Nat} (hbytes : bytes < 2 ^ 28)
    (hinside : ∀ bit, signal.placement.Occupies bit → bit < 8 * bytes) :
    signal.physicalBits ≠ none := by
  unfold ExportSignal.physicalBits
  by_cases hv : signal.placement.Visible
  · by_cases hlength : signal.bitLength = 0
    · have hguard : castInt signal.startBit < 0 ∨ castInt signal.bitLength ≤ 0 :=
        Or.inr (by rw [hlength]; decide)
      cases horder : signal.byteOrder <;> simp [physicalBitsForSignal,
        physicalBitsForIntelSignal, physicalBitsForMotorolaSignal, hguard]
    · have hpos : 0 < signal.bitLength.toNat :=
        Nat.pos_of_ne_zero fun h => hlength (UInt32.toNat_inj.mp h)
      have hfits : signal.placement.Fits := by
        -- the last bit of the walk lies inside
        cases horder : signal.byteOrder with
        | leastSignificantByteFirst =>
          have hlast := hinside (signal.startBit.toNat + (signal.bitLength.toNat - 1)) (by
            simp only [Placement.Occupies, ExportSignal.placement, horder]
            omega)
          simp only [Placement.Fits, ExportSignal.placement, horder]
          omega
        | mostSignificantByteFirst =>
          have hlast := hinside (MsbFirst.index (MsbFirst.index signal.startBit.toNat +
            (signal.bitLength.toNat - 1))) (by
              simp only [Placement.Occupies, ExportSignal.placement, horder, MsbFirst.index_index]
              omega)
          rw [MsbFirst.index_lt_bytes] at hlast
          simp only [Placement.Fits, ExportSignal.placement, horder]
          omega
      rw [physicalBits_fits hlength hv hfits]
      exact Option.some_ne_none _
  · rw [physicalBits_invisible hv]
    exact Option.some_ne_none _

/-! ## Names -/

theorem find?_of_filter {p : RawNode → Bool} {nodes : List RawNode} {node : RawNode}
    (h : nodes.filter p = [node]) : nodes.find? p = some node := by
  rw [← List.head?_filter, h]
  rfl

theorem mem_namedNodes {root node : RawNode} {tag name : String} :
    node ∈ namedNodes root tag name ↔
      node ∈ root.nodes ∧ node.tagName = tag ∧ extractShortName node = name := by
  simp [namedNodes]

/-- The only `I-SIGNAL` of a name is the one that the export finds. -/
theorem iSignalOf_unique {root node : RawNode} {name : String}
    (h : namedNodes root "I-SIGNAL" name = [node]) : iSignalOf root name = some node := by
  have hname (node : RawNode) : nameOf node = extractShortName node := childText_getD node _
  rw [iSignalOf]
  simp only [hname]
  exact find?_of_filter h

/-- The first signal element of the name, if an `I-SIGNAL`, is that one too. -/
theorem signalNodeOf_unique {root node : RawNode} {name : String}
    (h : namedNodes root "I-SIGNAL" name = [node])
    (hfirst : ∀ other, signalNodeOf root name = some other → other.tagName = "I-SIGNAL") :
    signalNodeOf root name = some node := by
  obtain ⟨hnode, htag, hname⟩ := mem_namedNodes.mp (h ▸ List.mem_singleton_self node)
  have hfamily : node ∈ nodesOfFamily root isSignalTag :=
    List.mem_filter.mpr ⟨hnode, by simp [isSignalTag, htag]⟩
  cases hfound : signalNodeOf root name with
  | none =>
    have hno := List.find?_eq_none.mp hfound node hfamily
    simp [hname] at hno
  | some other =>
    have hother : other ∈ namedNodes root "I-SIGNAL" name := mem_namedNodes.mpr
      ⟨(List.mem_filter.mp (List.mem_of_find?_eq_some hfound)).1, hfirst other hfound,
        by simpa using List.find?_some hfound⟩
    rw [h, List.mem_singleton] at hother
    rw [hother]

/-- A name without a line feed is told apart in the key of a mapping. -/
theorem packingKey_inj {pduName signalName pduName' signalName' : String}
    (hpdu : '\n' ∉ pduName.toList) (hsignal : '\n' ∉ signalName.toList)
    (h : packingKey pduName' signalName' = packingKey pduName signalName) :
    pduName' = pduName ∧ signalName' = signalName := by
  have hl := congrArg String.toList h.symm
  have key (a b : String) : (packingKey a b).toList = a.toList ++ '\n' :: b.toList := by
    simp [packingKey]
  rw [key, key] at hl
  obtain ⟨h1, -, h2⟩ := (List.append_cons_inj_of_notMem hpdu hsignal).mp hl
  exact ⟨(String.toList_inj.mp h1).symm, (String.toList_inj.mp h2).symm⟩

/-! ## A regular mapping -/

/-- The parts of `validatePdu` that are about the layout. -/
theorem checkSignalOverlap_of_clean {signals : StdMap (Signal D)} {pdu : Pdu}
    {findings : List ValidationError} (h : validatePdu signals pdu = some findings)
    (hclean : ∀ finding ∈ findings, ¬ finding.IsLayout) :
    checkSignalOverlap pdu signals = some [] := by
  unfold validatePdu at h
  cases hoverlap : checkSignalOverlap pdu signals with
  | none => simp [hoverlap] at h
  | some overlap =>
    simp only [hoverlap, Option.bind_eq_bind, Option.bind_some, Option.some.injEq] at h
    subst h
    have hnone : ∀ finding ∈ overlap, False := fun finding hmem =>
      hclean finding (List.mem_append_right _ hmem) (checkSignalOverlap_isLayout hoverlap _ hmem)
    rw [List.eq_nil_iff_forall_not_mem.mpr hnone]

namespace RegularMapping

variable {file : ParsedFile D} {root mappingNode pduNode placeNode : RawNode}

theorem pdu_mem (h : RegularMapping file root mappingNode pduNode) : pduNode ∈
    namedNodes root "I-SIGNAL-I-PDU" (buildFramePduMapping mappingNode).pduShortNameRef :=
  h.unique ▸ List.mem_singleton_self pduNode

theorem name_eq (h : RegularMapping file root mappingNode pduNode) :
    extractShortName pduNode = (buildFramePduMapping mappingNode).pduShortNameRef :=
  (mem_namedNodes.mp h.pdu_mem).2.2

/-- The first PDU element of the name is the mapped one. -/
theorem pduNodeOf_eq (h : RegularMapping file root mappingNode pduNode)
    (hplain : Unambiguous root pduNode) :
    pduNodeOf root (buildFramePduMapping mappingNode).pduShortNameRef = some pduNode :=
  h.name_eq ▸ hplain.first

/-- No other `I-SIGNAL-I-PDU` has the name. -/
theorem eq_pduNode (h : RegularMapping file root mappingNode pduNode) {node : RawNode}
    (hnode : node ∈ root.nodes) (htag : node.tagName = "I-SIGNAL-I-PDU")
    (hname : extractShortName node = extractShortName pduNode) : node = pduNode := by
  have hmem := mem_namedNodes.mpr ⟨hnode, htag, hname.trans h.name_eq⟩
  rwa [h.unique, List.mem_singleton] at hmem

/-- A signal is mapped by one node. -/
theorem eq_placeNode (h : RegularMapping file root mappingNode pduNode) {other : RawNode}
    (hplace : placeNode ∈ signalMappingNodes pduNode) (hother : other ∈ signalMappingNodes pduNode)
    (hne : (buildPduSignalMapping placeNode).signalShortNameRef ≠ "")
    (hsame : (buildPduSignalMapping other).signalShortNameRef =
      (buildPduSignalMapping placeNode).signalShortNameRef) : other = placeNode := by
  have honce := h.once
  rw [List.filter_map] at honce
  refine List.inj_on_of_nodup_map honce (List.mem_filter.mpr ⟨hother, ?_⟩)
    (List.mem_filter.mpr ⟨hplace, ?_⟩) hsame
  · simpa [hsame] using hne
  · simpa using hne

/-- The mappings that `exportByteOrder` may find are the mapping itself. -/
theorem plainPacking (h : RegularMapping file root mappingNode pduNode)
    (hplain : Unambiguous root pduNode) (hplace : placeNode ∈ signalMappingNodes pduNode)
    (hne : (buildPduSignalMapping placeNode).signalShortNameRef ≠ "") :
    PlainPacking root placeNode (extractShortName pduNode)
      (buildPduSignalMapping placeNode).signalShortNameRef where
  noByteOrder := hplain.byteOrder _ hplace
  packing := by
    rcases (h.places _ hplace hne).packing with hmost | hleast
    · exact Or.inl hmost
    · exact Or.inr ⟨_, hleast, by decide +kernel⟩
  repeated := by
    intro node hnode htag mapping hmapping hkey
    obtain ⟨hname, href⟩ :=
      packingKey_inj hplain.pduName (hplain.signalNames _ hplace) hkey
    rw [nameOf, childText_getD] at hname
    obtain rfl := h.eq_pduNode hnode htag hname
    have hmem : mapping ∈ signalMappingNodes node := List.mem_append_right _ hmapping
    have hmodel : (buildPduSignalMapping mapping).signalShortNameRef =
        shortNameOfRef (childText mapping "I-SIGNAL-REF") := by
      rw [childText_getD]
      simp only [buildPduSignalMapping, hplain.signalRef _ hmem]
      cases ParseX.childText mapping "I-SIGNAL-REF" <;> rfl
    rw [h.eq_placeNode hplace hmem hne (hmodel.trans href)]

/-- The whole bytes a mapped PDU moves by. -/
theorem start_eq (h : RegularMapping file root mappingNode pduNode) :
    (buildFramePduMapping mappingNode).startPosition.toNat =
      8 * (byteRange root mappingNode).1 := by
  have := h.aligned
  simp only [byteRange]
  omega

theorem byteRange_eq (h : RegularMapping file root mappingNode pduNode) :
    (byteRange root mappingNode).2 =
      (byteRange root mappingNode).1 + (buildPdu pduNode).1.length.toNat := by
  simp [byteRange, h.unique]

/-- The placements that the overlap check sees are clean. -/
theorem cleanLayout (h : RegularMapping file root mappingNode pduNode) :
    CleanLayout (8 * (buildPdu pduNode).1.length.toNat)
      ((placements (buildPdu pduNode).1 (signalTable file)).filter fun p => p.Visible) := by
  obtain ⟨findings, hfindings, hclean⟩ := h.clean
  have hnil := checkSignalOverlap_of_clean hfindings hclean
  have hlength : (buildPdu pduNode).1.length ≠ 0 := by
    intro hzero
    have := h.length.1
    rw [hzero] at this
    exact absurd this (by decide)
  have hfits : ∀ p ∈ placements (buildPdu pduNode).1 (signalTable file), p.Visible → p.Fits := by
    intro p hp hv
    by_contra hf
    rw [checkSignalOverlap_overflow _ _ hlength ⟨p, hp, hv, hf⟩] at hnil
    cases hnil
  obtain ⟨_, heq, hiff⟩ := checkSignalOverlap_eq_nil _ _ hlength hfits
  exact hiff.mp (Option.some.inj (heq.symm.trans hnil))

end RegularMapping

/-! ## The signals of a mapping -/

/-- A signal that a mapping node of a mapped PDU gives. -/
structure MappedSignal (file : ParsedFile D) (mappingNode pduNode placeNode : RawNode)
    (signal : ExportSignal D) : Prop where
  place_mem : placeNode ∈ signalMappingNodes pduNode
  gives : ∃ frameName who outs notes, PlaceGives file frameName who
    (buildFramePduMapping mappingNode) (buildPduSignalMapping placeNode) outs notes ∧
    signal ∈ outs

theorem MappedSignal.name_eq {file : ParsedFile D} {mappingNode pduNode placeNode : RawNode}
    {signal : ExportSignal D} (h : MappedSignal file mappingNode pduNode placeNode signal) :
    signal.name = (buildPduSignalMapping placeNode).signalShortNameRef ∧ signal.name ≠ "" := by
  obtain ⟨_, _, _, _, hgives, hmem⟩ := h.gives
  cases hgives with
  | group _ => cases hmem
  | undefined _ _ => cases hmem
  | exported hne _ _ _ =>
    obtain rfl := List.mem_singleton.mp hmem
    exact ⟨rfl, hne⟩

namespace RegularMapping

variable [LawfulDouble D]
variable {file : ParsedFile D} {root mappingNode pduNode placeNode placeNode' : RawNode}
variable {signal signal' : ExportSignal D}

/-- An exported signal lies where the overlap check places it, moved to its
PDU. The check leaves out empty signals. -/
theorem placement (h : RegularMapping file root mappingNode pduNode)
    (hraw : file.rawDocument = some root) (hbuilt : BuiltFrom root file)
    (hplain : Unambiguous root pduNode)
    (hsignal : MappedSignal file mappingNode pduNode placeNode signal) :
    ∃ p : Placement, signal.placement = p.shift (byteRange root mappingNode).1 ∧
      p.signalName = signal.name ∧
      (p.length ≠ 0 →
        p ∈ (placements (buildPdu pduNode).1 (signalTable file)).filter fun p => p.Visible) := by
  obtain ⟨hplace, _, _, _, _, hgives, hmem⟩ := hsignal
  cases hgives with
  | group _ => cases hmem
  | undefined _ _ => cases hmem
  | exported hne hpick _ _ =>
    obtain rfl := List.mem_singleton.mp hmem
    have hregular := h.places placeNode hplace hne
    obtain ⟨node, hunique, value, htext, hsmall⟩ := hregular.signal
    have hplainSignal := hplain.signals placeNode hplace hne
    have hfirst := signalNodeOf_unique hunique fun other hother => (hplainSignal other hother).1
    obtain ⟨hvalue, hinteger⟩ := autosarValue_toString value
    have hfit : value < 2 ^ 32 := by omega
    obtain ⟨modelSignal, hmodel, hmodelLength, hexport⟩ := bitLength_iSignal hraw hbuilt
      (iSignalOf_unique hunique) hfirst (hplainSignal node hfirst).2 htext hinteger hvalue hfit
    have hlength : (UInt32.ofNat value).toNat = value := UInt32.toNat_ofNat_of_lt' hfit
    refine ⟨⟨_, (buildPduSignalMapping placeNode).byteOrder,
      (buildPduSignalMapping placeNode).startPosition.toNat, value⟩, ?_, rfl, ?_⟩
    · have horder := exportByteOrder_plain hraw (h.plainPacking hplain hplace hne)
      rw [h.name_eq] at horder
      have hsum : ((buildPduSignalMapping placeNode).startPosition +
          (buildFramePduMapping mappingNode).startPosition).toNat =
          (buildPduSignalMapping placeNode).startPosition.toNat +
            8 * (byteRange root mappingNode).1 := by
        have := hregular.start
        have := h.start
        rw [← h.start_eq, UInt32.toNat_add, Nat.mod_eq_of_lt (by omega)]
      simp only [ExportSignal.placement, makeSignal, Placement.shift, horder, hexport, hlength,
        hsum]
    · intro hpos
      refine List.mem_filter.mpr ⟨List.mem_filterMap.mpr
        ⟨_, List.mem_map.mpr ⟨placeNode, hplace, rfl⟩, ?_⟩, ?_⟩
      · have hzero : modelSignal.bitLength ≠ 0 := by
          intro hz
          rw [← hmodelLength, hz] at hlength
          exact hpos hlength.symm
        simp only [placementOf, hmodel]
        rw [if_neg hzero, hmodelLength, hlength]
        rfl
      · have := hregular.start
        exact decide_eq_true ⟨by dsimp only; omega, by dsimp only; omega⟩

/-- The signals of a mapping lie in the bytes of its PDU. -/
theorem inside (h : RegularMapping file root mappingNode pduNode)
    (hraw : file.rawDocument = some root) (hbuilt : BuiltFrom root file)
    (hplain : Unambiguous root pduNode)
    (hsignal : MappedSignal file mappingNode pduNode placeNode signal) {bit : Nat}
    (hbit : signal.placement.Occupies bit) :
    8 * (byteRange root mappingNode).1 ≤ bit ∧ bit < 8 * (byteRange root mappingNode).2 := by
  obtain ⟨p, hp, -, hseen⟩ := h.placement hraw hbuilt hplain hsignal
  rw [hp] at hbit
  obtain ⟨low, rfl, hlow⟩ := Placement.occupies_shift hbit
  have hin := hseen fun hzero => Placement.not_occupies_of_empty hzero low hlow
  have := h.cleanLayout.1 p hin low hlow
  rw [h.byteRange_eq]
  omega

/-- Two signals of a mapping share no bit. -/
theorem disjoint (h : RegularMapping file root mappingNode pduNode)
    (hraw : file.rawDocument = some root) (hbuilt : BuiltFrom root file)
    (hplain : Unambiguous root pduNode)
    (hsignal : MappedSignal file mappingNode pduNode placeNode signal)
    (hsignal' : MappedSignal file mappingNode pduNode placeNode' signal')
    (hname : signal.name ≠ signal'.name) {bit : Nat} (hbit : signal.placement.Occupies bit) :
    ¬ signal'.placement.Occupies bit := by
  intro hbit'
  obtain ⟨p, hp, hpname, hseen⟩ := h.placement hraw hbuilt hplain hsignal
  obtain ⟨p', hp', hpname', hseen'⟩ := h.placement hraw hbuilt hplain hsignal'
  rw [hp] at hbit
  rw [hp'] at hbit'
  obtain ⟨low, hlow, hoccupies⟩ := Placement.occupies_shift hbit
  obtain ⟨low', hlow', hoccupies'⟩ := Placement.occupies_shift hbit'
  obtain rfl : low = low' := by omega
  have hin := hseen fun hzero => Placement.not_occupies_of_empty hzero low hoccupies
  have hin' := hseen' fun hzero => Placement.not_occupies_of_empty hzero low hoccupies'
  exact h.cleanLayout.2 p hin p' hin' (by rwa [hpname, hpname']) low hoccupies hoccupies'

omit [LawfulDouble D] in
/-- A mapped PDU gives what its mapping nodes give. -/
theorem account (h : RegularMapping file root mappingNode pduNode) (hbuilt : BuiltFrom root file)
    (hplain : Unambiguous root pduNode) {frameName : String} {who : FrameParties}
    {outs : List (ExportSignal D)} {notes : List Warning}
    (hgives : MappingGives file frameName who (buildFramePduMapping mappingNode) outs notes) :
    Account (fun placeNode => PlaceGives file frameName who (buildFramePduMapping mappingNode)
      (buildPduSignalMapping placeNode)) (signalMappingNodes pduNode) outs notes := by
  have hfind := (find?_pdus hbuilt _).trans
    (congrArg (Option.map fun node => (buildPdu node).1) (h.pduNodeOf_eq hplain))
  cases hgives with
  | unresolved hnone =>
    exact absurd (by simpa using List.find?_some hfind)
      (hnone _ (List.mem_of_find?_eq_some hfind))
  | resolved hpdu haccount =>
    obtain rfl := Option.some.inj (hpdu.symm.trans hfind)
    exact haccount.of_map

omit [LawfulDouble D] in
/-- The signals a mapped PDU gives. -/
theorem mappedSignal (h : RegularMapping file root mappingNode pduNode)
    (hbuilt : BuiltFrom root file) (hplain : Unambiguous root pduNode) {frameName : String}
    {who : FrameParties} {outs : List (ExportSignal D)} {notes : List Warning}
    (hgives : MappingGives file frameName who (buildFramePduMapping mappingNode) outs notes)
    (hmem : signal ∈ outs) :
    ∃ placeNode, MappedSignal file mappingNode pduNode placeNode signal := by
  obtain ⟨placeNode, hplace, _, _, hplaceGives, hout⟩ := (h.account hbuilt hplain hgives).mem hmem
  exact ⟨placeNode, hplace, _, _, _, _, hplaceGives, hout⟩

/-- The signals of one mapping share no bits. -/
theorem pairwise_disjoint (h : RegularMapping file root mappingNode pduNode)
    (hraw : file.rawDocument = some root) (hbuilt : BuiltFrom root file)
    (hplain : Unambiguous root pduNode) {frameName : String} {who : FrameParties}
    {outs : List (ExportSignal D)} {notes : List Warning}
    (hgives : MappingGives file frameName who (buildFramePduMapping mappingNode) outs notes) :
    outs.Pairwise fun signal signal' =>
      ∀ bit, signal.placement.Occupies bit → ¬ signal'.placement.Occupies bit := by
  refine (h.account hbuilt hplain hgives).pairwise (fun placeNode _ outs notes hgives => ?_) ?_
  · cases hgives with
    | group _ => exact .nil
    | undefined _ _ => exact .nil
    | exported _ _ _ _ => exact List.pairwise_singleton _ _
  · have hnames := h.once
    rw [List.Nodup, List.pairwise_filter, List.pairwise_map] at hnames
    refine hnames.imp_of_mem fun {placeNode placeNode'} hplace hplace' hdiffer => ?_
    intro outs notes outs' notes' hgives hgives' signal hmem signal' hmem' bit
    have hsignal : MappedSignal file mappingNode pduNode placeNode signal :=
      ⟨hplace, _, _, _, _, hgives, hmem⟩
    have hsignal' : MappedSignal file mappingNode pduNode placeNode' signal' :=
      ⟨hplace', _, _, _, _, hgives', hmem'⟩
    obtain ⟨hname, hne⟩ := hsignal.name_eq
    obtain ⟨hname', hne'⟩ := hsignal'.name_eq
    refine h.disjoint hraw hbuilt hplain hsignal hsignal' ?_
    rw [hname, hname']
    exact hdiffer (by simpa [hname] using hne) (by simpa [hname'] using hne')

end RegularMapping

/-! ## The frame -/

/-- **A clean PDU layout stays clean in the exported frame.** -/
theorem frame_layout_clean [LawfulDouble D] {path : String} {root : RawNode}
    {file : ParsedFile D} (h : parseDocument path root = .ok file) {frameNode : RawNode}
    {out : ExportFrame D} (hframe : ExportedFrame file root frameNode out)
    (hregular : RegularFrame file root frameNode)
    (hplain : ∀ mappingNode ∈ framePduNodes frameNode, ∀ pduNode ∈
      namedNodes root "I-SIGNAL-I-PDU" (buildFramePduMapping mappingNode).pduShortNameRef,
      Unambiguous root pduNode) : CleanFrame out := by
  obtain ⟨hraw, hbuilt⟩ := parseDocument_ok h
  have hinside : ∀ signal ∈ out.signals, ∀ bit, signal.placement.Occupies bit →
      bit < 8 * out.length.toNat := by
    intro signal hsignal bit hbit
    obtain ⟨mappingNode, pduNode, placeNode, hexport⟩ :=
      (mem_exported_signals hbuilt hframe).mp hsignal
    obtain ⟨regularNode, hmapping⟩ := hregular.mappings _ hexport.mapping_mem
    have hpdu := hplain _ hexport.mapping_mem _ hmapping.pdu_mem
    obtain rfl := Option.some.inj ((hmapping.pduNodeOf_eq hpdu).symm.trans hexport.pdu)
    have hlt := (hmapping.inside hraw hbuilt hpdu
      ⟨hexport.place_mem, _, _, _, _, hexport.gives, List.mem_singleton_self _⟩ hbit).2
    have hin := hregular.inside _ hexport.mapping_mem
    rw [exportedFrame_length hframe]
    omega
  refine ⟨fun signal hsignal bits hbits bit hbit => ?_, ?_,
    fun hlength signal hsignal => physicalBits_defined hlength (hinside signal hsignal)⟩
  · obtain ⟨low, rfl, hlow⟩ := mem_physicalBits hbits hbit
    have := hinside signal hsignal low hlow
    omega
  · have hdisjoint : out.signals.Pairwise fun signal signal' =>
        ∀ bit, signal.placement.Occupies bit → ¬ signal'.placement.Occupies bit := by
      obtain ⟨warnings, hgives⟩ := hframe.gives
      cases hgives with
      | exported _ _ haccount =>
        refine haccount.of_map.pairwise ?_ ?_
        · intro mappingNode hmem outs notes hgives
          obtain ⟨pduNode, hmapping⟩ := hregular.mappings _ hmem
          exact hmapping.pairwise_disjoint hraw hbuilt (hplain _ hmem _ hmapping.pdu_mem) hgives
        · refine hregular.apart.imp_of_mem fun {mappingNode mappingNode'} hmem hmem' hapart => ?_
          intro outs notes outs' notes' hgives hgives' signal hsignal signal' hsignal' bit hbit hbit'
          obtain ⟨pduNode, hmapping⟩ := hregular.mappings _ hmem
          obtain ⟨pduNode', hmapping'⟩ := hregular.mappings _ hmem'
          have hpdu := hplain _ hmem _ hmapping.pdu_mem
          have hpdu' := hplain _ hmem' _ hmapping'.pdu_mem
          obtain ⟨placeNode, hplaced⟩ := hmapping.mappedSignal hbuilt hpdu hgives hsignal
          obtain ⟨placeNode', hplaced'⟩ := hmapping'.mappedSignal hbuilt hpdu' hgives' hsignal'
          have hin := hmapping.inside hraw hbuilt hpdu hplaced hbit
          have hin' := hmapping'.inside hraw hbuilt hpdu' hplaced' hbit'
          omega
    refine hdisjoint.imp fun hpair bits bits' hbits hbits' bit hbit hbit' => ?_
    obtain ⟨low, rfl, hlow⟩ := mem_physicalBits hbits hbit
    obtain ⟨low', heq, hlow'⟩ := mem_physicalBits hbits' hbit'
    obtain rfl := Int.ofNat.inj heq
    exact hpair low hlow hlow'

end

/-! ## One frame -/

/-- The frame node of the documents below. -/
def brakeNode : RawNode :=
  { tagName := "CAN-FRAME", children := [
    { tagName := "SHORT-NAME", text := "Brake" },
    { tagName := "FRAME-LENGTH", text := "8" },
    { tagName := "PDU-TO-FRAME-MAPPING", children := [
      { tagName := "PDU-REF", text := "/Pdus/Status" },
      { tagName := "START-POSITION", text := "0" }] }] }

/-- The signal mapping node of the documents below. -/
def speedMappingNode (start : String) : RawNode :=
  { tagName := "I-SIGNAL-TO-I-PDU-MAPPING", children := [
    { tagName := "I-SIGNAL-REF", text := "/Signals/Speed" },
    { tagName := "START-POSITION", text := start },
    { tagName := "PACKING-BYTE-ORDER", text := "LEAST-SIGNIFICANT-BYTE-FIRST" }] }

/-- The PDU node of the documents below. -/
def statusNode (start : String) : RawNode :=
  { tagName := "I-SIGNAL-I-PDU", children := [
    { tagName := "SHORT-NAME", text := "Status" },
    { tagName := "LENGTH", text := "8" },
    speedMappingNode start] }

/-- A document with one little-endian signal. -/
def documentOfSignal (start : String) (signal : List RawNode) : RawNode :=
  canDocument "8" "0" start
    [{ tagName := "PACKING-BYTE-ORDER", text := "LEAST-SIGNIFICANT-BYTE-FIRST" }] signal

theorem regularFrame_brake (value : Nat) {start : String} {signal : List RawNode} {node : RawNode}
    (hpdus : namedNodes (documentOfSignal start signal) "I-SIGNAL-I-PDU" "Status" =
      [statusNode start])
    (hsignals : namedNodes (documentOfSignal start signal) "I-SIGNAL" "Speed" = [node])
    (hlength : ParseX.childText node "LENGTH" = some (toString value)) (hvalue : value < 2 ^ 30)
    (hstart : (buildPduSignalMapping (speedMappingNode start)).startPosition.toNat < 2 ^ 30)
    (hclean : validatePdu (signalTable (fileOf (documentOfSignal start signal)))
      (buildPdu (statusNode start)).1 = some []) :
    RegularFrame (fileOf (documentOfSignal start signal)) (documentOfSignal start signal)
      brakeNode := by
  obtain ⟨mappingNode, hmappings, hmapping⟩ : ∃ mappingNode, framePduNodes brakeNode =
      [mappingNode] ∧ buildFramePduMapping mappingNode = ⟨"Status", 0⟩ :=
    List.map_eq_singleton_iff.mp (by decide +kernel)
  have hplaces : signalMappingNodes (statusNode start) = [speedMappingNode start] := rfl
  have hsignal : (buildPduSignalMapping (speedMappingNode start)).signalShortNameRef = "Speed" :=
    rfl
  have hpduLength : (buildPdu (statusNode start)).1.length = 8 := rfl
  have hplace : RegularPlace (documentOfSignal start signal) (speedMappingNode start) :=
    { signal := ⟨node, by rw [hsignal, hsignals], value, hlength, hvalue⟩
      packing := Or.inr rfl
      start := hstart }
  have hregular : RegularMapping (fileOf (documentOfSignal start signal))
      (documentOfSignal start signal) mappingNode (statusNode start) :=
    { unique := by rw [hmapping, hpdus]
      aligned := by simp [hmapping]
      start := by simp [hmapping]
      length := by simp [hpduLength]
      places := by simp [hplaces, hplace]
      once := by simp [hplaces, hsignal]
      clean := ⟨[], hclean, by simp⟩ }
  refine ⟨?_, ?_, ?_, ?_, by decide +kernel⟩
  · rw [hmappings]
    exact List.forall_mem_singleton.mpr ⟨_, hregular⟩
  · simp [hmappings]
  · rw [hmappings]
    refine List.forall_mem_singleton.mpr ?_
    rw [hregular.byteRange_eq, hpduLength]
    simp only [byteRange, hmapping]
    decide +kernel
  · simp [hmappings]

/-- The signal's `BIT-LENGTH` fits into the PDU, the `LENGTH` that the export
reads does not fit into the frame. -/
theorem bit_length_leaves_frame :
    let root := documentOfSignal "56" [{ tagName := "BIT-LENGTH", text := "8" },
      { tagName := "LENGTH", text := "16" }]
    parseDocument "can.arxml" root = .ok (fileOf root) ∧ ∃ frameNode out,
      ExportedFrame (fileOf root) root frameNode out ∧
      RegularFrame (fileOf root) root frameNode ∧ ¬ CleanFrame out := by
  intro root
  have hparse : parseDocument "can.arxml" root = .ok (fileOf root) :=
    parseDocument_canDocument _ _ _ _ _
  have hbuilt := (parseDocument_ok hparse).2
  obtain ⟨out, hout, signal, hsignal, hlength, hbits⟩ :
      ∃ out ∈ (buildExportDatabase (fileOf root)).frames, ∃ signal ∈ out.signals,
        out.length = 8 ∧ 64 ∈ signal.physicalBits.getD [] := by decide +kernel
  obtain ⟨frameNode, hframe⟩ := (mem_exported_frames hbuilt).mp hout
  have hnode : frameNode = brakeNode := List.mem_singleton.mp hframe.mem
  subst hnode
  refine ⟨hparse, _, out, hframe, regularFrame_brake 16 rfl rfl (by decide +kernel)
    (by decide) (by decide +kernel) (by decide +kernel), ?_⟩
  intro hclean
  cases hwalk : signal.physicalBits with
  | none => simp [hwalk] at hbits
  | some bits =>
    rw [hwalk] at hbits
    have := (hclean.inside signal hsignal bits hwalk 64 hbits).2
    rw [hlength] at this
    exact absurd this (by decide)

theorem frame_layout_clean_little_endian :
    let root := documentOfSignal "8" [{ tagName := "LENGTH", text := "16" }]
    ∃ out ∈ (buildExportDatabase (fileOf root)).frames, out.name = "Brake" ∧ CleanFrame out := by
  intro root
  have hparse : parseDocument "can.arxml" root = .ok (fileOf root) :=
    parseDocument_canDocument _ _ _ _ _
  have hbuilt := (parseDocument_ok hparse).2
  obtain ⟨out, hout, hname⟩ :
      ∃ out ∈ (buildExportDatabase (fileOf root)).frames, out.name = "Brake" := by decide +kernel
  obtain ⟨frameNode, hframe⟩ := (mem_exported_frames hbuilt).mp hout
  have hnode : frameNode = brakeNode := List.mem_singleton.mp hframe.mem
  subst hnode
  refine ⟨out, hout, hname, frame_layout_clean hparse hframe (regularFrame_brake 16 rfl rfl
    (by decide +kernel) (by decide) (by decide +kernel) (by decide +kernel)) ?_⟩
  intro mappingNode hmem pduNode hpdu
  have hpdus : namedNodes root "I-SIGNAL-I-PDU" "Status" = [statusNode "8"] := rfl
  have hnode : pduNode = statusNode "8" := by
    have hmappings : (framePduNodes brakeNode).map buildFramePduMapping = [⟨"Status", 0⟩] := by
      decide +kernel
    have hmapping := List.mem_map_of_mem (f := buildFramePduMapping) hmem
    rw [hmappings, List.mem_singleton] at hmapping
    rwa [hmapping, hpdus, List.mem_singleton] at hpdu
  subst hnode
  have hplaces : ∀ place ∈ signalMappingNodes (statusNode "8"),
      ParseX.childText place "BYTE-ORDER" = none ∧ ParseX.childText place "SIGNAL-REF" = none ∧
        '\n' ∉ (buildPduSignalMapping place).signalShortNameRef.toList := by decide +kernel
  have hsignals : ∀ node ∈ nodesOfFamily root isSignalTag,
      node.tagName = "I-SIGNAL" ∧ ParseX.childText node "BIT-LENGTH" = none := by decide +kernel
  exact
    { first := rfl
      signals := fun _ _ _ node hfound => hsignals node (List.mem_of_find?_eq_some hfound)
      byteOrder := fun place hplace => (hplaces place hplace).1
      signalRef := fun place hplace => (hplaces place hplace).2.1
      pduName := by decide +kernel
      signalNames := fun place hplace => (hplaces place hplace).2.2 }

end ParseX.CanDb

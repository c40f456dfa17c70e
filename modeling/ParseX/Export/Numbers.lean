import ParseX.Export.Literal
import ParseX.Export.Provenance

/-! # Exported numbers

Frame lengths, bit lengths and start bits against the texts they are read
from. The export reads the bit length of an `I-SIGNAL` itself; the other
numbers come through the model, which misreads binary and octal integers, and
the sum of the start positions is taken modulo 2^32. -/
namespace ParseX.CanDb
open Cpp

/-! ## The texts -/

/-- The text of a frame's length. -/
def frameLengthText (frameNode : RawNode) : Option String :=
  (ParseX.childText frameNode "LENGTH").orElse fun _ => ParseX.childText frameNode "FRAME-LENGTH"

/-- What a frame length falls back to: `FRAME-LENGTH` after a `LENGTH` that is
not read. -/
def frameLengthFallback (frameNode : RawNode) : UInt32 :=
  if (ParseX.childText frameNode "LENGTH").isSome then childUint32 frameNode "FRAME-LENGTH" 0
  else 0

/-- The text of a start position, which is zero by default. -/
def startText (mappingNode : RawNode) : String :=
  (ParseX.childText mappingNode "START-POSITION").getD "0"

section
variable {D : Type} [Double D]

/-- The text of a signal's length: of the first `I-SIGNAL` of the name, and
without one of the `SYSTEM-SIGNAL` that the export picks. -/
inductive SignalLengthText (file : ParsedFile D) (root : RawNode) (name : String) :
    RawNode → String → Prop
  | iSignal {node : RawNode} {text : String} : iSignalOf root name = some node →
      ParseX.childText node "LENGTH" = some text → SignalLengthText file root name node text
  | systemSignal {node : RawNode} {text : String} : iSignalOf root name = none →
      node ∈ nodesOfFamily root isSignalTag →
      pickModelSignal file (fileIndex file) name = some (buildSignal node).1 →
      ParseX.childText node "BIT-LENGTH" = none → ParseX.childText node "LENGTH" = some text →
      SignalLengthText file root name node text

/-- The exported numbers are the values of their texts wherever these are
AUTOSAR integers that fit, and no sum that does not fit is exported modulo
2^32. -/
structure TrueNumbers (file : ParsedFile D) (root : RawNode) : Prop where
  length : ∀ frameNode out text value, ExportedFrame file root frameNode out →
    frameLengthText frameNode = some text → autosarValue text = some value → value < 2 ^ 32 →
    out.length.toNat = value
  bitLength : ∀ frameNode mappingNode pduNode placeNode out signal signalNode text value,
    ExportedSignal file root frameNode mappingNode pduNode placeNode out signal →
    SignalLengthText file root signal.name signalNode text → autosarValue text = some value →
    value < 2 ^ 32 → signal.bitLength.toNat = value
  startBit : ∀ frameNode mappingNode pduNode placeNode out signal offset start,
    ExportedSignal file root frameNode mappingNode pduNode placeNode out signal →
    autosarValue (startText mappingNode) = some offset →
    autosarValue (startText placeNode) = some start →
    if offset + start < 2 ^ 32 then signal.startBit.toNat = offset + start
    else signal.startBit.toNat ≠ (offset + start) % 2 ^ 32

/-- The texts that the model reads are plain integers, or what is read instead
comes to the same: the fallback of an unreadable length, or the sum of two
misread positions. -/
structure PlainNumbers (file : ParsedFile D) (root : RawNode) : Prop where
  length : ∀ frameNode out text value, ExportedFrame file root frameNode out →
    frameLengthText frameNode = some text → autosarValue text = some value → value < 2 ^ 32 →
    PlainInteger text ∨ ((∀ reading, decimalReading text = some reading → 2 ^ 32 ≤ reading) ∧
      (frameLengthFallback frameNode).toNat = value)
  bitLength : ∀ frameNode mappingNode pduNode placeNode out signal signalNode text value,
    ExportedSignal file root frameNode mappingNode pduNode placeNode out signal →
    SignalLengthText file root signal.name signalNode text → autosarValue text = some value →
    value < 2 ^ 32 → iSignalOf root signal.name = none → PlainInteger text
  startBit : ∀ frameNode mappingNode pduNode placeNode out signal offset start,
    ExportedSignal file root frameNode mappingNode pduNode placeNode out signal →
    autosarValue (startText mappingNode) = some offset →
    autosarValue (startText placeNode) = some start →
    if offset + start < 2 ^ 32 then
      (PlainInteger (startText mappingNode) ∧ PlainInteger (startText placeNode)) ∨
        (readingOr (startText mappingNode) 0 + readingOr (startText placeNode) 0) % 2 ^ 32 =
          offset + start
    else (readingOr (startText mappingNode) 0 + readingOr (startText placeNode) 0) % 2 ^ 32 ≠
      (offset + start) % 2 ^ 32

/-! ## What is read from them -/

theorem buildFrame_length {frameNode : RawNode} {text : String}
    (h : frameLengthText frameNode = some text) : (buildFrame frameNode).1.length =
      (parseUint32 text).getD (frameLengthFallback frameNode) := by
  change childUint32 frameNode "LENGTH" (childUint32 frameNode "FRAME-LENGTH" 0) = _
  unfold frameLengthText at h
  unfold frameLengthFallback
  cases hlength : ParseX.childText frameNode "LENGTH" with
  | some found =>
    rw [hlength] at h
    obtain rfl : found = text := Option.some.inj h
    rw [childUint32, hlength]
    rfl
  | none =>
    rw [hlength] at h
    have h : ParseX.childText frameNode "FRAME-LENGTH" = some text := h
    rw [childUint32, hlength]
    dsimp only
    rw [childUint32, h]
    rfl

theorem startPosition_eq (mappingNode : RawNode) :
    childUint32 mappingNode "START-POSITION" 0 =
      (parseUint32 (startText mappingNode)).getD 0 := by
  unfold childUint32 startText
  cases ParseX.childText mappingNode "START-POSITION" with
  | some text => rfl
  | none =>
    have := parseUint32_toString 0
    exact (congrArg (fun read : Option UInt32 => read.getD 0) this).symm

/-- An integer that fits is read as its value, or misread. -/
theorem readingOr_eq_iff {text : String} {value fallback : Nat}
    (hvalue : autosarValue text = some value) (hfit : value < 2 ^ 32) :
    readingOr text fallback = value ↔ PlainInteger text ∨
      ((∀ reading, decimalReading text = some reading → 2 ^ 32 ≤ reading) ∧ fallback = value) := by
  obtain ⟨reading, hreading⟩ := decimalReading_isSome hvalue
  rw [plainInteger_iff, hvalue, readingOr, hreading]
  simp only [Option.some.injEq, forall_eq']
  split
  · rename_i hlt
    omega
  · rename_i hge
    omega

/-- A zero in any notation is plain. -/
theorem plainInteger_of_zero {text : String} (h : autosarValue text = some 0) :
    PlainInteger text := by
  intro notation_ digits hsplit
  rw [autosarValue, hsplit] at h
  have hzero : leadingValue notation_.base digits = 0 := Option.some.inj h
  cases notation_ with
  | decimal => trivial
  | hexadecimal => trivial
  | binary => exact hzero
  | octal => exact lt_of_eq_of_lt hzero (by norm_num)

theorem childText_getD (node : RawNode) (tag : String) :
    childText node tag = (ParseX.childText node tag).getD "" := by
  unfold childText ParseX.childText
  cases findChild node tag with
  | none => rfl
  | some child => rfl

end

section
variable {D : Type} [Double D]

theorem exportedFrame_length {file : ParsedFile D} {root frameNode : RawNode}
    {out : ExportFrame D} (h : ExportedFrame file root frameNode out) :
    out.length = (buildFrame frameNode).1.length := by
  obtain ⟨warnings, hgives⟩ := h.gives
  cases hgives with
  | exported hheader _ _ =>
    unfold makeFrameHeader at hheader
    split at hheader
    · cases hheader
    · split at hheader
      · cases hheader
      · obtain rfl := Option.some.inj hheader
        rfl

theorem ExportedSignal.exists_pick {file : ParsedFile D}
    {root frameNode mappingNode pduNode placeNode : RawNode} {out : ExportFrame D}
    {signal : ExportSignal D}
    (h : ExportedSignal file root frameNode mappingNode pduNode placeNode out signal) :
    ∃ picked, pickModelSignal file (fileIndex file) signal.name = some picked ∧
      signal.name = (buildPduSignalMapping placeNode).signalShortNameRef ∧
      signal = makeSignal picked (buildPduSignalMapping placeNode)
        (buildFramePduMapping mappingNode) (buildFramePduMapping mappingNode).pduShortNameRef
        (fileIndex file) (frameParties file (buildFrame frameNode).1) := by
  cases h.gives with
  | exported _ hpick _ _ => exact ⟨_, hpick, rfl, rfl⟩

variable [LawfulDouble D]

theorem exportBitLength_literal {file : ParsedFile D} {root node : RawNode} {name text : String}
    {value : Nat} (hraw : file.rawDocument = some root) (hnode : iSignalOf root name = some node)
    (htext : ParseX.childText node "LENGTH" = some text)
    (hvalue : autosarValue text = some value) (hfit : value < 2 ^ 32) (signal : Signal D) :
    exportBitLength (fileIndex file) name signal = UInt32.ofNat value := by
  have hindex : (fileIndex file).iSignals[name]? = some node := by
    rw [fileIndex, hraw]
    exact (getElem?_iSignals root name).trans hnode
  have hmax : (maxUint32 : D) = Double.ofNat 4294967295 := rfl
  unfold exportBitLength
  rw [hindex]
  dsimp only
  rw [childText_getD, htext, Option.getD_some, parseDouble_literal hvalue (by omega)]
  dsimp only
  rw [hmax, LawfulDouble.le_ofNat _ _ (Or.inl (by norm_num)),
    LawfulDouble.le_ofNat _ _ (Or.inl (by omega)), LawfulDouble.toUInt32_ofNat _ hfit]
  simp
  omega

omit [LawfulDouble D] in
/-- The length of a frame, read through the model. -/
theorem length_true_iff {file : ParsedFile D} {root frameNode : RawNode} {out : ExportFrame D}
    {text : String} {value : Nat} (hframe : ExportedFrame file root frameNode out)
    (htext : frameLengthText frameNode = some text) (hvalue : autosarValue text = some value)
    (hfit : value < 2 ^ 32) : out.length.toNat = value ↔ PlainInteger text ∨
      ((∀ reading, decimalReading text = some reading → 2 ^ 32 ≤ reading) ∧
        (frameLengthFallback frameNode).toNat = value) := by
  obtain ⟨reading, hreading⟩ := decimalReading_isSome hvalue
  rw [exportedFrame_length hframe, buildFrame_length htext, parseUint32_literal hreading]
  exact readingOr_eq_iff hvalue hfit

/-- The length of a signal, read from its `I-SIGNAL` or through the model. -/
theorem bitLength_true_iff {file : ParsedFile D}
    {root frameNode mappingNode pduNode placeNode signalNode : RawNode} {out : ExportFrame D}
    {signal : ExportSignal D} {text : String} {value : Nat} (hraw : file.rawDocument = some root)
    (h : ExportedSignal file root frameNode mappingNode pduNode placeNode out signal)
    (htext : SignalLengthText file root signal.name signalNode text)
    (hvalue : autosarValue text = some value) (hfit : value < 2 ^ 32) :
    signal.bitLength.toNat = value ↔ (iSignalOf root signal.name = none → PlainInteger text) := by
  obtain ⟨picked, hpick, -, hsignal⟩ := h.exists_pick
  have hlength : signal.bitLength = exportBitLength (fileIndex file) signal.name picked := by
    rw [hsignal]
    rfl
  cases htext with
  | iSignal hnode htext =>
    rw [hlength, exportBitLength_literal hraw hnode htext hvalue hfit]
    simp [hnode]
    omega
  | systemSignal hnone _ hpick' hbit htext =>
    have hindex : (fileIndex file).iSignals[signal.name]? = none := by
      rw [fileIndex, hraw]
      exact (getElem?_iSignals root _).trans hnone
    obtain rfl := Option.some.inj (hpick.symm.trans hpick')
    obtain ⟨reading, hreading⟩ := decimalReading_isSome hvalue
    have hmodel : (buildSignal signalNode : Signal D × _).1.bitLength =
        (parseUint32 text).getD 0 := by
      change childUint32 signalNode "BIT-LENGTH" (childUint32 signalNode "LENGTH" 0) = _
      rw [childUint32, hbit]
      dsimp only
      rw [childUint32, htext]
    rw [hlength, exportBitLength, hindex]
    dsimp only
    rw [hmodel, parseUint32_literal hreading]
    have hread := @readingOr_eq_iff text value (0 : UInt32).toNat hvalue hfit
    rw [hread]
    constructor
    · rintro (hplain | ⟨-, rfl⟩) _
      · exact hplain
      · exact plainInteger_of_zero hvalue
    · exact fun hplain => Or.inl (hplain hnone)

omit [LawfulDouble D] in
theorem startBit_eq {file : ParsedFile D}
    {root frameNode mappingNode pduNode placeNode : RawNode} {out : ExportFrame D}
    {signal : ExportSignal D} {offset start : Nat}
    (h : ExportedSignal file root frameNode mappingNode pduNode placeNode out signal)
    (hoffset : autosarValue (startText mappingNode) = some offset)
    (hstart : autosarValue (startText placeNode) = some start) :
    signal.startBit.toNat =
      (readingOr (startText mappingNode) 0 + readingOr (startText placeNode) 0) % 2 ^ 32 := by
  obtain ⟨picked, -, -, hsignal⟩ := h.exists_pick
  have hsum : signal.startBit = childUint32 placeNode "START-POSITION" 0 +
      childUint32 mappingNode "START-POSITION" 0 := by
    rw [hsignal]
    rfl
  obtain ⟨r, hr⟩ := decimalReading_isSome hoffset
  obtain ⟨r', hr'⟩ := decimalReading_isSome hstart
  rw [hsum, startPosition_eq, startPosition_eq, UInt32.toNat_add, parseUint32_literal hr,
    parseUint32_literal hr', Nat.add_comm]
  rfl

/-- **The exported numbers are those of the document exactly when the model
misreads none of them.** -/
theorem exported_numbers_iff {path : String} {root : RawNode} {file : ParsedFile D}
    (h : parseDocument path root = .ok file) : TrueNumbers file root ↔ PlainNumbers file root := by
  obtain ⟨hraw, -⟩ := parseDocument_ok h
  constructor
  · intro ht
    refine ⟨fun frameNode out text value hframe htext hvalue hfit =>
      (length_true_iff hframe htext hvalue hfit).mp (ht.length _ _ _ _ hframe htext hvalue hfit),
      ?_, ?_⟩
    · intro frameNode mappingNode pduNode placeNode out signal signalNode text value hsignal htext
        hvalue hfit
      exact (bitLength_true_iff hraw hsignal htext hvalue hfit).mp
        (ht.bitLength _ _ _ _ _ _ _ _ _ hsignal htext hvalue hfit)
    · intro frameNode mappingNode pduNode placeNode out signal offset start hsignal hoffset hstart
      have htrue := ht.startBit _ _ _ _ _ _ _ _ hsignal hoffset hstart
      rw [startBit_eq hsignal hoffset hstart] at htrue
      split
      · rename_i hfit
        rw [if_pos hfit] at htrue
        exact Or.inr htrue
      · rename_i hover
        rw [if_neg hover] at htrue
        exact htrue
  · intro hp
    refine ⟨fun frameNode out text value hframe htext hvalue hfit =>
      (length_true_iff hframe htext hvalue hfit).mpr (hp.length _ _ _ _ hframe htext hvalue hfit),
      ?_, ?_⟩
    · intro frameNode mappingNode pduNode placeNode out signal signalNode text value hsignal htext
        hvalue hfit
      exact (bitLength_true_iff hraw hsignal htext hvalue hfit).mpr
        (hp.bitLength _ _ _ _ _ _ _ _ _ hsignal htext hvalue hfit)
    · intro frameNode mappingNode pduNode placeNode out signal offset start hsignal hoffset hstart
      have hplain := hp.startBit _ _ _ _ _ _ _ _ hsignal hoffset hstart
      rw [startBit_eq hsignal hoffset hstart]
      split
      · rename_i hfit
        rw [if_pos hfit] at hplain
        rcases hplain with ⟨ho, hs⟩ | hsame
        · have hro := (@readingOr_eq_iff _ _ 0 hoffset (by omega)).mpr (Or.inl ho)
          have hrs := (@readingOr_eq_iff _ _ 0 hstart (by omega)).mpr (Or.inl hs)
          rw [hro, hrs]
          exact Nat.mod_eq_of_lt hfit
        · exact hsame
      · rename_i hover
        rw [if_neg hover] at hplain
        exact hplain

end

/-- A document with the frame length "0b1000", which is exported as zero. -/
theorem binary_length_lost :
    let root := canDocument "0b1000" "0" "0" [] []
    parseDocument "can.arxml" root = .ok (fileOf root) ∧ ¬ TrueNumbers (fileOf root) root := by
  intro root
  have hparse : parseDocument "can.arxml" root = .ok (fileOf root) :=
    parseDocument_canDocument _ _ _ _ _
  refine ⟨hparse, fun htrue => ?_⟩
  have hlengths : (buildExportDatabase (fileOf root)).frames.map ExportFrame.length = [0] := by
    decide +kernel
  obtain ⟨out, hout, hzero⟩ := List.mem_map.mp (hlengths ▸ List.mem_singleton_self (0 : UInt32))
  obtain ⟨frameNode, hframe⟩ := (mem_exported_frames (parseDocument_ok hparse).2).mp hout
  have htexts : (nodesOfFamily root isFrameTag).map frameLengthText = [some "0b1000"] := by
    decide +kernel
  have htext : frameLengthText frameNode = some "0b1000" := by
    have := List.mem_map_of_mem (f := frameLengthText) hframe.mem
    rwa [htexts, List.mem_singleton] at this
  have hlength := htrue.length frameNode out "0b1000" 8 hframe htext (by decide +kernel)
    (by decide)
  rw [hzero] at hlength
  exact absurd hlength (by decide)

/-- A binary length of a signal is read from its node. -/
theorem exported_numbers_binary_signal :
    let root := canDocument "8" "0" "16" [] [{ tagName := "LENGTH", text := "0b11" }]
    TrueNumbers (fileOf root) root := by
  intro root
  have hplain : ∀ text ∈ ["8", "0", "16"], PlainInteger text := by
    simp only [plainInteger_iff]
    decide +kernel
  have hframes : ∀ frameNode ∈ nodesOfFamily root isFrameTag, frameLengthText frameNode = some "8" ∧
      ∀ mappingNode ∈ framePduNodes frameNode, startText mappingNode = "0" := by
    decide +kernel
  have hpdus : ∀ pduNode ∈ nodesOfFamily root isPduTag, ∀ placeNode ∈ signalMappingNodes pduNode,
      startText placeNode = "16" ∧
        (buildPduSignalMapping placeNode).signalShortNameRef = "Speed" := by
    decide +kernel
  have hsignal : iSignalOf root "Speed" ≠ none := by decide +kernel
  refine (exported_numbers_iff (parseDocument_canDocument "8" "0" "16" [] _)).mpr ⟨?_, ?_, ?_⟩
  · intro frameNode out text value hframe htext _ _
    obtain rfl := Option.some.inj ((hframes frameNode hframe.mem).1.symm.trans htext)
    exact Or.inl (hplain "8" (by simp))
  · intro frameNode mappingNode pduNode placeNode out signal signalNode text value hsource _ _ _ hnone
    obtain ⟨-, -, hname, -⟩ := hsource.exists_pick
    rw [hname, (hpdus pduNode (List.mem_of_find?_eq_some hsource.pdu) placeNode hsource.place_mem).2]
      at hnone
    exact absurd hnone hsignal
  · intro frameNode mappingNode pduNode placeNode out signal offset start hsource hoffset hstart
    have hmapping := (hframes frameNode hsource.frame.mem).2 mappingNode hsource.mapping_mem
    have hplace := (hpdus pduNode (List.mem_of_find?_eq_some hsource.pdu) placeNode
      hsource.place_mem).1
    rw [hmapping] at hoffset ⊢
    rw [hplace] at hstart ⊢
    have hzero : autosarValue "0" = some 0 := by decide +kernel
    have hsixteen : autosarValue "16" = some 16 := by decide +kernel
    obtain rfl := Option.some.inj (hzero.symm.trans hoffset)
    obtain rfl := Option.some.inj (hsixteen.symm.trans hstart)
    rw [if_pos (by decide)]
    exact Or.inl ⟨hplain "0" (by simp), hplain "16" (by simp)⟩

end ParseX.CanDb

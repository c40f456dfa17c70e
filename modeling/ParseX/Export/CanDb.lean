import ParseX.Parser.Parser

/-! # The export database

`can_db.cpp`: the index over the raw tree, the literals, scalings and parties,
and the frames and signals built from a parsed file. Its searches and readers
are its own copies, under the same names as those of the model builder. -/
namespace ParseX.CanDb
open Cpp

/-! ## Reading nodes -/

/-- Trimmed text of a direct child, empty without one. -/
def childText (node : RawNode) (tag : String) : String :=
  match findChild node tag with
  | none => ""
  | some child => trimText child.text

mutual

/-- The first descendant with the tag, depth first. -/
def findDescendant (node : RawNode) (tag : String) : Option RawNode :=
  match node with
  | ⟨_, _, _, _, children⟩ => findDescendantOf children tag

def findDescendantOf (children : List RawNode) (tag : String) : Option RawNode :=
  match children with
  | [] => none
  | child :: rest =>
    if child.tagName == tag then some child
    else match findDescendant child tag with
      | some deeper => some deeper
      | none => findDescendantOf rest tag

end

def nameOf (node : RawNode) : String := childText node "SHORT-NAME"

def refNames (node : RawNode) (tag : String) : List String :=
  (findDescendants node tag).map fun ref => shortNameOfRef ref.text

/-! ## Literals -/

section
variable {D : Type} [Double D]

/-- `parseUnsigned`: the whole text must be a number in the base. -/
def parseUnsigned (digits : String) (base : Nat) : Option D :=
  match stoull digits base with
  | some (value, consumed) => if consumed = digits.length then some (Double.ofNat value) else none
  | none => none

def isOctalDigit (c : Char) : Bool := '0' ≤ c && c ≤ '7'

/-- `parseDouble`: binary, hexadecimal and octal integers, else `stod`. -/
def parseDouble (raw : String) : Option D :=
  let text := (trimText raw).toList
  let binary := 2 < text.length && (text.take 2 == ['0', 'b'] || text.take 2 == ['0', 'B'])
  let hex := 2 < text.length && (text.take 2 == ['0', 'x'] || text.take 2 == ['0', 'X'])
  let octal := 1 < text.length && text.all isOctalDigit && text.head? == some '0'
  if text.isEmpty then none
  else if binary || hex then
    parseUnsigned (String.ofList (text.drop 2)) (if binary then 2 else 16)
  else if octal then parseUnsigned (String.ofList (text.drop 1)) 8
  else
    match Double.stod (trimText raw) with
    | some (value, consumed) => if consumed = text.length then some value else none
    | none => none

/-- The largest value of `std::uint32_t`, as a `double`. -/
def maxUint32 : D := Double.ofNat 4294967295

def parseId (raw : String) : Option UInt32 :=
  match (parseDouble raw : Option D) with
  | none => none
  | some value =>
    if Double.lt value (Double.ofNat 0) || Double.lt maxUint32 value ||
      !Double.same value (Double.ofNat (Double.toUInt32 value).toNat) then none
    else some (Double.toUInt32 value)

def asInteger (value : D) : Option Int64 :=
  let whole := Double.toInt64 value
  if Double.same (Double.ofInt whole.toInt) value then some whole else none

end

def addUnique (list : List String) (name : String) : List String :=
  if name ≠ "" ∧ name ∉ list then list ++ [name] else list

/-! ## The index -/

structure FramePort where
  out : Bool := false
  ecu : String := ""

structure Group where
  out : Bool := false
  pdus : List String := []

structure Index where
  triggerings : StdMap RawNode := ∅
  iSignals : StdMap RawNode := ∅
  systemSignals : StdMap RawNode := ∅
  compuMethods : StdMap RawNode := ∅
  units : StdMap String := ∅
  groupsByPath : StdMap Group := ∅
  framePorts : StdMap FramePort := ∅
  ecuGroupRefs : List (String × List String) := []
  /-- Under PDU, line feed and signal: the packing is most significant byte first. -/
  bigEndian : StdMap Bool := ∅

/-- The key of a mapping in `bigEndian`. -/
def packingKey (pduName signalName : String) : String := pduName ++ "\n" ++ signalName

/-- What the mappings of an `I-SIGNAL-I-PDU` add to `bigEndian`. -/
def packingEntries (node : RawNode) : List (String × Bool) :=
  (findDescendants node "I-SIGNAL-TO-I-PDU-MAPPING").map fun mapping =>
    (packingKey (nameOf node) (shortNameOfRef (childText mapping "I-SIGNAL-REF")),
      childText mapping "PACKING-BYTE-ORDER" == "MOST-SIGNIFICANT-BYTE-FIRST")

/-- `try_emplace` for each pair. -/
def emplaceAll {V : Type} (map : StdMap V) (entries : List (String × V)) : StdMap V :=
  entries.foldl (fun m entry => m.insertIfNew entry.1 entry.2) map

/-- The part of `buildIndex` about the node itself. -/
def indexNode (node : RawNode) (pkgPath ecu : String) (index : Index) : Index :=
  let tag := node.tagName
  if tag == "AR-PACKAGE" then index
  else if tag == "CAN-FRAME-TRIGGERING" then
    { index with
      triggerings := emplaceAll index.triggerings
        [(shortNameOfRef (childText node "FRAME-REF"), node)] }
  else if tag == "I-SIGNAL" then
    { index with
      iSignals := emplaceAll index.iSignals [(nameOf node, node)] }
  else if tag == "SYSTEM-SIGNAL" then
    { index with
      systemSignals := emplaceAll index.systemSignals [(nameOf node, node)] }
  else if tag == "COMPU-METHOD" then
    { index with
      compuMethods := emplaceAll index.compuMethods [(nameOf node, node)] }
  else if tag == "UNIT" then
    { index with
      units := emplaceAll index.units [(nameOf node, childText node "DISPLAY-NAME")] }
  else if tag == "I-SIGNAL-I-PDU" then
    { index with
      bigEndian := emplaceAll index.bigEndian (packingEntries node) }
  else if tag == "I-SIGNAL-I-PDU-GROUP" then
    { index with
      groupsByPath := emplaceAll index.groupsByPath [(pkgPath ++ "/" ++ nameOf node,
        ⟨childText node "COMMUNICATION-DIRECTION" == "OUT", refNames node "I-SIGNAL-I-PDU-REF"⟩)] }
  else if tag == "ECU-INSTANCE" then
    { index with
      ecuGroupRefs := index.ecuGroupRefs ++ [(nameOf node,
        (findDescendants node "ASSOCIATED-COM-I-PDU-GROUP-REF").map fun ref => trimText ref.text)] }
  else if tag == "FRAME-PORT" then
    { index with
      framePorts := emplaceAll index.framePorts
        [(nameOf node, ⟨childText node "COMMUNICATION-DIRECTION" == "OUT", ecu⟩)] }
  else index

/-- The package path below a node. -/
def childPkg (node : RawNode) (pkgPath : String) : String :=
  if node.tagName == "AR-PACKAGE" then pkgPath ++ "/" ++ nameOf node else pkgPath

/-- The ECU below a node. -/
def childEcu (node : RawNode) (ecu : String) : String :=
  if node.tagName == "ECU-INSTANCE" then nameOf node else ecu

mutual

def buildIndex (node : RawNode) (pkgPath ecu : String) (index : Index) : Index :=
  match node with
  | ⟨tagName, attributes, text, span, children⟩ =>
    let node : RawNode := ⟨tagName, attributes, text, span, children⟩
    buildIndexOf children (childPkg node pkgPath) (childEcu node ecu)
      (indexNode node pkgPath ecu index)

def buildIndexOf (children : List RawNode) (pkgPath ecu : String) (index : Index) : Index :=
  match children with
  | [] => index
  | child :: rest => buildIndexOf rest pkgPath ecu (buildIndex child pkgPath ecu index)

end

/-! ## Scaling -/

section
variable {D : Type} [Double D]

variable (D) in
structure Scaling where
  factor : D := Double.ofNat 1
  offset : D := Double.ofNat 0
  min : Option D := none
  max : Option D := none
  unit : String := ""
  valueTable : List ValueTableEntry := []

def childNodes (parent : Option RawNode) : List RawNode :=
  match parent with
  | none => []
  | some node => node.children

/-- `applyLimits`: the limits of a linear scale in physical units. -/
def applyLimits (scale : RawNode) (out : Scaling D) : Scaling D :=
  match parseDouble (childText scale "LOWER-LIMIT"), parseDouble (childText scale "UPPER-LIMIT") with
  | some lower, some upper =>
    let low := Double.add (Double.mul lower out.factor) out.offset
    let high := Double.add (Double.mul upper out.factor) out.offset
    if Double.lt out.factor (Double.ofNat 0) then { out with min := some high, max := some low }
    else { out with min := some low, max := some high }
  | _, _ => out

/-- `applyLinearScale`; `none` where it returns false. -/
def applyLinearScale (scale coeffs : RawNode) (out : Scaling D) : Option (Scaling D) :=
  let denominators := childNodes (findChild coeffs "COMPU-DENOMINATOR")
  let divisor : Option D := match denominators with
    | [] => some (Double.ofNat 1)
    | first :: _ => parseDouble first.text
  match childNodes (findChild coeffs "COMPU-NUMERATOR"), divisor with
  | [first, second], some divisor =>
    if Double.same divisor (Double.ofNat 0) then none
    else match parseDouble first.text, parseDouble second.text with
      | some constant, some slope =>
        some (applyLimits scale { out with
          offset := Double.div constant divisor
          factor := Double.div slope divisor })
      | _, _ => none
  | _, _ => none

/-- `addTextTableEntry`: a scale of one value with a label. -/
def addTextTableEntry (scale : RawNode) (out : Scaling D) : Scaling D :=
  let label := (findChild scale "COMPU-CONST").bind fun constant => findChild constant "VT"
  match label, (parseDouble (childText scale "LOWER-LIMIT") : Option D),
    (parseDouble (childText scale "UPPER-LIMIT") : Option D) with
  | some label, some lower, some upper =>
    if !Double.same lower upper then out
    else match asInteger lower with
      | some value => { out with valueTable := out.valueTable ++ [⟨value, trimText label.text⟩] }
      | none => out
  | _, _, _ => out

/-- One scale of `applyCompuMethod`, after whether a linear one came before. -/
def applyScale (state : Bool × Scaling D) (scale : RawNode) : Bool × Scaling D :=
  match findChild scale "COMPU-RATIONAL-COEFFS" with
  | some coeffs =>
    if state.1 then (true, addTextTableEntry scale state.2)
    else match applyLinearScale scale coeffs state.2 with
      | some out => (true, out)
      | none => state
  | none => (state.1, addTextTableEntry scale state.2)

def applyCompuMethod (method : RawNode) (out : Scaling D) : Scaling D :=
  ((findDescendants method "COMPU-SCALE").foldl applyScale (false, out)).2

def unitName (index : Index) (holder : Option RawNode) : String :=
  match holder.bind fun node => findDescendant node "UNIT-REF" with
  | none => ""
  | some ref =>
    match index.units[shortNameOfRef ref.text]? with
    | none => ""
    | some unit => if unit = "NoUnit" then "" else unit

/-- `resolveScaling`; `none` where the chain reaches no `SYSTEM-SIGNAL`. -/
def resolveScaling (index : Index) (signalName : String) : Option (Scaling D) := do
  let signalNode ← index.iSignals[signalName]?
  let ref ← findChild signalNode "SYSTEM-SIGNAL-REF"
  let system ← index.systemSignals[shortNameOfRef ref.text]?
  let method := (findDescendant system "COMPU-METHOD-REF").bind fun compuRef =>
    index.compuMethods[shortNameOfRef compuRef.text]?
  let out : Scaling D := match method with
    | some method => applyCompuMethod method {}
    | none => {}
  let unit := unitName index (some system)
  some { out with unit := if unit = "" then unitName index method else unit }

end

/-! ## Parties -/

structure FrameParties where
  transmitters : List String := []
  receivers : List String := []

abbrev PartyMap := StdMap FrameParties

/-- One more transmitter or receiver of a frame. -/
def addParty (parties : PartyMap) (frame : String) (out : Bool) (ecu : String) : PartyMap :=
  let entry := parties[frame]?.getD {}
  parties.insert frame
    (if out then { entry with transmitters := addUnique entry.transmitters ecu }
    else { entry with receivers := addUnique entry.receivers ecu })

section
variable {D : Type} [Double D]

def addPortParties (file : ParsedFile D) (index : Index) (parties : PartyMap) : PartyMap :=
  file.frames.foldl (fun parties frame =>
    match index.triggerings[frame.common.shortName]? with
    | none => parties
    | some trig => (refNames trig "FRAME-PORT-REF").foldl (fun parties portName =>
        match index.framePorts[portName]? with
        | none => parties
        | some port => addParty parties frame.common.shortName port.out port.ecu) parties) parties

/-- The frames that map a PDU, once for each mapping. -/
def framesByPdu (file : ParsedFile D) (pdu : String) : List Frame :=
  file.frames.flatMap fun frame =>
    (frame.pdus.filter fun mapping => mapping.pduShortNameRef = pdu).map fun _ => frame

def addGroupParties (file : ParsedFile D) (index : Index) (parties : PartyMap) : PartyMap :=
  index.ecuGroupRefs.foldl (fun parties (ecu, refs) =>
    refs.foldl (fun parties path =>
      match index.groupsByPath[path]? with
      | none => parties
      | some group => (group.pdus.flatMap (framesByPdu file)).foldl (fun parties frame =>
          addParty parties frame.common.shortName group.out ecu) parties) parties) parties

def resolveParties (file : ParsedFile D) (index : Index) : PartyMap :=
  addGroupParties file index (addPortParties file index ∅)

/-! ## Frames and signals -/

variable (D) in
structure ExportSignal where
  name : String
  startBit : UInt32 := 0
  bitLength : UInt32 := 0
  byteOrder : ByteOrder := .leastSignificantByteFirst
  isSigned : Bool := false
  factor : D := Double.ofNat 1
  offset : D := Double.ofNat 0
  min : Option D := none
  max : Option D := none
  unit : String := ""
  initValue : Option D := none
  receivers : List String := []
  valueTable : List ValueTableEntry := []
  deriving DecidableEq, Repr

variable (D) in
structure ExportFrame where
  name : String
  id : UInt32 := 0
  extended : Bool := false
  canFd : Bool := false
  length : UInt32 := 0
  transmitters : List String := []
  signals : List (ExportSignal D) := []
  deriving DecidableEq, Repr

variable (D) in
structure ExportDatabase where
  busName : String := ""
  baudrate : Option UInt32 := none
  nodes : List String := []
  frames : List (ExportFrame D) := []
  warnings : List Warning := []
  deriving DecidableEq, Repr

/-- The loop of `pickModelSignal`: the signal with the span of the I-SIGNAL at
once, else the first, replaced once by one with a length. -/
def pickLoop (span : Option RawSpan) : Option (Signal D) → List (Signal D) → Option (Signal D)
  | best, [] => best
  | best, signal :: rest =>
    if span = some signal.common.rawSpanRef then some signal
    else match best with
      | none => pickLoop span (some signal) rest
      | some held =>
        pickLoop span (if held.bitLength = 0 ∧ signal.bitLength ≠ 0 then some signal else best) rest

/-- `pickModelSignal` among the file's signals of the name. -/
def pickModelSignal (file : ParsedFile D) (index : Index) (name : String) : Option (Signal D) :=
  pickLoop (index.iSignals[name]?.map RawNode.span) none
    (file.signals.filter fun signal => signal.common.shortName = name)

/-- `makeFrameHeader`. -/
def makeFrameHeader (frame : Frame) (index : Index) (who : FrameParties) : Option (ExportFrame D) :=
  match index.triggerings[frame.common.shortName]? with
  | none => none
  | some node =>
    match @parseId D _ (childText node "IDENTIFIER") with
    | none => none
    | some frameId => some
      { name := frame.common.shortName
        id := frameId
        extended := childText node "CAN-ADDRESSING-MODE" == "EXTENDED"
        canFd := childText node "CAN-FRAME-TX-BEHAVIOR" == "CAN-FD" ||
          childText node "CAN-FRAME-RX-BEHAVIOR" == "CAN-FD"
        length := frame.length
        transmitters := if who.transmitters.isEmpty then frame.transmitters else who.transmitters }

/-- The byte order the exporter uses for a mapping. -/
def exportByteOrder (index : Index) (pduName : String) (place : PduSignalMapping) : ByteOrder :=
  match index.bigEndian[packingKey pduName place.signalShortNameRef]? with
  | some true => .mostSignificantByteFirst
  | some false => .leastSignificantByteFirst
  | none => place.byteOrder

/-- The bit length the exporter uses for a signal. -/
def exportBitLength (index : Index) (name : String) (signal : Signal D) : UInt32 :=
  match index.iSignals[name]? with
  | none => signal.bitLength
  | some raw =>
    match (parseDouble (childText raw "LENGTH") : Option D) with
    | none => signal.bitLength
    | some length =>
      if Double.le (Double.ofNat 0) length && Double.le length maxUint32 then
        Double.toUInt32 length
      else signal.bitLength

/-- The initial value the exporter uses for a signal. -/
def exportInitValue (index : Index) (name : String) (signal : Signal D) : Option D :=
  match index.iSignals[name]? with
  | none => signal.initValue
  | some raw =>
    match (findChild raw "INIT-VALUE").bind fun init => findDescendant init "VALUE" with
    | none => signal.initValue
    | some value => parseDouble value.text

/-- `applyScaling`: the factor, offset, limits, unit and value table. -/
def exportScaling (index : Index) (name : String) (signal : Signal D) : Scaling D :=
  (resolveScaling index name).getD
    { factor := signal.factor
      offset := signal.offset
      min := signal.min
      max := signal.max
      unit := signal.unit.getD ""
      valueTable := signal.valueTable.getD [] }

/-- `makeSignal`. -/
def makeSignal (signal : Signal D) (place : PduSignalMapping) (mapping : FramePduMapping)
    (pduName : String) (index : Index) (who : FrameParties) : ExportSignal D :=
  let name := place.signalShortNameRef
  let scaling := exportScaling index name signal
  { name := name
    startBit := place.startPosition + mapping.startPosition
    byteOrder := exportByteOrder index pduName place
    bitLength := exportBitLength index name signal
    isSigned := signal.isSigned
    initValue := exportInitValue index name signal
    factor := scaling.factor
    offset := scaling.offset
    min := scaling.min
    max := scaling.max
    unit := scaling.unit
    valueTable := scaling.valueTable
    receivers := if who.receivers.isEmpty then signal.receivers else who.receivers }

/-- The frame under construction and the warnings so far. -/
abbrev FrameState (D : Type) [Double D] := ExportFrame D × List Warning

/-- The file's PDUs by short name, the first of a name. -/
def pduTable (file : ParsedFile D) : StdMap Pdu :=
  ofFirst (file.pdus.map fun pdu => (pdu.common.shortName, pdu))

def undefinedSignalWarning (frameName signalName : String) : Warning :=
  ⟨"Frame '" ++ frameName ++ "': signal '" ++ signalName ++ "' is not defined, skipped", none⟩

def unresolvedPduWarning (frameName pduName : String) : Warning :=
  ⟨"Frame '" ++ frameName ++ "': PDU '" ++ pduName ++
    "' is not exported (multiplexed, container, secured or unknown PDU)", none⟩

def skippedFrameWarning (frameName : String) : Warning :=
  ⟨"Frame '" ++ frameName ++ "' skipped: no CAN-FRAME-TRIGGERING with an IDENTIFIER", none⟩

/-- One turn of the loop of `appendPduSignals`. An empty reference is the
mapping of a signal group. -/
def appendPlace (file : ParsedFile D) (index : Index) (frameName : String)
    (who : FrameParties) (mapping : FramePduMapping) (state : FrameState D)
    (place : PduSignalMapping) : FrameState D :=
  if place.signalShortNameRef = "" then state
  else match pickModelSignal file index place.signalShortNameRef with
    | none => (state.1, state.2 ++ [undefinedSignalWarning frameName place.signalShortNameRef])
    | some signal =>
      ({ state.1 with
          signals := state.1.signals ++
            [makeSignal signal place mapping mapping.pduShortNameRef index who] }, state.2)

def appendPduSignals (file : ParsedFile D) (index : Index) (frameName : String)
    (who : FrameParties) (state : FrameState D) (mapping : FramePduMapping) : FrameState D :=
  match (pduTable file)[mapping.pduShortNameRef]? with
  | none => (state.1, state.2 ++ [unresolvedPduWarning frameName mapping.pduShortNameRef])
  | some pdu => pdu.signalMappings.foldl (appendPlace file index frameName who mapping) state

/-- The index of a file's raw document. -/
def fileIndex (file : ParsedFile D) : Index :=
  match file.rawDocument with
  | none => {}
  | some root => buildIndex root "" "" {}

/-- One turn of the loop over the frames. -/
def appendFrame (file : ParsedFile D) (index : Index) (parties : PartyMap)
    (database : ExportDatabase D) (frame : Frame) : ExportDatabase D :=
  let frameName := frame.common.shortName
  let who := parties[frameName]?.getD {}
  match (makeFrameHeader frame index who : Option (ExportFrame D)) with
  | none =>
    { database with
      warnings := database.warnings ++ [skippedFrameWarning frameName] }
  | some header =>
    let (out, warnings) := frame.pdus.foldl (appendPduSignals file index frameName who)
      (header, database.warnings)
    { database with
      frames := database.frames ++ [out]
      warnings := warnings }

def buildExportDatabase (file : ParsedFile D) : ExportDatabase D :=
  let index := fileIndex file
  file.frames.foldl (appendFrame file index (resolveParties file index))
    { busName := (file.clusters.head?.map fun cluster => cluster.common.shortName).getD ""
      baudrate := file.clusters.head?.bind Cluster.baudrate
      nodes := file.ecuInstances.map fun ecu => ecu.common.shortName }

end

end ParseX.CanDb

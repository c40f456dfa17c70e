import ParseX.Model.Domain

/-! # Domain elements from raw nodes

The readers of `model_builder.cpp`: literals, references, and one builder for
each element type. A builder returns the element and the warnings it appends.
A negation that leaves `int64_t` wraps here. -/
namespace ParseX
open Cpp

/-! ## Literals -/

def asciiUpperChar (letter : Char) : Char :=
  if 'a' ≤ letter ∧ letter ≤ 'z' then Char.ofNat (letter.toNat - 32) else letter

/-- `asciiUpperCopy`. -/
def asciiUpperCopy (text : String) : String := String.ofList (text.toList.map asciiUpperChar)

/-- A leading `+` or `-`. -/
def isSign (letter : Char) : Bool := letter == '+' || letter == '-'

/-- The characters after an optional sign. -/
def dropSign (text : List Char) : List Char :=
  match text with
  | [] => []
  | letter :: rest => if isSign letter then rest else text

/-- `isHexPrefixed` of a non-empty text. -/
def isHexPrefixed (text : List Char) : Bool :=
  (dropSign text).take 2 == ['0', 'x'] || (dropSign text).take 2 == ['0', 'X']

/-- `parseInteger`: hexadecimal magnitudes go through `stoull`, all other texts
through `stoll`, which reads a sign of its own and ignores what follows the
digits. -/
def parseInteger (raw : String) : Option Int64 :=
  let text := (trimText raw).toList
  let negative := text.head? == some '-'
  if text.isEmpty then none
  else if isHexPrefixed text then
    match stoull (String.ofList ((dropSign text).drop 2)) 16 with
    | none => none
    | some (magnitude, _) =>
      if negative then some (-(Int64.ofNat magnitude))
      else if 2 ^ 63 ≤ magnitude then none
      else some (Int64.ofNat magnitude)
  else
    match stoll (String.ofList (dropSign text)) with
    | none => none
    | some (signedValue, _) =>
      if negative then some (-(Int64.ofInt signedValue))
      else if signedValue < 0 then none
      else some (Int64.ofInt signedValue)

def parseUint32 (raw : String) : Option UInt32 :=
  match parseInteger raw with
  | none => none
  | some value =>
    if value < 0 ∨ 4294967295 < value then none else some (UInt32.ofNat value.toInt.toNat)

def parseDouble {D : Type} [Double D] (raw : String) : Option D :=
  let text := trimText raw
  if text.toList.isEmpty then none
  else if isHexPrefixed text.toList then
    (parseInteger text).map fun asInt => Double.ofInt asInt.toInt
  else
    match Double.stod text with
    | none => none
    | some (value, used) => if used = text.length then some value else none

def parseByteOrder (raw : String) : ByteOrder :=
  if asciiUpperCopy (trimText raw) = "LEAST-SIGNIFICANT-BYTE-FIRST" then
    .leastSignificantByteFirst
  else .mostSignificantByteFirst

/-- `isSignedBaseType`: the short name looks like `SINT8` or `S16`. -/
def isSignedBaseType (baseTypeRef : String) : Bool :=
  match (asciiUpperCopy (shortNameOfRef baseTypeRef)).toList with
  | 'S' :: 'I' :: 'N' :: 'T' :: _ => true
  | 'S' :: digit :: _ => '0' ≤ digit && digit ≤ '9'
  | _ => false

/-! ## Shared readers -/

def extractShortName (node : RawNode) : String := (childText node "SHORT-NAME").getD ""

/-- `populateCommonFields`. -/
def populateCommonFields (node : RawNode) : CommonFields × List Warning :=
  (⟨extractShortName node, childText node "CATEGORY", node.span⟩,
    if extractShortName node = "" then
      [⟨"<" ++ node.tagName ++ "> element has no SHORT-NAME", some node.span⟩]
    else [])

/-- `warnMissing` under a condition. -/
def warnMissing (missing : Bool) (message : String) (span : RawSpan) : List Warning :=
  if missing then [⟨message, some span⟩] else []

/-- The short names of every descendant with the reference tag. -/
def refShortNames (node : RawNode) (refTag : String) : List String :=
  ((findDescendants node refTag).map fun ref => shortNameOfRef ref.text).filter (· ≠ "")

/-- The direct short names of the nodes, blank ones left out. -/
def directShortNames (nodes : List RawNode) : List String :=
  (nodes.filterMap fun node => childText node "SHORT-NAME").filter (· ≠ "")

def channelShortNames (node : RawNode) : List String :=
  directShortNames (findDescendants node "PHYSICAL-CHANNEL") ++
    directShortNames (findDescendants node "CAN-PHYSICAL-CHANNEL")

def controllerShortNames (node : RawNode) : List String :=
  directShortNames (findDescendants node "CAN-CONTROLLER") ++
    directShortNames (findDescendants node "CAN-COMMUNICATION-CONTROLLER")

def childUint32 (node : RawNode) (tag : String) (fallback : UInt32) : UInt32 :=
  match childText node tag with
  | none => fallback
  | some text => (parseUint32 text).getD fallback

/-! ## Builders -/

/-- The text `buildCluster` reads the baudrate from: a direct child, else the
first descendant. -/
def baudrateText (node : RawNode) : Option String :=
  match childText node "BAUDRATE" with
  | some text => some text
  | none => (findDescendant node "BAUDRATE").map fun found => trimText found.text

def buildCluster (node : RawNode) : Cluster × List Warning :=
  let common := populateCommonFields node
  ({ common := common.1
     baudrate := (baudrateText node).bind parseUint32
     physicalChannels := channelShortNames node },
   common.2 ++ warnMissing (baudrateText node).isNone
     ("Cluster '" ++ common.1.shortName ++ "' has no baudrate") node.span)

def buildEcuInstance (node : RawNode) : EcuInstance × List Warning :=
  let common := populateCommonFields node
  let connectedChannels := refShortNames node "CHANNEL-REF"
  let controllers := controllerShortNames node
  ({ common := common.1
     connectedChannels := connectedChannels
     controllers := controllers },
   common.2 ++ warnMissing (controllers.isEmpty && connectedChannels.isEmpty)
     ("EcuInstance '" ++ common.1.shortName ++ "' has no controllers and no connected channels")
     node.span)

/-- One `PDU-TO-FRAME-MAPPING`. -/
def buildFramePduMapping (mapping : RawNode) : FramePduMapping where
  pduShortNameRef := ((childText mapping "PDU-REF").map shortNameOfRef).getD ""
  startPosition := childUint32 mapping "START-POSITION" 0

def buildFrame (node : RawNode) : Frame × List Warning :=
  let common := populateCommonFields node
  let hasLength := (findChild node "LENGTH").isSome || (findChild node "FRAME-LENGTH").isSome
  let pdus := (findDescendants node "FRAME-PDU" ++
    findDescendants node "PDU-TO-FRAME-MAPPING").map buildFramePduMapping
  ({ common := common.1
     length := childUint32 node "LENGTH" (childUint32 node "FRAME-LENGTH" 0)
     transmitters := refShortNames node "TRANSMITTER-REF"
     pdus := pdus },
   common.2 ++ warnMissing (!hasLength)
     ("Frame '" ++ common.1.shortName ++ "' has no length") node.span ++
     warnMissing pdus.isEmpty ("Frame '" ++ common.1.shortName ++ "' has no PDU mappings")
       node.span)

/-- One `I-SIGNAL-TO-I-PDU-MAPPING`. -/
def buildPduSignalMapping (mapping : RawNode) : PduSignalMapping where
  signalShortNameRef := (((childText mapping "SIGNAL-REF").orElse fun _ =>
    childText mapping "I-SIGNAL-REF").map shortNameOfRef).getD ""
  startPosition := childUint32 mapping "START-POSITION" 0
  byteOrder := (((childText mapping "BYTE-ORDER").orElse fun _ =>
    childText mapping "PACKING-BYTE-ORDER").map parseByteOrder).getD .mostSignificantByteFirst

/-- The signal mappings below a PDU node. -/
def signalMappingNodes (node : RawNode) : List RawNode :=
  findDescendants node "PDU-SIGNAL-MAPPING" ++ findDescendants node "I-SIGNAL-TO-I-PDU-MAPPING"

def buildPdu (node : RawNode) : Pdu × List Warning :=
  let common := populateCommonFields node
  let signalMappings := (signalMappingNodes node).map buildPduSignalMapping
  ({ common := common.1
     length := childUint32 node "LENGTH" 0
     signalMappings := signalMappings },
   common.2 ++ warnMissing (findChild node "LENGTH").isNone
     ("Pdu '" ++ common.1.shortName ++ "' has no length") node.span ++
     warnMissing signalMappings.isEmpty ("Pdu '" ++ common.1.shortName ++ "' maps no signals")
       node.span)

/-- One `VALUE-TABLE-ENTRY`. -/
def buildValueTableEntry (child : RawNode) : ValueTableEntry where
  value := ((childText child "VALUE").bind parseInteger).getD 0
  label := (childText child "LABEL").getD ""

section
variable {D : Type} [Double D]

def buildSignal (node : RawNode) : Signal D × List Warning :=
  let common := populateCommonFields node
  ({ common := common.1
     startBit := childUint32 node "START-BIT" 0
     bitLength := childUint32 node "BIT-LENGTH" (childUint32 node "LENGTH" 0)
     byteOrder := ((childText node "BYTE-ORDER").map parseByteOrder).getD
       .mostSignificantByteFirst
     isSigned := ((findDescendant node "BASE-TYPE-REF").map fun ref =>
       isSignedBaseType ref.text).getD false
     initValue := (findChild node "INIT-VALUE").bind fun initValue =>
       (findDescendant initValue "VALUE").bind fun value => parseDouble value.text
     receivers := refShortNames node "RECEIVER-REF"
     valueTable := (findChild node "VALUE-TABLE").map fun valueTable =>
       (valueTable.children.filter fun child => child.tagName == "VALUE-TABLE-ENTRY").map
         buildValueTableEntry },
   common.2 ++ warnMissing (node.tagName == "I-SIGNAL" && (findChild node "LENGTH").isNone)
     ("Signal '" ++ common.1.shortName ++ "' has no bit length") node.span)

end

def buildSignalGroup (node : RawNode) : SignalGroup × List Warning :=
  let common := populateCommonFields node
  let members := refShortNames node "I-SIGNAL-REF" ++ refShortNames node "SYSTEM-SIGNAL-REF"
  ({ common := common.1
     members := members },
   common.2 ++ warnMissing members.isEmpty
     ("SignalGroup '" ++ common.1.shortName ++ "' has no members") node.span)

/-! ## What the readers return -/

theorem isTrimmed_childText {node : RawNode} {tag text : String}
    (h : childText node tag = some text) : IsTrimmed text := by
  obtain ⟨child, -, rfl⟩ := Option.map_eq_some_iff.mp h
  exact isTrimmed_trimText child.text

theorem isTrimmed_extractShortName (node : RawNode) : IsTrimmed (extractShortName node) := by
  unfold extractShortName
  cases h : childText node "SHORT-NAME" with
  | none => exact isTrimmed_empty
  | some text => exact isTrimmed_childText h

theorem directShortNames_spec {nodes : List RawNode} {name : String}
    (h : name ∈ directShortNames nodes) : IsTrimmed name ∧ name ≠ "" := by
  obtain ⟨hmem, hne⟩ := List.mem_filter.mp h
  obtain ⟨node, -, hnode⟩ := List.mem_filterMap.mp hmem
  exact ⟨isTrimmed_childText hnode, by simpa using hne⟩

theorem refShortNames_spec {node : RawNode} {refTag name : String}
    (h : name ∈ refShortNames node refTag) : IsRefName name ∧ name ≠ "" := by
  obtain ⟨hmem, hne⟩ := List.mem_filter.mp h
  obtain ⟨ref, -, rfl⟩ := List.mem_map.mp hmem
  exact ⟨isRefName_shortNameOfRef ref.text, by simpa using hne⟩

end ParseX

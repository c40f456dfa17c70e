import ParseX.Base.ClaimArray
import ParseX.Validator.ValidationResult

/-! # CAN checks

Payload lengths and the bit-occupancy check of one PDU. `int` arithmetic that
overflows is undefined behaviour, here `none`. -/
namespace ParseX
open Cpp

/-- `static_cast<int>` of an unsigned 32-bit value. -/
def castInt (v : UInt32) : Int := v.toBitVec.toInt

/-- The result of an `int` operation, if it fits. -/
def intResult (v : Int) : Option Int :=
  if -2147483648 ≤ v ∧ v ≤ 2147483647 then some v else none

/-- The lengths `isValidCanFdLength` lists. -/
def canFdLengths : List UInt32 := [0, 1, 2, 3, 4, 5, 6, 7, 8, 12, 16, 20, 24, 32, 48, 64]

def isValidClassicCanLength (length : UInt32) : Bool := length ≤ 8

def isValidCanFdLength (length : UInt32) : Bool := canFdLengths.contains length

/-- `physicalBitsForIntelSignal`. -/
def physicalBitsForIntelSignal (startBit bitLength : Int) : Option (List Int) :=
  if startBit < 0 ∨ bitLength ≤ 0 then some []
  else (List.range bitLength.toNat).mapM fun (idx : Nat) => intResult (startBit + idx)

/-- The loop of `physicalBitsForMotorolaSignal`: the position moves on after
every bit, the last one included. -/
def motorolaLoop : Nat → Int → Option (List Int)
  | 0, _ => some []
  | count + 1, pos => do
    let next ← intResult (if pos % 8 = 0 then pos + 15 else pos - 1)
    let rest ← motorolaLoop count next
    some (pos :: rest)

/-- `physicalBitsForMotorolaSignal`. -/
def physicalBitsForMotorolaSignal (startBit bitLength : Int) : Option (List Int) :=
  if startBit < 0 ∨ bitLength ≤ 0 then some []
  else motorolaLoop bitLength.toNat startBit

/-- `physicalBitsForSignal`. -/
def physicalBitsForSignal (byteOrder : ByteOrder) (startBit bitLength : Int) :
    Option (List Int) :=
  if byteOrder = .leastSignificantByteFirst then physicalBitsForIntelSignal startBit bitLength
  else physicalBitsForMotorolaSignal startBit bitLength

/-- `checkPayloadLength`. -/
def checkPayloadLength (kind name : String) (length : UInt32) (span : RawSpan) :
    List ValidationError :=
  if isValidClassicCanLength length || isValidCanFdLength length then []
  else [{
    code := "can.dlc_mismatch"
    message := kind ++ " '" ++ name ++ "' declares payload length " ++ toString length.toNat ++
      " bytes, which is neither valid classic CAN " ++
      "(0..8) nor valid CAN FD (0..8, 12, 16, 20, 24, 32, 48, 64)"
    location := some span }]

/-- The finding for a bit outside the payload. -/
def outOfRangeError (pdu : Pdu) (signalName : String) (bit : Int) : ValidationError where
  code := "can.signal_out_of_range"
  message := "signal '" ++ signalName ++ "' bit " ++ toString bit ++ " exceeds PDU '" ++
    pdu.common.shortName ++ "' payload (" ++ toString pdu.length.toNat ++ " bytes)"
  location := some pdu.common.rawSpanRef
  path := some signalName

/-- The finding for a bit another signal owns. -/
def overlapError (pdu : Pdu) (owner signalName : String) (bit : Int) : ValidationError where
  code := "can.signal_overlap"
  message := "signals '" ++ owner ++ "' and '" ++ signalName ++ "' overlap in PDU '" ++
    pdu.common.shortName ++ "' at bit " ++ toString bit
  location := some pdu.common.rawSpanRef
  path := some pdu.common.shortName
  actualType := some signalName

/-- The finding of a conflict. -/
def conflictError (pdu : Pdu) (signalName : String) : ClaimArray.Conflict String → ValidationError
  | .outside bit => outOfRangeError pdu signalName bit
  | .taken owner bit => overlapError pdu owner signalName bit

section
variable {D : Type} [Double D]

/-- The file's signals by short name, the first of a name. -/
def signalTable (file : ParsedFile D) : StdMap (Signal D) :=
  ofFirst (file.signals.map fun signal => (signal.common.shortName, signal))

/-- The occupancy vector and the findings so far. -/
abbrev OverlapState := (Nat → Option String) × List ValidationError

/-- One mapping of `checkSignalOverlap`: its bits claim the occupancy vector up
to the first collision. -/
def checkMapping (pdu : Pdu) (signals : StdMap (Signal D)) (state : OverlapState)
    (mapping : PduSignalMapping) : Option OverlapState :=
  match signals[mapping.signalShortNameRef]? with
  | none => some state
  | some signal =>
    if signal.bitLength = 0 then some state
    else do
      let bits ← physicalBitsForSignal mapping.byteOrder (castInt mapping.startPosition)
        (castInt signal.bitLength)
      let claimed := ClaimArray.claim (pdu.length.toNat * 8) mapping.signalShortNameRef bits
        state.1
      some (claimed.1,
        state.2 ++ (claimed.2.map (conflictError pdu mapping.signalShortNameRef)).toList)

/-- `checkSignalOverlap`: the findings it appends. -/
def checkSignalOverlap (pdu : Pdu) (signals : StdMap (Signal D)) :
    Option (List ValidationError) :=
  if pdu.length.toNat * 8 = 0 ∨ pdu.signalMappings = [] then some []
  else (pdu.signalMappings.foldlM (checkMapping pdu signals) ((fun _ => none), [])).map Prod.snd

/-- The part of `validateCanSemantics` about one PDU. -/
def validatePdu (signals : StdMap (Signal D)) (pdu : Pdu) : Option (List ValidationError) := do
  let overlap ← checkSignalOverlap pdu signals
  some (checkPayloadLength "Pdu" pdu.common.shortName pdu.length pdu.common.rawSpanRef ++ overlap)

/-- The part of `validateCanSemantics` about one file. -/
def validateCanFile (file : ParsedFile D) : Option (List ValidationError) := do
  let frames := file.frames.flatMap fun frame =>
    checkPayloadLength "Frame" frame.common.shortName frame.length frame.common.rawSpanRef
  let pdus ← file.pdus.mapM (validatePdu (signalTable file))
  some (frames ++ pdus.flatten)

/-- `Validator::validateCanSemantics`. -/
def validateCanSemantics (project : ParsedProject D) : Option ValidationResult := do
  let findings ← project.files.mapM validateCanFile
  some ⟨findings.flatten⟩

end

end ParseX

import ParseX.Cpp.ToChars
import ParseX.Export.CanDb

/-! # The DBC export

`dbc_writer.cpp`. Names become C identifiers, one underscore for every byte
that cannot stand in one. -/
namespace ParseX.CanDb
open Cpp

def kExtendedFlag : UInt32 := 0x80000000

def kNoNode : String := "Vector__XXX"

/-- `kNewSymbols`. -/
def kNewSymbols : List String :=
  ["NS_DESC_", "CM_", "BA_DEF_", "BA_", "VAL_", "CAT_DEF_", "CAT_", "FILTER", "BA_DEF_DEF_",
    "EV_DATA_", "ENVVAR_DATA_", "SGTYPE_", "SGTYPE_VAL_", "BA_DEF_SGTYPE_", "BA_SGTYPE_",
    "SIG_TYPE_REF_", "VAL_TABLE_", "SIG_GROUP_", "SIG_VALTYPE_", "SIGTYPE_VALTYPE_", "BO_TX_BU_",
    "BA_DEF_REL_", "BA_REL_", "BA_DEF_DEF_REL_", "BU_SG_REL_", "BU_EV_REL_", "BU_BO_REL_",
    "SG_MUL_VAL_"]

def isDecimalDigit (letter : Char) : Bool := '0' ≤ letter && letter ≤ '9'

/-- The characters `ident` keeps. -/
def isIdentChar (letter : Char) : Bool :=
  ('a' ≤ letter && letter ≤ 'z') || ('A' ≤ letter && letter ≤ 'Z') || isDecimalDigit letter ||
    letter == '_'

def ident (name : String) : String :=
  let out := name.toList.flatMap fun letter =>
    if isIdentChar letter then [letter] else List.replicate letter.utf8Size '_'
  String.ofList (if out.isEmpty || (out.head?.map isDecimalDigit).getD false then '_' :: out
    else out)

def quoted (text : String) : String :=
  "\"" ++ String.ofList (text.toList.flatMap fun letter =>
    if letter = '"' ∨ letter = '\\' then ['\\', letter] else [letter]) ++ "\""

/-- `joinIdents`: a separator goes after text that is not empty yet. -/
def joinIdents (names : List String) (separator : String) : String :=
  let out := names.foldl (fun out name => (if out.isEmpty then out else out ++ separator) ++
    ident name) ""
  if out.isEmpty then kNoNode else out

section
variable {D : Type} [Double D]

def dbcId (frame : ExportFrame D) : UInt32 :=
  if frame.extended then frame.id ||| kExtendedFlag else frame.id

/-- `frameFormat`: the index into the `VFrameFormat` enumeration. -/
def frameFormat (frame : ExportFrame D) : Nat :=
  if frame.canFd then (if frame.extended then 15 else 14) else (if frame.extended then 1 else 0)

variable [CharsDouble D]

def num (value : D) : String := CharsDouble.toChars value

/-- `appendSignal`: the line it appends. -/
def signalLine (signal : ExportSignal D) : String :=
  " SG_ " ++ ident signal.name ++ " : " ++ toString signal.startBit.toNat ++ "|" ++
    toString signal.bitLength.toNat ++ "@" ++
    (if signal.byteOrder = .leastSignificantByteFirst then "1" else "0") ++
    (if signal.isSigned then "-" else "+") ++
    " (" ++ num signal.factor ++ "," ++ num signal.offset ++ ") [" ++
    num (signal.min.getD (Double.ofNat 0)) ++ "|" ++ num (signal.max.getD (Double.ofNat 0)) ++
    "] " ++ quoted signal.unit ++ " " ++ joinIdents signal.receivers "," ++ "\n"

omit [CharsDouble D] in
/-- The `VFrameFormat` line of a frame; classic standard frames have none. -/
def formatLine (frame : ExportFrame D) : String :=
  if frameFormat frame ≠ 0 then
    "BA_ \"VFrameFormat\" BO_ " ++ toString (dbcId frame).toNat ++ " " ++
      toString (frameFormat frame) ++ ";\n"
  else ""

omit [CharsDouble D] in
/-- `appendFdAttributes`: the text it appends. -/
def fdAttributes (database : ExportDatabase D) : String :=
  "BA_DEF_ BO_ \"VFrameFormat\" ENUM \"StandardCAN\",\"ExtendedCAN\"" ++
    String.join (List.replicate 12 ",\"reserved\"") ++
    ",\"StandardCAN_FD\",\"ExtendedCAN_FD\";\n" ++ "BA_DEF_ \"BusType\" STRING ;\n" ++
    "BA_DEF_DEF_ \"VFrameFormat\" \"StandardCAN\";\n" ++ "BA_DEF_DEF_ \"BusType\" \"CAN\";\n" ++
    "BA_ \"BusType\" \"CAN FD\";\n" ++ String.join (database.frames.map formatLine) ++ "\n"

omit [CharsDouble D] in
/-- The `BO_` line of a frame. -/
def frameLine (frame : ExportFrame D) : String :=
  let transmitter := match frame.transmitters with
    | [] => kNoNode
    | first :: _ => ident first
  "BO_ " ++ toString (dbcId frame).toNat ++ " " ++ ident frame.name ++ ": " ++
    toString frame.length.toNat ++ " " ++ transmitter ++ "\n"

/-- A frame with its signals and an empty line. -/
def frameBlock (frame : ExportFrame D) : String :=
  frameLine frame ++ String.join (frame.signals.map signalLine) ++ "\n"

omit [CharsDouble D] in
/-- The `BO_TX_BU_` line of a frame with more than one transmitter. -/
def transmittersLine (frame : ExportFrame D) : String :=
  if 1 < frame.transmitters.length then
    "BO_TX_BU_ " ++ toString (dbcId frame).toNat ++ " : " ++ joinIdents frame.transmitters "," ++
      ";\n"
  else ""

omit [CharsDouble D] in
/-- The `VAL_` line of a signal with a value table. -/
def valueTableLine (frame : ExportFrame D) (signal : ExportSignal D) : String :=
  if signal.valueTable.isEmpty then ""
  else "VAL_ " ++ toString (dbcId frame).toNat ++ " " ++ ident signal.name ++
    String.join (signal.valueTable.map fun entry =>
      " " ++ toString entry.value.toInt ++ " " ++ quoted entry.label) ++ " ;\n"

def toDbc (database : ExportDatabase D) : String :=
  let anyFd := database.frames.any ExportFrame.canFd
  let anyMultiTx := database.frames.any fun frame => 1 < frame.transmitters.length
  "VERSION \"\"\n\nNS_ :\n" ++ String.join (kNewSymbols.map fun keyword => "\t" ++ keyword ++ "\n") ++
    "\nBS_:\n\nBU_:" ++ String.join (database.nodes.map fun node => " " ++ ident node) ++ "\n\n" ++
    String.join (database.frames.map frameBlock) ++
    String.join (database.frames.map transmittersLine) ++ (if anyMultiTx then "\n" else "") ++
    (if anyFd then fdAttributes database else "") ++
    String.join (database.frames.map fun frame =>
      String.join (frame.signals.map (valueTableLine frame)))

end

end ParseX.CanDb

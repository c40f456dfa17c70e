import ParseX.Raw.RawNode
import ParseX.Cpp.Map
import ParseX.Cpp.Double

/-! # The common domain model

The six element types, the files that hold them and the project. `D` stands
for `double`. Spans and the raw document are kept, since later blocks read
them. -/
namespace ParseX

structure CommonFields where
  shortName : String := ""
  category : Option String := none
  rawSpanRef : RawSpan := {}
  deriving DecidableEq, Repr

inductive ByteOrder where
  | mostSignificantByteFirst
  | leastSignificantByteFirst
  deriving DecidableEq, Repr

structure Cluster where
  common : CommonFields
  baudrate : Option UInt32 := none
  physicalChannels : List String := []
  deriving DecidableEq, Repr

structure EcuInstance where
  common : CommonFields
  connectedChannels : List String := []
  controllers : List String := []
  deriving DecidableEq, Repr

structure FramePduMapping where
  pduShortNameRef : String := ""
  startPosition : UInt32 := 0
  deriving DecidableEq, Repr

structure Frame where
  common : CommonFields
  length : UInt32 := 0
  transmitters : List String := []
  pdus : List FramePduMapping := []
  deriving DecidableEq, Repr

structure PduSignalMapping where
  signalShortNameRef : String := ""
  startPosition : UInt32 := 0
  byteOrder : ByteOrder := .mostSignificantByteFirst
  deriving DecidableEq, Repr

structure Pdu where
  common : CommonFields
  length : UInt32 := 0
  signalMappings : List PduSignalMapping := []
  deriving DecidableEq, Repr

structure ValueTableEntry where
  value : Int64 := 0
  label : String := ""
  deriving DecidableEq, Repr

structure Signal (D : Type) [Cpp.Double D] where
  common : CommonFields
  startBit : UInt32 := 0
  bitLength : UInt32 := 0
  byteOrder : ByteOrder := .mostSignificantByteFirst
  isSigned : Bool := false
  factor : D := Cpp.Double.ofNat 1
  offset : D := Cpp.Double.ofNat 0
  min : Option D := none
  max : Option D := none
  unit : Option String := none
  initValue : Option D := none
  receivers : List String := []
  valueTable : Option (List ValueTableEntry) := none
  deriving DecidableEq, Repr

structure SignalGroup where
  common : CommonFields
  members : List String := []
  deriving DecidableEq, Repr

structure Warning where
  message : String
  location : Option RawSpan := none
  deriving DecidableEq, Repr

structure ParsedFile (D : Type) [Cpp.Double D] where
  autosarRelease : String := ""
  sourcePath : String := ""
  clusters : List Cluster := []
  ecuInstances : List EcuInstance := []
  frames : List Frame := []
  pdus : List Pdu := []
  signals : List (Signal D) := []
  signalGroups : List SignalGroup := []
  warnings : List Warning := []
  rawDocument : Option RawNode := none

structure ResolvedReference where
  targetShortNamePath : String
  deriving DecidableEq, Repr

structure ParsedProject (D : Type) [Cpp.Double D] where
  files : List (ParsedFile D) := []
  resolvedRefs : Cpp.StdMap ResolvedReference := ∅

/-- The composed block every element type carries. -/
class DomainElement (T : Type) where
  common : T → CommonFields

instance : DomainElement Cluster := ⟨Cluster.common⟩
instance : DomainElement EcuInstance := ⟨EcuInstance.common⟩
instance : DomainElement Frame := ⟨Frame.common⟩
instance : DomainElement Pdu := ⟨Pdu.common⟩
instance {D : Type} [Cpp.Double D] : DomainElement (Signal D) := ⟨Signal.common⟩
instance : DomainElement SignalGroup := ⟨SignalGroup.common⟩

/-- The short name of an element. -/
def shortName {T : Type} [DomainElement T] (element : T) : String :=
  (DomainElement.common element).shortName

/-- `collectAll`: one vector of every file, in file order. -/
def collectAll {D T : Type} [Cpp.Double D] (project : ParsedProject D)
    (member : ParsedFile D → List T) : List T :=
  project.files.flatMap member

end ParseX

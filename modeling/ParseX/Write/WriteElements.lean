import ParseX.Model.Domain
import Mathlib.Data.List.Sort
import Mathlib.Data.String.Basic

/-! # Elements of the written document

The tree the write engine builds, the orderings it applies and one builder for
each element type. -/
namespace ParseX
open Cpp

/-! ## The tree -/

/-- An element of the tree; `content` is its text node, when it has one. -/
structure XmlNode where
  name : String
  attributes : List (String × String) := []
  content : Option String := none
  children : List XmlNode := []

/-- The part of libxml2 that stores texts. -/
class LibXml where
  /-- The text a node holds after `xmlNodeSetContent`. -/
  setContent : String → String

/-- `xmlNodeSetContent` resolves entity references and nothing else. -/
class LawfulLibXml [LibXml] : Prop where
  setContent_plain : ∀ text : String, '&' ∉ text.toList → LibXml.setContent text = text

/-! ## Orderings -/

/-- `std::ranges::stable_sort` by a string key. -/
def stableSort {T : Type} (key : T → String) (items : List T) : List T :=
  items.insertionSort fun a b => key a ≤ key b

def setSortedAttributes (element : XmlNode) (attributes : List (String × String)) : XmlNode :=
  { element with attributes := element.attributes ++ stableSort Prod.fst attributes }

def sortedStrings (names : List String) : List String := stableSort id names

def sortedFramePduMappings (mappings : List FramePduMapping) : List FramePduMapping :=
  stableSort FramePduMapping.pduShortNameRef mappings

def sortedPduSignalMappings (mappings : List PduSignalMapping) : List PduSignalMapping :=
  stableSort PduSignalMapping.signalShortNameRef mappings

/-! ## Builders -/

section
variable [LibXml]

/-- The child `appendTextChild` adds. -/
def textChild (tagName text : String) : XmlNode :=
  { name := tagName, content := some (LibXml.setContent text) }

/-- The children `appendOptionalTextChild` adds. -/
def optionalTextChild (tagName : String) (value : Option String) : List XmlNode :=
  (value.map (textChild tagName)).toList

/-- A child that is only there when it has children itself. -/
def wrapperUnless (empty : Bool) (tagName : String) (children : List XmlNode) : List XmlNode :=
  if empty then [] else [{ name := tagName, children := children }]

/-- An element with nothing but a short name. -/
def namedElement (tagName name : String) : XmlNode where
  name := tagName
  children := [textChild "SHORT-NAME" name]

/-- A reference element with its destination type. -/
def refChild (tagName dest text : String) : XmlNode :=
  setSortedAttributes { name := tagName, content := some (LibXml.setContent text) } [("DEST", dest)]

/-- The part of a cluster below its variants. -/
def clusterConditional (value : Cluster) : XmlNode where
  name := "CAN-CLUSTER-CONDITIONAL"
  children := optionalTextChild "BAUDRATE" (value.baudrate.map fun baudrate =>
      toString baudrate.toNat) ++
    wrapperUnless value.physicalChannels.isEmpty "PHYSICAL-CHANNELS"
      ((sortedStrings value.physicalChannels).map (namedElement "CAN-PHYSICAL-CHANNEL"))

def buildClusterElement (value : Cluster) : XmlNode where
  name := "CAN-CLUSTER"
  children := textChild "SHORT-NAME" value.common.shortName ::
    optionalTextChild "CATEGORY" value.common.category ++
    wrapperUnless (value.baudrate.isNone && value.physicalChannels.isEmpty) "CAN-CLUSTER-VARIANTS"
      [clusterConditional value]

def buildEcuInstanceElement (value : EcuInstance) : XmlNode where
  name := "ECU-INSTANCE"
  children := textChild "SHORT-NAME" value.common.shortName ::
    optionalTextChild "CATEGORY" value.common.category ++
    wrapperUnless value.controllers.isEmpty "COMM-CONTROLLERS"
      ((sortedStrings value.controllers).map (namedElement "CAN-COMMUNICATION-CONTROLLER"))

/-- The synthetic short name of a mapping. -/
def mappingShortName (owner ref : String) (idx : Nat) : String :=
  if ref = "" then owner ++ "_mapping_" ++ toString idx else owner ++ "_" ++ ref

/-- One mapping element; an empty reference is left out. -/
def mappingElement (tagName refTag dest owner ref : String) (startPosition : UInt32)
    (idx : Nat) : XmlNode where
  name := tagName
  children := textChild "SHORT-NAME" (mappingShortName owner ref idx) ::
    (if ref = "" then [] else [refChild refTag dest ("/Sys/" ++ ref)]) ++
    [textChild "START-POSITION" (toString startPosition.toNat)]

/-- The element of a PDU mapping and its index. -/
def frameMappingElement (owner : String) (item : FramePduMapping × Nat) : XmlNode :=
  mappingElement "PDU-TO-FRAME-MAPPING" "PDU-REF" "I-SIGNAL-I-PDU" owner item.1.pduShortNameRef
    item.1.startPosition item.2

/-- The element of a signal mapping and its index. -/
def pduMappingElement (owner : String) (item : PduSignalMapping × Nat) : XmlNode :=
  mappingElement "I-SIGNAL-TO-I-PDU-MAPPING" "I-SIGNAL-REF" "I-SIGNAL" owner
    item.1.signalShortNameRef item.1.startPosition item.2

def buildFrameElement (value : Frame) : XmlNode where
  name := "CAN-FRAME"
  children := textChild "SHORT-NAME" value.common.shortName ::
    textChild "FRAME-LENGTH" (toString value.length.toNat) ::
    wrapperUnless value.pdus.isEmpty "PDU-TO-FRAME-MAPPINGS"
      ((sortedFramePduMappings value.pdus).zipIdx.map (frameMappingElement value.common.shortName))

def buildPduElement (value : Pdu) : XmlNode where
  name := "I-SIGNAL-I-PDU"
  children := textChild "SHORT-NAME" value.common.shortName ::
    textChild "LENGTH" (toString value.length.toNat) ::
    wrapperUnless value.signalMappings.isEmpty "I-SIGNAL-TO-PDU-MAPPINGS"
      ((sortedPduSignalMappings value.signalMappings).zipIdx.map
        (pduMappingElement value.common.shortName))

/-- The base type that reads back as signed. -/
def signedBaseType : XmlNode where
  name := "NETWORK-REPRESENTATION-PROPS"
  children := [{ name := "SW-DATA-DEF-PROPS-VARIANTS", children :=
    [{ name := "SW-DATA-DEF-PROPS-CONDITIONAL", children :=
      [refChild "BASE-TYPE-REF" "SW-BASE-TYPE" "/SwBaseType/SINT8"] }] }]

def buildSignalElement {D : Type} [Double D] (value : Signal D) : XmlNode where
  name := "I-SIGNAL"
  children := textChild "SHORT-NAME" value.common.shortName ::
    (value.initValue.map fun initValue =>
      ({ name := "INIT-VALUE", children :=
        [{ name := "NUMERICAL-VALUE-SPECIFICATION", children :=
          [textChild "VALUE" (Double.print17 initValue)] }] } : XmlNode)).toList ++
    textChild "LENGTH" (toString value.bitLength.toNat) ::
    (if value.isSigned then [signedBaseType] else [])

def buildSignalGroupElement (value : SignalGroup) : XmlNode where
  name := "I-SIGNAL-GROUP"
  children := textChild "SHORT-NAME" value.common.shortName ::
    wrapperUnless value.members.isEmpty "I-SIGNAL-REFS"
      ((sortedStrings value.members).map fun member =>
        refChild "I-SIGNAL-REF" "I-SIGNAL" ("/Sys/" ++ member))

end

end ParseX

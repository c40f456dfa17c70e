import ParseX.Parser.RelocatedTree
import ParseX.Raw.LoaderContent

/-! # Files from bytes

`parseFile` and `parseBytes` as a whole: the loader, the release and the builders. `deliver` stands for
libxml2. -/
namespace ParseX
open Cpp Loader

/-- What `parseFile` and `parseBytes` throw. -/
inductive ParseError where
  | unread (path : String)
  | unloaded (path : String)
  | rejected (failure : ParseFailure)
  deriving DecidableEq, Repr

def kBufferPath : String := "<buffer>"

section
variable {D : Type} [Double D]

/-- What both do with the bytes they have. -/
def parseLoaded (path : String) (bytes : Bytes) (delivery : Delivery) : Except ParseError (ParsedFile D) :=
  match loadRawDocumentFromMemory bytes delivery with
  | none => .error (.unloaded path)
  | some root => (parseDocument path root).mapError .rejected

/-- `Parser::parseBytes`. -/
def parseBytes (deliver : Bytes → Delivery) (bytes : Bytes) : Except ParseError (ParsedFile D) :=
  parseLoaded kBufferPath bytes (deliver bytes)

/-- `Parser::parseFile`. -/
def parseFile (deliver : Bytes → Delivery) (disk : String → Option Bytes) (path : String) :
    Except ParseError (ParsedFile D) :=
  match disk path with
  | none => .error (.unread path)
  | some bytes => parseLoaded path bytes (deliver bytes)

/-- The same document is delivered, its character data cut wherever. -/
structure SameDelivery (delivery delivery' : Delivery) : Prop where
  wellFormed : delivery'.wellFormed = delivery.wellFormed
  events : mergeCharacters delivery'.events = mergeCharacters delivery.events

/-- **A text parses alike in every encoding that is recognised**: to the same release, the same
elements and the same warnings on the same lines, or to the same error. -/
theorem parseBytes_transcoded (deliver : Bytes → Delivery) (document other : Document)
    (htext : other.text = document.text)
    (hdetected : detectEncodingClass document.bytes = .ok document.encoding)
    (hdetected' : detectEncodingClass other.bytes = .ok other.encoding)
    (hsame : SameDelivery (deliver document.bytes) (deliver other.bytes)) :
    (parseBytes deliver other.bytes : Except ParseError (ParsedFile D)) =
      (parseBytes deliver document.bytes).map
        (ParsedFile.relocate (document.transcoding other).place) := by
  rw [parseBytes, parseBytes, parseLoaded, parseLoaded, load_merge hsame.wellFormed hsame.events,
    load_transcoded document other htext hdetected hdetected']
  cases loadRawDocumentFromMemory document.bytes (deliver document.bytes) with
  | none => rfl
  | some root =>
    show (parseDocument kBufferPath (root.relocate _)).mapError _ = ((parseDocument ..).mapError _).map _
    rw [parseDocument_relocate]
    cases (parseDocument kBufferPath root : Except ParseFailure (ParsedFile D)) <;> rfl

end

/-! ## One text in two encodings -/

def pduText : List Char :=
  "<AUTOSAR xsi:schemaLocation='u AUTOSAR_00046.xsd'><PDU><SHORT-NAME>P1</SHORT-NAME></PDU></AUTOSAR>".toList

/-- The name comes in so many pieces. -/
def pduContent (pieces : Items) : Content :=
  .element "AUTOSAR" none [] [⟨"schemaLocation", some "xsi", "u AUTOSAR_00046.xsd"⟩]
    (.child (.element "PDU" none [] [] (.child (.element "SHORT-NAME" none [] [] pieces) .nil)) .nil)

def deliverPdu (bytes : Bytes) : Delivery :=
  ⟨(pduContent (if bytes.length < 150 then .characters "P1" .nil
    else .characters "P" (.characters "1" .nil))).events, true⟩

theorem parseBytes_transcoded_pdu :
    (parseBytes deliverPdu (Document.bytes ⟨.singleByte, false, pduText⟩) :
      Except ParseError (ParsedFile WholeDouble)).toOption.isSome = true ∧
    (parseBytes deliverPdu (Document.bytes ⟨.utf16Le, true, pduText⟩) :
      Except ParseError (ParsedFile WholeDouble)) =
    (parseBytes deliverPdu (Document.bytes ⟨.singleByte, false, pduText⟩)).map
      (ParsedFile.relocate (Document.transcoding ⟨.singleByte, false, pduText⟩ ⟨.utf16Le, true, pduText⟩).place) := by
  refine ⟨by decide +kernel, parseBytes_transcoded deliverPdu ⟨.singleByte, false, pduText⟩
    ⟨.utf16Le, true, pduText⟩ rfl (by decide +kernel) (by decide +kernel) ?_⟩
  have hshort : (Document.bytes ⟨.singleByte, false, pduText⟩).length < 150 := by decide +kernel
  have hlong : ¬ (Document.bytes ⟨.utf16Le, true, pduText⟩).length < 150 := by decide +kernel
  rw [deliverPdu, deliverPdu, if_pos hshort, if_neg hlong]
  exact ⟨rfl, rfl⟩

end ParseX

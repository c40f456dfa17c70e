import ParseX.Write.WriteElements
import ParseX.Validator.ValidationResult

/-! # The write engine

The fail-fast validation, the document `WriteEngine::write` builds and its
white-space guard. Saving the document is not part of this module. -/
namespace ParseX
open Cpp

/-! ## Scaffold -/

/-- The document: the root element with its default namespace. -/
structure XmlDocument where
  namespaceUri : String
  root : XmlNode

/-- `WriteContext::namespaceUriForRelease`. -/
def namespaceUriForRelease (autosarRelease : String) : String :=
  match autosarRelease.toList with
  | letter :: rest =>
    if letter = 'R' ∨ letter = 'r' then
      "http://autosar.org/schema/r" ++
        String.ofList (rest.map fun letter => if letter = '-' then '.' else letter)
    else if ['4', '.'] <+: letter :: rest then "http://autosar.org/schema/r4.0"
    else
      let major := (letter :: rest).takeWhile (· ≠ '.')
      let minor := ((letter :: rest).drop (major.length + 1)).takeWhile (· ≠ '.')
      if '.' ∈ letter :: rest then
        "http://autosar.org/schema/r" ++ String.ofList (major ++ '.' :: minor)
      else "http://autosar.org/schema/r" ++ autosarRelease
  | [] => "http://autosar.org/schema/r" ++ autosarRelease

/-- `WriteContext::schemaFilenameForRelease`. -/
def schemaFilenameForRelease (autosarRelease : String) : String :=
  if autosarRelease = "4.2.2" then "AUTOSAR_4-2-2.xsd"
  else if autosarRelease = "4.3.0" then "AUTOSAR_4-3-0.xsd"
  else if autosarRelease = "4.3.1" then "AUTOSAR_00044.xsd"
  else if autosarRelease = "4.4.0" then "AUTOSAR_00046.xsd"
  else if autosarRelease = "R19-11" then "AUTOSAR_00048.xsd"
  else if autosarRelease = "R20-11" then "AUTOSAR_00049.xsd"
  else if autosarRelease = "R21-11" then "AUTOSAR_00050.xsd"
  else "AUTOSAR_00046.xsd"

/-- `WriteContext::forRelease` around the children of `AR-PACKAGES`. -/
def forRelease (autosarRelease : String) (packages : List XmlNode) : XmlDocument where
  namespaceUri := namespaceUriForRelease autosarRelease
  root :=
    { name := "AUTOSAR"
      attributes := [("xsi:schemaLocation", namespaceUriForRelease autosarRelease ++ " " ++
        schemaFilenameForRelease autosarRelease)]
      children := [{ name := "AR-PACKAGES", children := packages }] }

/-! ## Validation -/

/-- `checkShortNames`. -/
def checkShortNames (type : String) (shortNames : List String) (fileIndex : Nat) :
    List ValidationError :=
  shortNames.zipIdx.filterMap fun (name, idx) =>
    if name ≠ "" then none
    else some {
      code := "write.missing_field"
      message := type ++ "[" ++ toString idx ++ "] in file[" ++ toString fileIndex ++
        "] is missing required SHORT-NAME"
      path := some (type ++ "[" ++ toString idx ++ "]") }

section
variable {D : Type} [Double D]

/-- The part of `WriteEngine::validate` about one file. -/
def validateFile (file : ParsedFile D) (fileIdx : Nat) : List ValidationError :=
  checkShortNames "Cluster" (file.clusters.map shortName) fileIdx ++
  checkShortNames "EcuInstance" (file.ecuInstances.map shortName) fileIdx ++
  checkShortNames "Frame" (file.frames.map shortName) fileIdx ++
  checkShortNames "Pdu" (file.pdus.map shortName) fileIdx ++
  checkShortNames "Signal" (file.signals.map shortName) fileIdx ++
  checkShortNames "SignalGroup" (file.signalGroups.map shortName) fileIdx

/-- `WriteEngine::validate`. -/
def WriteEngine.validate (project : ParsedProject D) : ValidationResult :=
  ⟨project.files.zipIdx.flatMap fun (file, fileIdx) => validateFile file fileIdx⟩

/-! ## The document -/

/-- The release of the first file, `4.4.0` when there is none. -/
def writeRelease (project : ParsedProject D) : String :=
  match project.files with
  | file :: _ => if file.autosarRelease = "" then "4.4.0" else file.autosarRelease
  | [] => "4.4.0"

/-- `sortedCopy` of one merged vector, by short name. -/
def sortedCopy {T : Type} [DomainElement T] (items : List T) : List T := stableSort shortName items

variable [LibXml]

/-- The children of `ELEMENTS`: every type in turn, sorted by short name. -/
def writeElements (project : ParsedProject D) : List XmlNode :=
  (sortedCopy (collectAll project ParsedFile.clusters)).map buildClusterElement ++
  (sortedCopy (collectAll project ParsedFile.ecuInstances)).map buildEcuInstanceElement ++
  (sortedCopy (collectAll project ParsedFile.frames)).map buildFrameElement ++
  (sortedCopy (collectAll project ParsedFile.pdus)).map buildPduElement ++
  (sortedCopy (collectAll project ParsedFile.signals)).map buildSignalElement ++
  (sortedCopy (collectAll project ParsedFile.signalGroups)).map buildSignalGroupElement

/-- The document of a project: all elements in the package `Sys`. -/
def buildDocument (project : ParsedProject D) : XmlDocument :=
  forRelease (writeRelease project)
    [{ name := "AR-PACKAGE", children :=
      [textChild "SHORT-NAME" "Sys", { name := "ELEMENTS", children := writeElements project }] }]

end

/-- `isWhitespaceOnly`, true of an empty text. -/
def isWhitespaceOnly (content : String) : Bool := content.toList.all isBlank

mutual

/-- Whether `assertNoWhitespaceOnlyTextNodes` throws. -/
def hasBlankText (node : XmlNode) : Bool :=
  match node with
  | ⟨_, _, content, children⟩ => content.any isWhitespaceOnly || hasBlankTexts children

def hasBlankTexts (children : List XmlNode) : Bool :=
  match children with
  | [] => false
  | child :: rest => hasBlankText child || hasBlankTexts rest

end

/-- What `WriteEngine::write` throws before it touches a file. -/
inductive WriteFailure where
  | writeError (result : ValidationResult)
  | blankText
  deriving DecidableEq, Repr

/-- `WriteEngine::write`, up to the document it saves. -/
def WriteEngine.write {D : Type} [Double D] [LibXml] (project : ParsedProject D) :
    Except WriteFailure XmlDocument :=
  if (WriteEngine.validate project).hasErrors then .error (.writeError (WriteEngine.validate project))
  else if hasBlankText (buildDocument project).root then .error .blankText
  else .ok (buildDocument project)

end ParseX

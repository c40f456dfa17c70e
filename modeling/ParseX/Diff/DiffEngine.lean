import ParseX.Diff.DiffNested
import ParseX.Diff.DiffMoves

/-! # The diff engine

Field differences for matched and moved pairs, and the whole pipeline. -/
namespace ParseX
open Cpp

section
variable {D : Type} [Double D]

/-- The twelve path indexes of a comparison, six for each side. -/
structure ProjectIndex (D : Type) [Double D] where
  clusters : StdMap Cluster
  ecuInstances : StdMap EcuInstance
  frames : StdMap Frame
  pdus : StdMap Pdu
  signals : StdMap (Signal D)
  signalGroups : StdMap SignalGroup

def indexProject (project : ParsedProject D) : ProjectIndex D where
  clusters := indexByPath (collectAll project ParsedFile.clusters)
  ecuInstances := indexByPath (collectAll project ParsedFile.ecuInstances)
  frames := indexByPath (collectAll project ParsedFile.frames)
  pdus := indexByPath (collectAll project ParsedFile.pdus)
  signals := indexByPath (collectAll project ParsedFile.signals)
  signalGroups := indexByPath (collectAll project ParsedFile.signalGroups)

/-- A pair of looked-up elements, compared when both are there. -/
def diffLookup {T : Type} (diff : T → T → List FieldDiff) (oldIndex newIndex : StdMap T)
    (oldPath newPath : String) : List FieldDiff :=
  match oldIndex[oldPath]?, newIndex[newPath]? with
  | some oldElem, some newElem => diff oldElem newElem
  | _, _ => []

/-- `diffPair`. -/
def diffPair (type oldPath newPath : String) (oldIdx newIdx : ProjectIndex D) : List FieldDiff :=
  if type = "Cluster" then
    diffLookup diffStruct oldIdx.clusters newIdx.clusters oldPath newPath
  else if type = "EcuInstance" then
    diffLookup diffStruct oldIdx.ecuInstances newIdx.ecuInstances oldPath newPath
  else if type = "Frame" then
    diffLookup diffFrameElements oldIdx.frames newIdx.frames oldPath newPath
  else if type = "Pdu" then
    diffLookup diffPduElements oldIdx.pdus newIdx.pdus oldPath newPath
  else if type = "Signal" then
    diffLookup diffSignalElements oldIdx.signals newIdx.signals oldPath newPath
  else if type = "SignalGroup" then
    diffLookup diffSignalGroupElements oldIdx.signalGroups newIdx.signalGroups oldPath newPath
  else []

/-- What becomes of one entry: matched and moved entries get their field
differences, and a matched entry without any is dropped. -/
def populateEntry (oldIdx newIdx : ProjectIndex D) (entry : DiffEntry) : Option DiffEntry :=
  if entry.kind ≠ .modified ∧ entry.kind ≠ .moved then some entry
  else
    let fieldDiffs := diffPair entry.elementType entry.oldPath entry.newPath oldIdx newIdx
    if entry.kind = .moved ∨ fieldDiffs ≠ [] then some { entry with fieldDiffs := fieldDiffs }
    else none

/-- `populateFieldDiffs`. -/
def populateFieldDiffs (oldProject newProject : ParsedProject D) (report : DiffReport) :
    DiffReport :=
  { report with
    entries := report.entries.filterMap
      (populateEntry (indexProject oldProject) (indexProject newProject)) }

/-- `DiffEngine::diff`. -/
def diff (oldProject newProject : ParsedProject D) : DiffReport :=
  let matched := matchParsedProjects oldProject newProject
  let moved := applyMoveDetection oldProject newProject matched
  let populated := populateFieldDiffs oldProject newProject moved
  populated.sortDeterministically

end

end ParseX

import ParseX.Model.Domain
import ParseX.Diff.DiffReport

/-! # Path-based matching

Elements of one type are indexed by their one-segment path and the two
indexes compared key by key. -/
namespace ParseX
open Cpp

def diffPathForShortName (shortName : String) : String :=
  if shortName.isEmpty then "" else "/" ++ shortName

/-- The pairs `indexByPath` inserts: elements with a path. -/
def pathPairs {T : Type} [DomainElement T] (elements : List T) : List (String × T) :=
  (elements.filter fun e => !(diffPathForShortName (shortName e)).isEmpty).map fun e =>
    (diffPathForShortName (shortName e), e)

/-- `indexByPath`: the first element of a path stays. -/
def indexByPath {T : Type} [DomainElement T] (elements : List T) : StdMap T :=
  ofFirst (pathPairs elements)

/-- `matchByPath`: removed, added, then matched paths, each in path order. -/
def matchByPath {T : Type} (oldIndex newIndex : StdMap T) (elementTypeName : String) :
    DiffReport :=
  let removed := (oldIndex.keys.filter fun path => !newIndex.contains path).map fun path =>
    { kind := .removed, elementType := elementTypeName, oldPath := path : DiffEntry }
  let added := (newIndex.keys.filter fun path => !oldIndex.contains path).map fun path =>
    { kind := .added, elementType := elementTypeName, newPath := path : DiffEntry }
  let matched := (oldIndex.keys.filter fun path => newIndex.contains path).map fun path =>
    { kind := .modified, elementType := elementTypeName, oldPath := path, newPath := path :
      DiffEntry }
  { entries := removed ++ added ++ matched }

section
variable {D : Type} [Double D]

/-- `matchParsedProjects`: one pass per type, merged in this order. -/
def matchParsedProjects (oldProject newProject : ParsedProject D) : DiffReport :=
  let pass {T : Type} [DomainElement T] (report : DiffReport) (member : ParsedFile D → List T)
      (elementTypeName : String) : DiffReport :=
    report.merge (matchByPath (indexByPath (collectAll oldProject member))
      (indexByPath (collectAll newProject member)) elementTypeName)
  let report := pass {} ParsedFile.clusters "Cluster"
  let report := pass report ParsedFile.ecuInstances "EcuInstance"
  let report := pass report ParsedFile.frames "Frame"
  let report := pass report ParsedFile.pdus "Pdu"
  let report := pass report ParsedFile.signals "Signal"
  pass report ParsedFile.signalGroups "SignalGroup"

end

end ParseX

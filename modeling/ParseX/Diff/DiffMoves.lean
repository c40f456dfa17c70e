import ParseX.Diff.DiffMatch

/-! # Move detection

Removed and added entries of one type are grouped by secondary key. A group
with one of each becomes a moved entry: the removed entry is rewritten in
place and the added one erased by its saved index. Other groups with both
sides gain a diagnostic. -/
namespace ParseX
open Cpp

/-- `joinSorted`. -/
def joinSorted (items : List String) : String :=
  ",".intercalate (items.insertionSort (· ≤ ·))

/-- The overload set `secondaryKey`. -/
class SecondaryKey (T : Type) where
  secondaryKey : T → Option String

export SecondaryKey (secondaryKey)

instance : SecondaryKey Cluster := ⟨fun cluster => some ("baud:" ++
  (match cluster.baudrate with
    | some baudrate => toString baudrate.toNat
    | none => "-") ++ "|ch:" ++ joinSorted cluster.physicalChannels)⟩

instance : SecondaryKey EcuInstance := ⟨fun ecu => some ("ch:" ++ joinSorted ecu.connectedChannels ++
  "|ctrl:" ++ joinSorted ecu.controllers)⟩

instance : SecondaryKey Frame := ⟨fun frame => some ("len:" ++ toString frame.length.toNat ++
  "|tx:" ++ joinSorted frame.transmitters ++ "|pdu:" ++ joinSorted (frame.pdus.map fun mapping =>
    mapping.pduShortNameRef ++ "@" ++ toString mapping.startPosition.toNat))⟩

instance : SecondaryKey Pdu := ⟨fun pdu => some ("len:" ++ toString pdu.length.toNat ++
  "|sig:" ++ joinSorted (pdu.signalMappings.map fun mapping =>
    mapping.signalShortNameRef ++ "@" ++ toString mapping.startPosition.toNat))⟩

instance {D : Type} [Double D] : SecondaryKey (Signal D) := ⟨fun signal =>
  some ("start:" ++ toString signal.startBit.toNat ++ "|len:" ++ toString signal.bitLength.toNat ++
    "|order:" ++ (if signal.byteOrder = .mostSignificantByteFirst then "M" else "L") ++
    "|rx:" ++ joinSorted signal.receivers)⟩

instance : SecondaryKey SignalGroup := ⟨fun group => some ("m:" ++ joinSorted group.members)⟩

/-- Indices of the removed and added entries that share a secondary key. -/
structure MoveGroup where
  removedIdx : List Nat := []
  addedIdx : List Nat := []
  deriving DecidableEq, Repr

/-- The secondary key of a removed entry of the type. -/
def removedKey {T : Type} [SecondaryKey T] (oldIndex : StdMap T) (elementTypeName : String)
    (entry : DiffEntry) : Option String :=
  if entry.elementType = elementTypeName ∧ entry.kind = .removed then
    oldIndex[entry.oldPath]?.bind secondaryKey
  else none

/-- The secondary key of an added entry of the type. -/
def addedKey {T : Type} [SecondaryKey T] (newIndex : StdMap T) (elementTypeName : String)
    (entry : DiffEntry) : Option String :=
  if entry.elementType = elementTypeName ∧ entry.kind = .added then
    newIndex[entry.newPath]?.bind secondaryKey
  else none

section
variable {T : Type} [SecondaryKey T] (oldIndex newIndex : StdMap T) (elementTypeName : String)

/-- One step of the grouping loop. -/
def groupEntry (groups : StdMap MoveGroup) (item : DiffEntry × Nat) : StdMap MoveGroup :=
  match removedKey oldIndex elementTypeName item.1 with
  | some key =>
    let group := groups.getD key {}
    groups.insert key { group with removedIdx := group.removedIdx ++ [item.2] }
  | none => match addedKey newIndex elementTypeName item.1 with
    | some key =>
      let group := groups.getD key {}
      groups.insert key { group with addedIdx := group.addedIdx ++ [item.2] }
    | none => groups

def moveGroups (entries : List DiffEntry) : StdMap MoveGroup :=
  entries.zipIdx.foldl (groupEntry oldIndex newIndex elementTypeName) ∅

/-- The text of an ambiguity diagnostic. -/
def ambiguityMessage (key : String) (removedPaths addedPaths : List String) : String :=
  toString (removedPaths.length + addedPaths.length) ++ " candidates shared secondary key " ++
    key ++ " for type " ++ elementTypeName ++ ", no move inferred (" ++
    ", ".intercalate (removedPaths.map ("removed:" ++ ·) ++ addedPaths.map ("added:" ++ ·)) ++ ")"

/-- State of the loop over the groups. -/
structure MoveState where
  entries : List DiffEntry
  diagnostics : List DiffDiagnostic
  addedToErase : List Nat := []

/-- One step of the loop over the groups, in key order. -/
def resolveGroup (state : MoveState) (item : String × MoveGroup) : MoveState :=
  match item.2.removedIdx, item.2.addedIdx with
  | [], _ => state
  | _, [] => state
  | [removed], [added] =>
    let newPath := (state.entries.getD added {}).newPath
    { state with
      entries := state.entries.modify removed fun e => { e with kind := .moved, newPath := newPath }
      addedToErase := state.addedToErase ++ [added] }
  | removed, added =>
    let message := ambiguityMessage elementTypeName item.1
      (removed.map fun idx => (state.entries.getD idx {}).oldPath)
      (added.map fun idx => (state.entries.getD idx {}).newPath)
    { state with diagnostics := state.diagnostics ++ [⟨message, elementTypeName⟩] }

/-- The erase loop: `idx` is the position of the next entry and the second
list the sorted positions still to erase. -/
def eraseLoop : List DiffEntry → List Nat → Nat → List DiffEntry
  | [], _, _ => []
  | entry :: entries, [], idx => entry :: eraseLoop entries [] (idx + 1)
  | entry :: entries, erase :: rest, idx =>
    if erase = idx then eraseLoop entries rest (idx + 1)
    else entry :: eraseLoop entries (erase :: rest) (idx + 1)

/-- `detectMovesForType`. -/
def detectMovesForType (report : DiffReport) : DiffReport :=
  let groups := moveGroups oldIndex newIndex elementTypeName report.entries
  let state := groups.toList.foldl (resolveGroup elementTypeName)
    { entries := report.entries, diagnostics := report.diagnostics }
  let entries := if state.addedToErase.isEmpty then state.entries
    else eraseLoop state.entries (state.addedToErase.insertionSort (· ≤ ·)) 0
  ⟨entries, state.diagnostics⟩

end

section
variable {D : Type} [Double D]

/-- `applyMoveDetection`: the six types in order, over one entry vector. -/
def applyMoveDetection (oldProject newProject : ParsedProject D) (report : DiffReport) :
    DiffReport :=
  let pass {T : Type} [DomainElement T] [SecondaryKey T] (report : DiffReport)
      (member : ParsedFile D → List T) (elementTypeName : String) : DiffReport :=
    detectMovesForType (indexByPath (collectAll oldProject member))
      (indexByPath (collectAll newProject member)) elementTypeName report
  let report := pass report ParsedFile.clusters "Cluster"
  let report := pass report ParsedFile.ecuInstances "EcuInstance"
  let report := pass report ParsedFile.frames "Frame"
  let report := pass report ParsedFile.pdus "Pdu"
  let report := pass report ParsedFile.signals "Signal"
  pass report ParsedFile.signalGroups "SignalGroup"

end

end ParseX

import ParseX.Diff.DiffFields

/-! # Key-based nested collections

Items of a nested collection are matched by identity key, the first item of a
key standing for it on each side, and the element-level helpers combine the
flat comparison with the nested ones. -/
namespace ParseX
open Cpp

/-- The first item of every key. -/
def firstByKey {T : Type} (keyOf : T → String) (items : List T) : StdMap T :=
  ofFirst (items.map fun item => (keyOf item, item))

/-- `diffNestedCollectionWith`: keys only in the old items, keys only in the
new items, then the differences of the items both sides have. -/
def diffNestedCollectionWith {T : Type} [DiffValue T] (oldItems newItems : List T)
    (keyOf : T → String) (fieldName : String) (itemDiff : T → T → List FieldDiff) :
    List FieldDiff :=
  let oldByKey := firstByKey keyOf oldItems
  let newByKey := firstByKey keyOf newItems
  let removed := (oldByKey.toList.filter fun kv => !newByKey.contains kv.1).map fun kv =>
    FieldDiff.mk (fieldName ++ "[" ++ kv.1 ++ "]") (diffValueToString kv.2) "absent"
  let added := (newByKey.toList.filter fun kv => !oldByKey.contains kv.1).map fun kv =>
    FieldDiff.mk (fieldName ++ "[" ++ kv.1 ++ "]") "absent" (diffValueToString kv.2)
  let changed := oldByKey.toList.flatMap fun kv =>
    match newByKey[kv.1]? with
    | none => []
    | some newItem => (itemDiff kv.2 newItem).map fun sub =>
      FieldDiff.mk (fieldName ++ "[" ++ kv.1 ++ "]." ++ sub.fieldName) sub.oldValue sub.newValue
  removed ++ added ++ changed

/-- `diffNestedCollection` of strings: an item has nothing but its key. -/
def diffNestedStrings (oldItems newItems : List String) (keyOf : String → String)
    (fieldName : String) : List FieldDiff :=
  diffNestedCollectionWith oldItems newItems keyOf fieldName fun _ _ => []

/-- `diffNestedCollection` of aggregates. -/
def diffNestedCollection {T : Type} [DiffValue T] [DiffStruct T] (oldItems newItems : List T)
    (keyOf : T → String) (fieldName : String) : List FieldDiff :=
  diffNestedCollectionWith oldItems newItems keyOf fieldName diffStruct

def signalGroupMemberKey (member : String) : String := member

def framePduMappingKey (m : FramePduMapping) : String := m.pduShortNameRef

def pduSignalMappingKey (m : PduSignalMapping) : String := m.signalShortNameRef

def valueTableEntryKey (e : ValueTableEntry) : String := toString e.value.toInt

/-- Drop the opaque entries of the named fields. -/
def eraseFields (names : List String) (diffs : List FieldDiff) : List FieldDiff :=
  diffs.filter fun d => !names.contains d.fieldName

def diffSignalGroupElements (oldG newG : SignalGroup) : List FieldDiff :=
  eraseFields ["members"] (diffStruct oldG newG) ++
    diffNestedStrings oldG.members newG.members signalGroupMemberKey "members"

def diffFrameElements (oldF newF : Frame) : List FieldDiff :=
  let diffs := eraseFields ["pdus"] (diffStruct oldF newF) ++
    diffNestedCollection oldF.pdus newF.pdus framePduMappingKey "pdus"
  let txOpaque := (diffStruct oldF newF).filter fun d => d.fieldName == "transmitters"
  -- the opaque entry is replaced only when there is one
  if txOpaque.isEmpty then diffs
  else eraseFields ["transmitters"] diffs ++
    diffNestedStrings oldF.transmitters newF.transmitters signalGroupMemberKey "transmitters"

def diffPduElements (oldP newP : Pdu) : List FieldDiff :=
  eraseFields ["signalMappings"] (diffStruct oldP newP) ++
    diffNestedCollection oldP.signalMappings newP.signalMappings pduSignalMappingKey
      "signalMappings"

def diffSignalValueTable (oldTable newTable : Option (List ValueTableEntry)) : List FieldDiff :=
  let oldItems := oldTable.getD []
  let newItems := newTable.getD []
  if oldItems.isEmpty && newItems.isEmpty && oldTable.isSome == newTable.isSome then []
  else diffNestedCollection oldItems newItems valueTableEntryKey "valueTable"

def diffSignalElements {D : Type} [Double D] (oldS newS : Signal D) : List FieldDiff :=
  eraseFields ["valueTable", "receivers"] (diffStruct oldS newS) ++
    diffSignalValueTable oldS.valueTable newS.valueTable ++
    diffNestedStrings oldS.receivers newS.receivers signalGroupMemberKey "receivers"

end ParseX

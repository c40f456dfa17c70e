import ParseX.Model.Domain
import ParseX.Diff.DiffReport

/-! # Field-level comparison

The `diffValueToString` overload set and the generic `diffStruct`, which walks
the fields of an aggregate under the names of its field table and reports
those whose strings differ. -/
namespace ParseX
open Cpp

/-- The overload set `diffValueToString`. -/
class DiffValue (α : Type) where
  diffValueToString : α → String

export DiffValue (diffValueToString)

instance : DiffValue String := ⟨fun v => v⟩
instance : DiffValue Bool := ⟨fun v => if v then "true" else "false"⟩
instance : DiffValue UInt32 := ⟨fun v => toString v.toNat⟩
instance : DiffValue Int64 := ⟨fun v => toString v.toInt⟩

/-- A floating-point value prints at precision 17. -/
instance (priority := low) {D : Type} [Double D] : DiffValue D := ⟨Double.print17⟩

instance : DiffValue ByteOrder := ⟨fun
  | .mostSignificantByteFirst => "MostSignificantByteFirst"
  | .leastSignificantByteFirst => "LeastSignificantByteFirst"⟩

/-- The short name is the identity of an element, not a field change, and
source locations are not compared. -/
instance : DiffValue CommonFields := ⟨fun c => "category=" ++ c.category.getD "nullopt"⟩

instance : DiffValue FramePduMapping := ⟨fun m =>
  m.pduShortNameRef ++ "@" ++ toString m.startPosition.toNat⟩

instance : DiffValue PduSignalMapping := ⟨fun m =>
  m.signalShortNameRef ++ "@" ++ toString m.startPosition.toNat ++
    match m.byteOrder with
    | .mostSignificantByteFirst => "M"
    | .leastSignificantByteFirst => "L"⟩

instance : DiffValue ValueTableEntry := ⟨fun e => toString e.value.toInt ++ ":" ++ e.label⟩

instance {α : Type} [DiffValue α] : DiffValue (Option α) := ⟨fun
  | none => "nullopt"
  | some v => diffValueToString v⟩

instance {α : Type} [DiffValue α] : DiffValue (List α) := ⟨fun vs =>
  "[" ++ ", ".intercalate (vs.map diffValueToString) ++ "]"⟩

/-- The field table of an aggregate: each field's name and its string. -/
class DiffStruct (T : Type) where
  diffFields : List (String × (T → String))

export DiffStruct (diffFields)

/-- One entry of a field table. -/
def diffField {T α : Type} [DiffValue α] (fieldName : String) (get : T → α) :
    String × (T → String) :=
  (fieldName, fun v => diffValueToString (get v))

instance : DiffStruct Cluster := ⟨[diffField "common" Cluster.common,
  diffField "baudrate" Cluster.baudrate, diffField "physicalChannels" Cluster.physicalChannels]⟩

instance : DiffStruct EcuInstance := ⟨[diffField "common" EcuInstance.common,
  diffField "connectedChannels" EcuInstance.connectedChannels,
  diffField "controllers" EcuInstance.controllers]⟩

instance : DiffStruct FramePduMapping := ⟨[
  diffField "pduShortNameRef" FramePduMapping.pduShortNameRef,
  diffField "startPosition" FramePduMapping.startPosition]⟩

instance : DiffStruct Frame := ⟨[diffField "common" Frame.common, diffField "length" Frame.length,
  diffField "transmitters" Frame.transmitters, diffField "pdus" Frame.pdus]⟩

instance : DiffStruct PduSignalMapping := ⟨[
  diffField "signalShortNameRef" PduSignalMapping.signalShortNameRef,
  diffField "startPosition" PduSignalMapping.startPosition,
  diffField "byteOrder" PduSignalMapping.byteOrder]⟩

instance : DiffStruct Pdu := ⟨[diffField "common" Pdu.common, diffField "length" Pdu.length,
  diffField "signalMappings" Pdu.signalMappings]⟩

instance : DiffStruct ValueTableEntry := ⟨[diffField "value" ValueTableEntry.value,
  diffField "label" ValueTableEntry.label]⟩

instance {D : Type} [Double D] : DiffStruct (Signal D) := ⟨[
  diffField "common" Signal.common, diffField "startBit" Signal.startBit,
  diffField "bitLength" Signal.bitLength, diffField "byteOrder" Signal.byteOrder,
  diffField "isSigned" Signal.isSigned, diffField "factor" Signal.factor,
  diffField "offset" Signal.offset, diffField "min" Signal.min, diffField "max" Signal.max,
  diffField "unit" Signal.unit, diffField "initValue" Signal.initValue,
  diffField "receivers" Signal.receivers, diffField "valueTable" Signal.valueTable]⟩

instance : DiffStruct SignalGroup := ⟨[diffField "common" SignalGroup.common,
  diffField "members" SignalGroup.members]⟩

/-- One field of `diffStruct`. -/
def diffOne {T : Type} (oldVal newVal : T) (field : String × (T → String)) : Option FieldDiff :=
  let oldStr := field.2 oldVal
  let newStr := field.2 newVal
  if oldStr ≠ newStr then some ⟨field.1, oldStr, newStr⟩ else none

/-- `diffStruct`: the fields whose strings differ, in table order. -/
def diffStruct {T : Type} [DiffStruct T] (oldVal newVal : T) : List FieldDiff :=
  diffFields.filterMap (diffOne oldVal newVal)

theorem diffStruct_eq_nil {T : Type} [DiffStruct T] {oldVal newVal : T} :
    diffStruct oldVal newVal = [] ↔ ∀ field ∈ (diffFields : List (String × (T → String))),
      field.2 oldVal = field.2 newVal := by
  simp [diffStruct, diffOne]

/-- The names a struct comparison can report are those of the table. -/
theorem fieldName_of_mem_diffStruct {T : Type} [DiffStruct T] {oldVal newVal : T} {d : FieldDiff}
    (h : d ∈ diffStruct oldVal newVal) :
    ∃ field ∈ (diffFields : List (String × (T → String))), field.1 = d.fieldName := by
  obtain ⟨field, hf, hd⟩ := List.mem_filterMap.mp h
  refine ⟨field, hf, ?_⟩
  simp only [diffOne] at hd
  split at hd
  · rw [← Option.some.inj hd]
  · cases hd

end ParseX

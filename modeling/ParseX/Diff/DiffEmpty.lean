import ParseX.Diff.Canonical

/-! # Empty reports

When a report has no entries, in terms of the fields of the elements: the same
names on both sides, and pairs that look alike to the field comparison. -/
namespace ParseX
open Cpp

/-! ## Renderings -/

/-- The text of an optional string. -/
def optionText (text : Option String) : String := text.getD "nullopt"

/-- The text between the brackets of a list of strings. -/
def joined (items : List String) : String := ", ".intercalate items

/-- Two lists have the same strings, whatever their number. -/
def SameSet (old new : List String) : Prop := ∀ s, s ∈ old ↔ s ∈ new

/-- Two lists have the same first item of every key. -/
def SameFirst {T : Type} (keyOf : T → String) (old new : List T) : Prop :=
  ∀ key, old.find? (fun item => keyOf item = key) = new.find? fun item => keyOf item = key

theorem render_common {x y : CommonFields} : diffValueToString x = diffValueToString y ↔
    optionText x.category = optionText y.category := by
  simp [diffValueToString, optionText]

theorem render_uint32 {x y : UInt32} : diffValueToString x = diffValueToString y ↔ x = y := by
  constructor
  · intro h
    exact UInt32.toNat_inj.mp (toString_nat_inj h)
  · rintro rfl; rfl

theorem render_int64 {x y : Int64} : diffValueToString x = diffValueToString y ↔ x = y := by
  constructor
  · intro h
    exact Int64.toInt_inj.mp (toString_int_inj h)
  · rintro rfl; rfl

theorem render_bool {x y : Bool} : diffValueToString x = diffValueToString y ↔ x = y := by
  cases x <;> cases y <;> decide

theorem render_byteOrder {x y : ByteOrder} : diffValueToString x = diffValueToString y ↔ x = y := by
  cases x <;> cases y <;> decide

theorem render_optionString {x y : Option String} :
    diffValueToString x = diffValueToString y ↔ optionText x = optionText y := by
  cases x <;> cases y <;> rfl

theorem render_option {α : Type} [DiffValue α]
    (hinj : ∀ x y : α, diffValueToString x = diffValueToString y ↔ x = y)
    (hne : ∀ x : α, diffValueToString x ≠ "nullopt") {x y : Option α} :
    diffValueToString x = diffValueToString y ↔ x = y := by
  cases x with
  | none => cases y with
    | none => simp
    | some y => simpa [diffValueToString] using (hne y).symm
  | some x => cases y with
    | none => simpa [diffValueToString] using hne x
    | some y => simpa [diffValueToString] using hinj x y

theorem render_list {x y : List String} :
    diffValueToString x = diffValueToString y ↔ joined x = joined y := by
  simp [diffValueToString, joined]

/-! ## Nested collections -/

theorem getElem?_firstByKey {T : Type} (keyOf : T → String) (items : List T) (key : String) :
    (firstByKey keyOf items)[key]? = items.find? fun item => keyOf item = key := by
  rw [firstByKey, getElem?_ofFirst, List.find?_map, Option.map_map]
  simp [Function.comp_def]

theorem mem_firstByKey {T : Type} {keyOf : T → String} {items : List T} {key : String} :
    key ∈ firstByKey keyOf items ↔ ∃ item ∈ items, keyOf item = key := by
  rw [firstByKey, mem_ofFirst]
  simp

section
variable {T : Type} [DiffValue T] {oldItems newItems : List T} {keyOf : T → String}
  {fieldName : String}

/-- A nested comparison is silent when both sides have the same keys and the
first items of each key compare as equal. -/
theorem diffNestedCollectionWith_eq_nil {itemDiff : T → T → List FieldDiff} :
    diffNestedCollectionWith oldItems newItems keyOf fieldName itemDiff = [] ↔
      (∀ key, key ∈ firstByKey keyOf oldItems ↔ key ∈ firstByKey keyOf newItems) ∧
      ∀ (key : String) (a b : T), (firstByKey keyOf oldItems)[key]? = some a →
        (firstByKey keyOf newItems)[key]? = some b → itemDiff a b = [] := by
  generalize ho : firstByKey keyOf oldItems = o
  generalize hn : firstByKey keyOf newItems = n
  have honly (m m' : StdMap T) : (∀ kv ∈ m.toList, ¬ (!m'.contains kv.1) = true) ↔
      ∀ key, key ∈ m → key ∈ m' := by
    simp only [Bool.not_eq_true', Bool.not_eq_false, Std.ExtTreeMap.contains_iff_mem]
    constructor
    · intro h key hkey
      rw [← Std.ExtTreeMap.mem_keys, ← Std.ExtTreeMap.map_fst_toList_eq_keys] at hkey
      obtain ⟨kv, hkv, rfl⟩ := List.mem_map.mp hkey
      exact h kv hkv
    · intro h kv hkv
      refine h kv.1 (Std.ExtTreeMap.mem_keys.mp ?_)
      rw [← Std.ExtTreeMap.map_fst_toList_eq_keys]
      exact List.mem_map_of_mem hkv
  simp only [diffNestedCollectionWith, ho, hn, List.append_eq_nil_iff, List.map_eq_nil_iff,
    List.filter_eq_nil_iff, List.flatMap_eq_nil_iff, honly]
  constructor
  · rintro ⟨⟨hon, hno⟩, hchanged⟩
    refine ⟨fun key => ⟨hon key, hno key⟩, fun key a b ha hb => ?_⟩
    have hpair := hchanged (key, a) (Std.ExtTreeMap.mem_toList_iff_getElem?_eq_some.mpr ha)
    simpa [hb] using hpair
  · rintro ⟨hkeys, hitems⟩
    refine ⟨⟨fun key => (hkeys key).mp, fun key => (hkeys key).mpr⟩, fun kv hkv => ?_⟩
    cases hb : n[kv.1]? with
    | none => rfl
    | some b =>
      have ha := Std.ExtTreeMap.mem_toList_iff_getElem?_eq_some.mp hkv
      simp [hitems kv.1 kv.2 b ha hb]

theorem diffNestedStrings_eq_nil {oldItems newItems : List String} :
    diffNestedStrings oldItems newItems signalGroupMemberKey fieldName = [] ↔
      SameSet oldItems newItems := by
  rw [diffNestedStrings, diffNestedCollectionWith_eq_nil]
  simp [mem_firstByKey, signalGroupMemberKey, SameSet]

/-- With a comparison that separates items, silence means equal first items. -/
theorem diffNestedCollection_eq_nil [DiffStruct T]
    (hitem : ∀ a b : T, diffStruct a b = [] ↔ a = b) :
    diffNestedCollection oldItems newItems keyOf fieldName = [] ↔
      SameFirst keyOf oldItems newItems := by
  rw [diffNestedCollection, diffNestedCollectionWith_eq_nil]
  simp only [hitem, SameFirst, ← getElem?_firstByKey, Std.ExtTreeMap.mem_iff_isSome_getElem?]
  constructor
  · rintro ⟨hkeys, hsame⟩ key
    have hkey := hkeys key
    have hitems := hsame key
    cases ha : (firstByKey keyOf oldItems)[key]? with
    | none => cases hb : (firstByKey keyOf newItems)[key]? with
      | none => rfl
      | some b => simp [ha, hb] at hkey
    | some a => cases hb : (firstByKey keyOf newItems)[key]? with
      | none => simp [ha, hb] at hkey
      | some b => rw [hitems a b ha hb]
  · intro hsame
    refine ⟨fun key => by rw [hsame key], fun key a b ha hb => ?_⟩
    rw [hsame key, hb] at ha
    exact (Option.some.inj ha).symm

end

/-! ## Pairs that look alike -/

def Cluster.LooksAlike (x y : Cluster) : Prop :=
  optionText x.common.category = optionText y.common.category ∧ x.baudrate = y.baudrate ∧
    joined x.physicalChannels = joined y.physicalChannels

def EcuInstance.LooksAlike (x y : EcuInstance) : Prop :=
  optionText x.common.category = optionText y.common.category ∧
    joined x.connectedChannels = joined y.connectedChannels ∧
    joined x.controllers = joined y.controllers

def Frame.LooksAlike (x y : Frame) : Prop :=
  optionText x.common.category = optionText y.common.category ∧ x.length = y.length ∧
    (joined x.transmitters = joined y.transmitters ∨ SameSet x.transmitters y.transmitters) ∧
    SameFirst framePduMappingKey x.pdus y.pdus

def Pdu.LooksAlike (x y : Pdu) : Prop :=
  optionText x.common.category = optionText y.common.category ∧ x.length = y.length ∧
    SameFirst pduSignalMappingKey x.signalMappings y.signalMappings

/-- The fields of a signal that are compared as they are. -/
def Signal.SameScalars {D : Type} [Double D] (x y : Signal D) : Prop :=
  x.startBit = y.startBit ∧ x.bitLength = y.bitLength ∧ x.byteOrder = y.byteOrder ∧
    x.isSigned = y.isSigned ∧ x.factor = y.factor ∧ x.offset = y.offset ∧ x.min = y.min ∧
    x.max = y.max ∧ x.initValue = y.initValue

def Signal.LooksAlike {D : Type} [Double D] (x y : Signal D) : Prop :=
  optionText x.common.category = optionText y.common.category ∧ x.SameScalars y ∧
    optionText x.unit = optionText y.unit ∧ SameSet x.receivers y.receivers ∧
    SameFirst valueTableEntryKey (x.valueTable.getD []) (y.valueTable.getD [])

def SignalGroup.LooksAlike (x y : SignalGroup) : Prop :=
  optionText x.common.category = optionText y.common.category ∧ SameSet x.members y.members

/-- The reported fields of some names are none when those fields read the
same. -/
theorem filter_diffStruct_eq_nil {T : Type} [DiffStruct T] {p : String → Bool} {x y : T} :
    ((diffStruct x y).filter fun d => p d.fieldName) = [] ↔
      ∀ field ∈ (diffFields : List (String × (T → String))), p field.1 = true →
        field.2 x = field.2 y := by
  simp only [diffStruct, List.filter_eq_nil_iff, List.mem_filterMap, diffOne]
  constructor
  · intro h field hfield hname
    by_contra hne
    exact h ⟨field.1, field.2 x, field.2 y⟩ ⟨field, hfield, by simp [hne]⟩ hname
  · rintro h d ⟨field, hfield, hd⟩ hname
    by_cases he : field.2 x = field.2 y
    · simp [he] at hd
    · rw [if_pos he] at hd
      obtain rfl := Option.some.inj hd
      exact he (h field hfield hname)

theorem eraseFields_diffStruct_eq_nil {T : Type} [DiffStruct T] {names : List String} {x y : T} :
    eraseFields names (diffStruct x y) = [] ↔
      ∀ field ∈ (diffFields : List (String × (T → String))), field.1 ∉ names →
        field.2 x = field.2 y := by
  rw [eraseFields, filter_diffStruct_eq_nil (p := fun name => !names.contains name)]
  simp

theorem eraseFields_eraseFields (names names' : List String) (diffs : List FieldDiff) :
    eraseFields names (eraseFields names' diffs) = eraseFields (names ++ names') diffs := by
  simp [eraseFields, List.filter_filter]

/-- Entries of a nested comparison are named after its field. -/
theorem fieldName_of_mem_nested {T : Type} [DiffValue T] {oldItems newItems : List T}
    {keyOf : T → String} {fieldName : String} {itemDiff : T → T → List FieldDiff} {d : FieldDiff}
    (h : d ∈ diffNestedCollectionWith oldItems newItems keyOf fieldName itemDiff) :
    ∃ rest, d.fieldName = fieldName ++ ("[" ++ rest) := by
  simp only [diffNestedCollectionWith, List.mem_append, List.mem_map, List.mem_flatMap] at h
  rcases h with (⟨kv, _, rfl⟩ | ⟨kv, _, rfl⟩) | ⟨kv, _, h⟩
  · exact ⟨kv.1 ++ "]", by simp [String.append_assoc]⟩
  · exact ⟨kv.1 ++ "]", by simp [String.append_assoc]⟩
  · split at h
    · cases h
    · obtain ⟨sub, _, rfl⟩ := List.mem_map.mp h
      exact ⟨kv.1 ++ "]." ++ sub.fieldName, by simp [String.append_assoc]⟩

theorem render_optionUInt32 {x y : Option UInt32} :
    diffValueToString x = diffValueToString y ↔ x = y :=
  render_option (fun _ _ => render_uint32) fun n =>
    toString_nat_ne (show 'n' ∈ "nullopt".toList by decide) (by decide) n.toNat

theorem diffCluster_eq_nil {x y : Cluster} : diffStruct x y = [] ↔ x.LooksAlike y := by
  rw [diffStruct_eq_nil]
  simp [diffFields, diffField, render_common, render_optionUInt32, render_list,
    Cluster.LooksAlike]

theorem diffEcuInstance_eq_nil {x y : EcuInstance} : diffStruct x y = [] ↔ x.LooksAlike y := by
  rw [diffStruct_eq_nil]
  simp [diffFields, diffField, render_common, render_list, EcuInstance.LooksAlike]

theorem render_string {x y : String} : diffValueToString x = diffValueToString y ↔ x = y := .rfl

theorem diffFramePduMapping_eq_nil (x y : FramePduMapping) : diffStruct x y = [] ↔ x = y := by
  rw [diffStruct_eq_nil]
  cases x; cases y
  simp [diffFields, diffField, render_uint32, render_string]

theorem diffPduSignalMapping_eq_nil (x y : PduSignalMapping) : diffStruct x y = [] ↔ x = y := by
  rw [diffStruct_eq_nil]
  cases x; cases y
  simp [diffFields, diffField, render_uint32, render_string, render_byteOrder]

theorem diffValueTableEntry_eq_nil (x y : ValueTableEntry) : diffStruct x y = [] ↔ x = y := by
  rw [diffStruct_eq_nil]
  cases x; cases y
  simp [diffFields, diffField, render_int64, render_string]

theorem diffSignalGroup_eq_nil {x y : SignalGroup} :
    diffSignalGroupElements x y = [] ↔ x.LooksAlike y := by
  rw [diffSignalGroupElements, List.append_eq_nil_iff, eraseFields_diffStruct_eq_nil,
    diffNestedStrings_eq_nil]
  simp [diffFields, diffField, render_common, SignalGroup.LooksAlike]

theorem diffPdu_eq_nil {x y : Pdu} : diffPduElements x y = [] ↔ x.LooksAlike y := by
  rw [diffPduElements, List.append_eq_nil_iff, eraseFields_diffStruct_eq_nil,
    diffNestedCollection_eq_nil diffPduSignalMapping_eq_nil]
  simp [diffFields, diffField, render_common, render_uint32, Pdu.LooksAlike, and_assoc]

theorem eraseFields_nested {T : Type} [DiffValue T] {oldItems newItems : List T}
    {keyOf : T → String} {fieldName name : String} {itemDiff : T → T → List FieldDiff}
    (hname : fieldName.toList.head? ≠ name.toList.head?) (hne : fieldName ≠ "") :
    eraseFields [name] (diffNestedCollectionWith oldItems newItems keyOf fieldName itemDiff) =
      diffNestedCollectionWith oldItems newItems keyOf fieldName itemDiff := by
  apply List.filter_eq_self.mpr
  intro d hd
  obtain ⟨rest, hrest⟩ := fieldName_of_mem_nested hd
  have : d.fieldName ≠ name := by
    rintro rfl
    rw [hrest, String.toList_append, List.head?_append] at hname
    cases hf : fieldName.toList with
    | nil => exact hne (String.toList_inj.mp hf)
    | cons c cs => simp [hf] at hname
  simpa using this

theorem diffFrame_eq_nil {x y : Frame} : diffFrameElements x y = [] ↔ x.LooksAlike y := by
  have hopaque : ((diffStruct x y).filter fun d => d.fieldName == "transmitters") = [] ↔
      joined x.transmitters = joined y.transmitters := by
    rw [filter_diffStruct_eq_nil (p := fun name => name == "transmitters")]
    simp [diffFields, diffField, render_list]
  have hpdus := @diffNestedCollection_eq_nil _ _ x.pdus y.pdus framePduMappingKey "pdus" _
    diffFramePduMapping_eq_nil
  simp only [diffFrameElements, List.isEmpty_iff, hopaque, Frame.LooksAlike]
  split
  · rename_i htx
    rw [List.append_eq_nil_iff, eraseFields_diffStruct_eq_nil, hpdus]
    simp [diffFields, diffField, render_common, render_uint32, render_list, htx, and_assoc]
  · rename_i htx
    have hnested : eraseFields ["transmitters"]
        (diffNestedCollection x.pdus y.pdus framePduMappingKey "pdus") =
        diffNestedCollection x.pdus y.pdus framePduMappingKey "pdus" :=
      eraseFields_nested (by decide) (by decide)
    have hsplit (ds ds' : List FieldDiff) : eraseFields ["transmitters"] (ds ++ ds') =
        eraseFields ["transmitters"] ds ++ eraseFields ["transmitters"] ds' :=
      List.filter_append _ _
    rw [hsplit, hnested, eraseFields_eraseFields, List.append_eq_nil_iff, List.append_eq_nil_iff,
      eraseFields_diffStruct_eq_nil, hpdus, diffNestedStrings_eq_nil]
    simp [diffFields, diffField, render_common, render_uint32, htx]
    tauto

theorem diffSignalValueTable_eq_nil {x y : Option (List ValueTableEntry)} :
    diffSignalValueTable x y = [] ↔ SameFirst valueTableEntryKey (x.getD []) (y.getD []) := by
  simp only [diffSignalValueTable]
  split
  · rename_i h
    simp only [Bool.and_eq_true, List.isEmpty_iff] at h
    simp [h.1.1, h.1.2, SameFirst]
  · exact diffNestedCollection_eq_nil diffValueTableEntry_eq_nil

theorem diffSignal_nil_of_looksAlike {D : Type} [Double D] {x y : Signal D}
    (h : x.LooksAlike y) : diffSignalElements x y = [] := by
  obtain ⟨hcat, ⟨h1, h2, h3, h4, h5, h6, h7, h8, h9⟩, hunit, hreceivers, htable⟩ := h
  rw [diffSignalElements, List.append_eq_nil_iff, List.append_eq_nil_iff,
    eraseFields_diffStruct_eq_nil, diffSignalValueTable_eq_nil, diffNestedStrings_eq_nil]
  refine ⟨⟨?_, htable⟩, hreceivers⟩
  simp [diffFields, diffField, render_common, render_optionString, hcat, hunit, h1, h2, h3, h4,
    h5, h6, h7, h8, h9]

section
variable {D : Type} [Double D] [LawfulDouble D]

theorem render_double {x y : D} : diffValueToString x = diffValueToString y ↔ x = y :=
  ⟨print17_injective, fun h => by rw [h]⟩

theorem render_optionDouble {x y : Option D} :
    diffValueToString x = diffValueToString y ↔ x = y :=
  render_option (fun _ _ => render_double) fun d =>
    print17_ne (show 'u' ∈ "nullopt".toList by decide) (by decide) d

theorem diffSignal_eq_nil {x y : Signal D} : diffSignalElements x y = [] ↔ x.LooksAlike y := by
  rw [diffSignalElements, List.append_eq_nil_iff, List.append_eq_nil_iff,
    eraseFields_diffStruct_eq_nil, diffSignalValueTable_eq_nil, diffNestedStrings_eq_nil]
  simp [diffFields, diffField, render_common, render_uint32, render_byteOrder, render_bool,
    render_double, render_optionDouble, render_optionString, Signal.LooksAlike,
    Signal.SameScalars, and_assoc]
  tauto

end

/-! ## Empty passes -/

namespace TypePass
variable (pass : TypePass)

/-- Every removed path is in a pair or stays removed. -/
theorem oldOnly_cases {path : String} (h : path ∈ pass.oldOnly) :
    (∃ newPath, (path, newPath) ∈ pass.pairs) ∨ path ∈ pass.unpairedOld := by
  cases hm : pass.movedTo path with
  | some newPath =>
    exact Or.inl ⟨newPath, pass.mem_pairs.mpr ((pass.movedTo_eq_some h).mp hm)⟩
  | none => exact Or.inr (List.mem_filter.mpr ⟨h, by rw [hm]; rfl⟩)

theorem newOnly_cases {path : String} (h : path ∈ pass.newOnly) :
    (∃ oldPath, (oldPath, path) ∈ pass.pairs) ∨ path ∈ pass.unpairedNew := by
  cases hm : pass.movedFrom path with
  | some oldPath =>
    exact Or.inl ⟨oldPath, pass.mem_pairs.mpr ((pass.movedFrom_eq_some h).mp hm)⟩
  | none => exact Or.inr (List.mem_filter.mpr ⟨h, by rw [hm]; rfl⟩)

/-- The paths of the two sides are the same. -/
def SamePaths : Prop := ∀ path, path ∈ pass.oldIndex ↔ path ∈ pass.newIndex

/-- Elements of one path compare as equal. -/
def Silent : Prop := ∀ (path : String) (x y : pass.T), pass.oldIndex[path]? = some x →
  pass.newIndex[path]? = some y → pass.compare x y = []

theorem samePaths_iff : pass.SamePaths ↔ pass.oldOnly = [] ∧ pass.newOnly = [] := by
  simp only [List.eq_nil_iff_forall_not_mem, mem_oldOnly, mem_newOnly, not_and, not_not]
  exact ⟨fun h => ⟨fun path => (h path).mp, fun path => (h path).mpr⟩,
    fun h path => ⟨h.1 path, h.2 path⟩⟩

theorem diagnostics_of_samePaths (h : pass.SamePaths) : pass.diagnostics = [] := by
  rw [diagnostics, List.filterMap_eq_nil_iff]
  intro key _
  rw [ambiguous, oldWith, (pass.samePaths_iff.mp h).1]
  rfl

end TypePass

section
variable {D : Type} [Double D]

/-- A block disappears when the paths are the same and all pairs are silent. -/
theorem populate_block_eq_nil {a b : ParsedProject D} {pass : TypePass} (hp : pass ∈ passes a b) :
    pass.settled.filterMap (populateEntry (indexProject a) (indexProject b)) = [] ↔
      pass.SamePaths ∧ pass.Silent := by
  have hmatched (path : String) :
      populateEntry (indexProject a) (indexProject b) (pass.matchedEntry path) = none ↔
        diffLookup pass.compare pass.oldIndex pass.newIndex path path = [] := by
    rw [← diffPair_of_pass hp]
    simp [populateEntry, TypePass.matchedEntry]
  rw [List.filterMap_eq_nil_iff]
  constructor
  · intro h
    have hno {e : DiffEntry} (hk : e.kind ≠ .modified) (he : e ∈ pass.settled) : False := by
      have := h e he
      by_cases hm : e.kind = .moved
      · simp [populateEntry, hm] at this
      · simp [populateEntry, hk, hm] at this
    have hpairs (pair : String × String) : pair ∉ pass.pairs := fun hpair =>
      hno (show (pass.movedEntry pair.1 pair.2).kind ≠ .modified by simp [TypePass.movedEntry])
        (pass.mem_settled.mpr (Or.inl ⟨pair, hpair, rfl⟩))
    have hold (path : String) : path ∉ pass.unpairedOld := fun hpath =>
      hno (show (pass.removedEntry path).kind ≠ .modified by simp [TypePass.removedEntry])
        (pass.mem_settled.mpr (Or.inr (Or.inl ⟨path, hpath, rfl⟩)))
    have hnew (path : String) : path ∉ pass.unpairedNew := fun hpath =>
      hno (show (pass.addedEntry path).kind ≠ .modified by simp [TypePass.addedEntry])
        (pass.mem_settled.mpr (Or.inr (Or.inr (Or.inl ⟨path, hpath, rfl⟩))))
    constructor
    · rw [pass.samePaths_iff, List.eq_nil_iff_forall_not_mem, List.eq_nil_iff_forall_not_mem]
      constructor
      · intro path hpath
        rcases pass.oldOnly_cases hpath with ⟨newPath, hpair⟩ | hpath
        · exact hpairs _ hpair
        · exact hold path hpath
      · intro path hpath
        rcases pass.newOnly_cases hpath with ⟨oldPath, hpair⟩ | hpath
        · exact hpairs _ hpair
        · exact hnew path hpath
    · intro path x y hx hy
      have hboth : path ∈ pass.both := pass.mem_both.mpr
        ⟨Std.ExtTreeMap.mem_iff_isSome_getElem?.mpr (by rw [hx]; rfl),
          Std.ExtTreeMap.mem_iff_isSome_getElem?.mpr (by rw [hy]; rfl)⟩
      have hnone := h _ (pass.mem_settled.mpr (Or.inr (Or.inr (Or.inr ⟨path, hboth, rfl⟩))))
      rw [hmatched] at hnone
      simpa [diffLookup, hx, hy] using hnone
  · rintro ⟨hsame, hsilent⟩ e he
    obtain ⟨hold, hnew⟩ := pass.samePaths_iff.mp hsame
    rcases pass.mem_settled.mp he with ⟨⟨o, n⟩, hpair, -⟩ | ⟨path, hpath, -⟩ | ⟨path, hpath, -⟩ |
      ⟨path, -, rfl⟩
    · obtain ⟨key, hkey⟩ := pass.mem_pairs.mp hpair
      exact absurd (pass.mem_of_pairOf hkey).1 (hold ▸ List.not_mem_nil)
    · exact absurd (List.mem_of_mem_filter hpath) (hold ▸ List.not_mem_nil)
    · exact absurd (List.mem_of_mem_filter hpath) (hnew ▸ List.not_mem_nil)
    · rw [hmatched]
      unfold diffLookup
      cases hx : pass.oldIndex[path]? with
      | none => rfl
      | some x => cases hy : pass.newIndex[path]? with
        | none => rfl
        | some y => exact hsilent path x y hx hy

theorem diff_entries_nil_of_passes (a b : ParsedProject D) :
    (diff a b).entries = [] ↔ ∀ pass ∈ passes a b, pass.SamePaths ∧ pass.Silent := by
  have hperm := diff_entries_perm a b
  rw [← List.perm_nil, hperm.congr_left, List.perm_nil, List.filterMap_flatMap,
    List.flatMap_eq_nil_iff]
  exact forall₂_congr fun pass hp => populate_block_eq_nil hp

theorem diff_diagnostics_nil {a b : ParsedProject D}
    (h : ∀ pass ∈ passes a b, pass.SamePaths) : (diff a b).diagnostics = [] := by
  rw [← List.perm_nil]
  refine (diff_diagnostics_perm a b).trans (List.perm_nil.mpr ?_)
  exact List.flatMap_eq_nil_iff.mpr fun pass hp => pass.diagnostics_of_samePaths (h pass hp)

end

/-! ## In terms of the elements -/

section
variable {T : Type} [DomainElement T]

/-- A relation between the elements of one name. -/
def SameNamed (R : T → T → Prop) (old new : List T) : Prop :=
  ∀ x ∈ old, ∀ y ∈ new, shortName x = shortName y → shortName x ≠ "" → R x y

/-- The same names on both sides, empty ones aside. -/
def SameNames (old new : List T) : Prop :=
  ∀ name, name ≠ "" → (name ∈ old.map shortName ↔ name ∈ new.map shortName)

theorem SameNamed.imp {R S : T → T → Prop} {old new : List T}
    (h : SameNamed R old new) (himp : ∀ x ∈ old, ∀ y, R x y → S x y) : SameNamed S old new :=
  fun x hx y hy hname hne => himp x hx y (h x hx y hy hname hne)

theorem SameNamed.congr {R S S' : T → T → Prop} {old new : List T}
    (h : SameNamed R old new) (hiff : ∀ x y, R x y → (S x y ↔ S' x y)) :
    SameNamed S old new ↔ SameNamed S' old new := by
  constructor
  · intro hs x hx y hy hname hne
    exact (hiff x y (h x hx y hy hname hne)).mp (hs x hx y hy hname hne)
  · intro hs x hx y hy hname hne
    exact (hiff x y (h x hx y hy hname hne)).mpr (hs x hx y hy hname hne)

theorem getElem?_indexByPath {elements : List T} (h : (elements.map shortName).Nodup)
    {path : String} {x : T} : (indexByPath elements)[path]? = some x ↔
      x ∈ elements ∧ shortName x ≠ "" ∧ path = diffPathForShortName (shortName x) := by
  rw [indexByPath, getElem?_ofFirst_of_nodup (pathPairs_nodup h)]
  simp only [pathPairs, List.mem_map, List.mem_filter, Prod.mk.injEq, Bool.not_eq_true',
    ← Bool.not_eq_true, diffPath_isEmpty]
  constructor
  · rintro ⟨e, ⟨he, hne⟩, hpath, rfl⟩
    exact ⟨he, hne, hpath.symm⟩
  · rintro ⟨he, hne, hpath⟩
    exact ⟨x, ⟨he, hne⟩, hpath.symm, rfl⟩

variable [SecondaryKey T] {old new : List T} {name : String} {compare : T → T → List FieldDiff}

omit [SecondaryKey T] in
theorem isPathOf_path {elements : List T} {name : String} (hne : name ≠ "") :
    IsPathOf elements (diffPathForShortName name) ↔ name ∈ elements.map shortName := by
  rw [List.mem_map]
  constructor
  · rintro ⟨e, he, _, hpath⟩
    exact ⟨e, he, (diffPath_injective hne hpath).symm⟩
  · rintro ⟨e, he, rfl⟩
    exact ⟨e, he, hne, rfl⟩

theorem samePaths_elements :
    (TypePass.mk T name (indexByPath old) (indexByPath new) compare).SamePaths ↔
      SameNames old new := by
  simp only [TypePass.SamePaths, mem_indexByPath]
  constructor
  · intro h name hne
    rw [← isPathOf_path hne, ← isPathOf_path hne]
    exact h _
  · intro h path
    have hside {elements elements' : List T} (hsub : ∀ name, name ≠ "" →
        name ∈ elements.map shortName → name ∈ elements'.map shortName)
        (hpath : IsPathOf elements path) : IsPathOf elements' path := by
      obtain ⟨e, he, hne, rfl⟩ := hpath
      exact (isPathOf_path hne).mpr (hsub _ hne (List.mem_map_of_mem he))
    exact ⟨hside fun name hne => (h name hne).mp, hside fun name hne => (h name hne).mpr⟩

theorem silent_elements (ho : (old.map shortName).Nodup) (hn : (new.map shortName).Nodup) :
    (TypePass.mk T name (indexByPath old) (indexByPath new) compare).Silent ↔
      SameNamed (fun x y => compare x y = []) old new := by
  simp only [TypePass.Silent, getElem?_indexByPath ho, getElem?_indexByPath hn]
  constructor
  · intro h x hx y hy hsame hne
    exact h _ x y ⟨hx, hne, rfl⟩ ⟨hy, hsame ▸ hne, by rw [hsame]⟩
  · rintro h path x y ⟨hx, hne, rfl⟩ ⟨hy, _, hpath⟩
    exact h x hx y hy (diffPath_injective hne hpath) hne

end

section
variable {D : Type} [Double D]

/-- A relation for each of the six types. -/
structure TypeRelations (D : Type) [Double D] where
  cluster : Cluster → Cluster → Prop
  ecuInstance : EcuInstance → EcuInstance → Prop
  frame : Frame → Frame → Prop
  pdu : Pdu → Pdu → Prop
  signal : Signal D → Signal D → Prop
  signalGroup : SignalGroup → SignalGroup → Prop

/-- Both projects define the same short names of each type. -/
def SameShortNames (a b : ParsedProject D) : Prop :=
  SameNames (collectAll a ParsedFile.clusters) (collectAll b ParsedFile.clusters) ∧
    SameNames (collectAll a ParsedFile.ecuInstances) (collectAll b ParsedFile.ecuInstances) ∧
    SameNames (collectAll a ParsedFile.frames) (collectAll b ParsedFile.frames) ∧
    SameNames (collectAll a ParsedFile.pdus) (collectAll b ParsedFile.pdus) ∧
    SameNames (collectAll a ParsedFile.signals) (collectAll b ParsedFile.signals) ∧
    SameNames (collectAll a ParsedFile.signalGroups) (collectAll b ParsedFile.signalGroups)

/-- Every same-named pair of the two projects is related. -/
def AllPairs (R : TypeRelations D) (a b : ParsedProject D) : Prop :=
  SameNamed R.cluster (collectAll a ParsedFile.clusters) (collectAll b ParsedFile.clusters) ∧
    SameNamed R.ecuInstance (collectAll a ParsedFile.ecuInstances)
      (collectAll b ParsedFile.ecuInstances) ∧
    SameNamed R.frame (collectAll a ParsedFile.frames) (collectAll b ParsedFile.frames) ∧
    SameNamed R.pdu (collectAll a ParsedFile.pdus) (collectAll b ParsedFile.pdus) ∧
    SameNamed R.signal (collectAll a ParsedFile.signals) (collectAll b ParsedFile.signals) ∧
    SameNamed R.signalGroup (collectAll a ParsedFile.signalGroups)
      (collectAll b ParsedFile.signalGroups)

/-- The pair comparison reports nothing. -/
def silent : TypeRelations D where
  cluster x y := diffStruct x y = []
  ecuInstance x y := diffStruct x y = []
  frame x y := diffFrameElements x y = []
  pdu x y := diffPduElements x y = []
  signal x y := diffSignalElements x y = []
  signalGroup x y := diffSignalGroupElements x y = []

def looksAlike : TypeRelations D where
  cluster := Cluster.LooksAlike
  ecuInstance := EcuInstance.LooksAlike
  frame := Frame.LooksAlike
  pdu := Pdu.LooksAlike
  signal := Signal.LooksAlike
  signalGroup := SignalGroup.LooksAlike

theorem samePaths_passes {a b : ParsedProject D} :
    (∀ pass ∈ passes a b, pass.SamePaths) ↔ SameShortNames a b := by
  simp only [passes, passesOf, indexProject, List.forall_mem_cons, samePaths_elements,
    List.not_mem_nil, false_implies, implies_true, and_true, SameShortNames]

/-- A report of projects with unique names is empty when the names agree and
every same-named pair is silent. -/
theorem diff_entries_nil_iff {a b : ParsedProject D} (ha : UniqueShortNames a)
    (hb : UniqueShortNames b) :
    (diff a b).entries = [] ↔ SameShortNames a b ∧ AllPairs silent a b := by
  obtain ⟨a1, a2, a3, a4, a5, a6⟩ := ha
  obtain ⟨b1, b2, b3, b4, b5, b6⟩ := hb
  rw [diff_entries_nil_of_passes, forall₂_and, samePaths_passes]
  simp only [passes, passesOf, indexProject, List.forall_mem_cons, silent_elements a1 b1,
    silent_elements a2 b2, silent_elements a3 b3, silent_elements a4 b4, silent_elements a5 b5,
    silent_elements a6 b6, List.not_mem_nil, false_implies, implies_true, and_true, AllPairs,
    silent]

theorem silent_eq_looksAlike [LawfulDouble D] : (silent : TypeRelations D) = looksAlike := by
  simp only [silent, looksAlike, diffCluster_eq_nil, diffEcuInstance_eq_nil, diffFrame_eq_nil,
    diffPdu_eq_nil, diffSignal_eq_nil, diffSignalGroup_eq_nil]

end

end ParseX

import Mathlib.Data.List.Perm.Basic
import ParseX.Base.Words
import ParseX.Diff.DiffMoves
import ParseX.Parser.Parser

/-! # What secondary keys tell apart

A secondary key concatenates identity fields without escaping. Keys of equal
fields are equal, and equal keys come from equal fields as long as no name
holds the separator that follows it. -/
namespace ParseX
open Cpp Words

/-! ## Sorted lists in a key -/

theorem joinSorted_toList (items : List String) : (joinSorted items).toList =
    [','].intercalate ((items.insertionSort (· ≤ ·)).map String.toList) := by
  rw [joinSorted, String.toList_intercalate]
  rfl

theorem joinSorted_perm {items items' : List String} (h : items.Perm items') :
    joinSorted items = joinSorted items' := by
  have hsort : (items.insertionSort (· ≤ ·)).Perm (items'.insertionSort (· ≤ ·)) :=
    (List.perm_insertionSort _ _).trans (h.trans (List.perm_insertionSort _ _).symm)
  rw [joinSorted, joinSorted, hsort.eq_of_pairwise' (List.pairwise_insertionSort _ _)
    (List.pairwise_insertionSort _ _)]

theorem perm_of_joinSorted {item : List Char → Prop} (hsep : Separable ',' item)
    (hne : ¬ item []) {items items' : List String} (hitems : ∀ x ∈ items, item x.toList)
    (hitems' : ∀ x ∈ items', item x.toList) (h : joinSorted items = joinSorted items') :
    items.Perm items' := by
  have hsorted {items : List String} (hitems : ∀ x ∈ items, item x.toList) :
      ∀ x ∈ (items.insertionSort (· ≤ ·)).map String.toList, item x := by
    intro x hx
    obtain ⟨text, htext, rfl⟩ := List.mem_map.mp hx
    exact hitems text ((List.mem_insertionSort _).mp htext)
  have htext := congrArg String.toList h
  rw [joinSorted_toList, joinSorted_toList] at htext
  have hlists := List.map_injective_iff.mpr (fun _ _ => String.toList_inj.mp)
    (intercalate_unique hsep hne (hsorted hitems) (hsorted hitems') htext)
  have hperm := List.perm_insertionSort (· ≤ ·) items
  rw [hlists] at hperm
  exact hperm.symm.trans (List.perm_insertionSort _ _)

/-- A word without a comma is in a joined list only if it is in an item. -/
theorem not_infix_joinSorted {word : List Char} (hcomma : ',' ∉ word) (hne : word ≠ [])
    {items : List String} (hitems : ∀ x ∈ items, ¬ word <:+: x.toList) :
    ¬ word <:+: (joinSorted items).toList := by
  intro h
  rw [joinSorted_toList] at h
  cases hsort : items.insertionSort (· ≤ ·) with
  | nil =>
    rw [hsort] at h
    exact hne (List.infix_nil.mp h)
  | cons first rest =>
    rw [hsort, List.map_cons, intercalate_eq_joined] at h
    obtain ⟨item, hitem, hin⟩ := word_in_item hcomma hne h
    rw [← List.map_cons, ← hsort] at hitem
    obtain ⟨text, htext, rfl⟩ := List.mem_map.mp hitem
    exact hitems text ((List.mem_insertionSort _).mp htext) hin

/-! ## References with positions -/

/-- A reference and its start position, as the keys write them. -/
def refAt (ref : String) (start : UInt32) : String := ref ++ "@" ++ toString start.toNat

theorem refAt_toList (ref : String) (start : UInt32) :
    (refAt ref start).toList = ref.toList ++ '@' :: Nat.toDigits 10 start.toNat := by
  simp [refAt, String.toList_append]

theorem refAt_inj {ref ref' : String} {start start' : UInt32}
    (h : refAt ref start = refAt ref' start') : ref = ref' ∧ start = start' := by
  have htext := congrArg String.toList h
  rw [refAt_toList, refAt_toList] at htext
  obtain ⟨href, hstart⟩ := split_last_unique (not_mem_toDigits (by decide) _)
    (not_mem_toDigits (by decide) _) htext
  rw [← toList_toString_nat, ← toList_toString_nat] at hstart
  exact ⟨String.toList_inj.mp href,
    UInt32.toNat_inj.mp (toString_nat_inj (String.toList_inj.mp hstart))⟩

/-- No position followed by a comma stands inside the reference. -/
def ClearRef (ref : String) : Prop :=
  ∀ start : Nat, ¬ '@' :: (Nat.toDigits 10 start ++ [',']) <:+: ref.toList

/-- The text is a clear reference with a position. -/
def IsRefAt (text : List Char) : Prop :=
  ∃ ref start, ClearRef ref ∧ text = (refAt ref start).toList

theorem not_isRefAt_nil : ¬ IsRefAt [] := by
  intro ⟨ref, start, _, h⟩
  rw [refAt_toList] at h
  simp at h

theorem separable_refAt : Separable ',' IsRefAt := by
  intro x y z w t t' ⟨ref, start, _, hx⟩ ⟨ref', start', hclear, hy⟩ _ hlong _ _ _
  rw [hx, hy, refAt_toList, refAt_toList, List.append_assoc, List.cons_append] at hlong
  have hcomma : ',' ∉ '@' :: Nat.toDigits 10 start'.toNat := by
    simpa using not_mem_toDigits (by decide) start'.toNat
  rcases List.append_eq_append_iff.mp hlong with ⟨u, -, hrest⟩ | ⟨u, href, hrest⟩
  · -- the shorter text would hold the comma among its digits
    rw [hrest] at hcomma
    simp at hcomma
  · cases u with
    | nil =>
      rw [← List.nil_append ('@' :: Nat.toDigits 10 start'.toNat), ← hrest] at hcomma
      simp at hcomma
    | cons c u =>
      obtain ⟨rfl, hend⟩ := List.cons.inj hrest
      rcases List.append_eq_append_iff.mp hend with ⟨v, rfl, hv⟩ | ⟨v, hdigits, hv⟩
      · cases v with
        | nil => cases (List.cons.inj hv).1
        | cons c v =>
          obtain ⟨rfl, -⟩ := List.cons.inj hv
          exact hclear start.toNat ⟨ref.toList, v, by rw [href]; simp⟩
      · cases v with
        | nil => cases (List.cons.inj hv).1
        | cons c v =>
          obtain ⟨rfl, -⟩ := List.cons.inj hv
          exact absurd (hdigits ▸ List.mem_append_right _ List.mem_cons_self)
            (not_mem_toDigits (by decide) start.toNat)

/-- Joined references with positions determine the references. -/
theorem perm_of_refsAt {refs refs' : List (String × UInt32)}
    (hclear : ∀ ref ∈ refs, ClearRef ref.1) (hclear' : ∀ ref ∈ refs', ClearRef ref.1)
    (h : joinSorted (refs.map fun ref => refAt ref.1 ref.2) =
      joinSorted (refs'.map fun ref => refAt ref.1 ref.2)) : refs.Perm refs' := by
  have hitems {refs : List (String × UInt32)} (hclear : ∀ ref ∈ refs, ClearRef ref.1) :
      ∀ x ∈ refs.map fun ref => refAt ref.1 ref.2, IsRefAt x.toList := by
    intro x hx
    obtain ⟨ref, href, rfl⟩ := List.mem_map.mp hx
    exact ⟨ref.1, ref.2, hclear ref href, rfl⟩
  have hinj : Function.Injective fun ref : String × UInt32 => refAt ref.1 ref.2 := by
    intro ref ref' heq
    obtain ⟨href, hstart⟩ := refAt_inj heq
    exact Prod.ext href hstart
  exact (List.map_perm_map_iff hinj).mp
    (perm_of_joinSorted separable_refAt not_isRefAt_nil (hitems hclear) (hitems hclear') h)

/-- A word that ends in neither a digit nor `@` is in such an item only if it is
in the reference. -/
theorem infix_of_refAt {init : List Char} {c : Char} {ref : String} {start : UInt32}
    (hc : c.isDigit = false) (hat : c ≠ '@') (h : init ++ [c] <:+: (refAt ref start).toList) :
    init ++ [c] <:+: ref.toList := by
  rw [refAt_toList] at h
  refine word_infix_front ?_ h
  simpa [hat] using not_mem_toDigits hc start.toNat

/-! ## Names -/

/-- Names that a comma separates. -/
def NoComma (names : List String) : Prop := ∀ name ∈ names, ',' ∉ name.toList

/-- Joined names determine the names. -/
theorem perm_of_names {names names' : List String} (hcomma : NoComma names)
    (hcomma' : NoComma names') (hne : "" ∉ names) (hne' : "" ∉ names')
    (h : joinSorted names = joinSorted names') : names.Perm names' := by
  have hitems {names : List String} (hcomma : NoComma names) (hne : "" ∉ names) :
      ∀ x ∈ names, ',' ∉ x.toList ∧ x.toList ≠ [] := by
    intro x hx
    refine ⟨hcomma x hx, fun hnil => hne ?_⟩
    rwa [String.toList_inj.mp (hnil.trans String.toList_empty.symm)] at hx
  have hsep : Separable ',' fun x => ',' ∉ x ∧ x ≠ [] :=
    fun x y z w t t' hx hy hz => separable_of_not_mem ',' x y z w t t' hx.1 hy.1 hz.1
  exact perm_of_joinSorted hsep (fun hnil => hnil.2 rfl) (hitems hcomma hne) (hitems hcomma' hne') h

/-! ## The fields of each type -/

/-- The identity fields a secondary key encodes, and the elements none of whose
names holds a separator that the key relies on. -/
class KeyFields (T : Type) where
  SameFields : T → T → Prop
  Clear : T → Prop

export KeyFields (SameFields Clear)

/-- The baudrate as the key writes it. -/
def baudText (baudrate : Option UInt32) : String :=
  match baudrate with
  | some baudrate => toString baudrate.toNat
  | none => "-"

instance : KeyFields Cluster where
  SameFields old new := old.baudrate = new.baudrate ∧ old.physicalChannels.Perm new.physicalChannels
  Clear cluster := NoComma cluster.physicalChannels

instance : KeyFields EcuInstance where
  SameFields old new :=
    old.connectedChannels.Perm new.connectedChannels ∧ old.controllers.Perm new.controllers
  Clear ecu := NoComma ecu.connectedChannels ∧ NoComma ecu.controllers ∧
    ∀ name ∈ ecu.controllers, ¬ "|ctrl:".toList <:+: name.toList

/-- The PDUs a frame maps, with their start positions. -/
def Frame.mappedPdus (frame : Frame) : List (String × UInt32) :=
  frame.pdus.map fun mapping => (mapping.pduShortNameRef, mapping.startPosition)

instance : KeyFields Frame where
  SameFields old new := old.length = new.length ∧ old.transmitters.Perm new.transmitters ∧
    old.mappedPdus.Perm new.mappedPdus
  Clear frame := NoComma frame.transmitters ∧ ∀ mapped ∈ frame.mappedPdus,
    ClearRef mapped.1 ∧ ¬ "|pdu:".toList <:+: mapped.1.toList

/-- The signals a PDU maps, with their start positions. -/
def Pdu.mappedSignals (pdu : Pdu) : List (String × UInt32) :=
  pdu.signalMappings.map fun mapping => (mapping.signalShortNameRef, mapping.startPosition)

instance : KeyFields Pdu where
  SameFields old new := old.length = new.length ∧ old.mappedSignals.Perm new.mappedSignals
  Clear pdu := ∀ mapped ∈ pdu.mappedSignals, ClearRef mapped.1

instance {D : Type} [Double D] : KeyFields (Signal D) where
  SameFields old new := old.startBit = new.startBit ∧ old.bitLength = new.bitLength ∧
    old.byteOrder = new.byteOrder ∧ old.receivers.Perm new.receivers
  Clear signal := NoComma signal.receivers

instance : KeyFields SignalGroup where
  SameFields old new := old.members.Perm new.members
  Clear group := NoComma group.members

/-! ## Equal keys -/

theorem bar_not_mem_number (n : Nat) : '|' ∉ (toString n).toList := by
  rw [toList_toString_nat]
  exact not_mem_toDigits (by decide) n

theorem bar_not_mem_baudText (baudrate : Option UInt32) : '|' ∉ (baudText baudrate).toList := by
  cases baudrate with
  | none => decide
  | some baudrate => exact bar_not_mem_number _

theorem number_inj {a b : UInt32} (h : (toString a.toNat).toList = (toString b.toNat).toList) :
    a = b :=
  UInt32.toNat_inj.mp (toString_nat_inj (String.toList_inj.mp h))

theorem baudText_inj {a b : Option UInt32} (h : (baudText a).toList = (baudText b).toList) :
    a = b := by
  have hdash (n : Nat) : (toString n).toList ≠ "-".toList := by
    intro heq
    rw [toList_toString_nat] at heq
    have hmem : '-' ∈ Nat.toDigits 10 n := by
      rw [heq]
      decide
    exact not_mem_toDigits (by decide) n hmem
  cases a with
  | none =>
    cases b with
    | none => rfl
    | some b => exact absurd h.symm (hdash _)
  | some a =>
    cases b with
    | none => exact absurd h (hdash _)
    | some b => rw [number_inj h]

/-- A field without `|` and what follows its label are told from the text. -/
theorem before_label {x x' y y' label : List Char} (hlabel : label.head? = some '|')
    (hx : '|' ∉ x) (hx' : '|' ∉ x') (h : x ++ (label ++ y) = x' ++ (label ++ y')) :
    x = x' ∧ y = y' := by
  cases label with
  | nil => cases hlabel
  | cons c label =>
    obtain rfl : c = '|' := Option.some.inj hlabel
    obtain ⟨hfield, hrest⟩ := split_first_unique hx hx' h
    exact ⟨hfield, List.append_cancel_left hrest⟩

theorem secondaryKey_cluster (cluster : Cluster) : secondaryKey cluster =
    some ("baud:" ++ baudText cluster.baudrate ++ "|ch:" ++
      joinSorted cluster.physicalChannels) := rfl

theorem sameFields_of_cluster_key {old new : Cluster} (hold : Clear old) (hnew : Clear new)
    (hne : "" ∉ old.physicalChannels) (hne' : "" ∉ new.physicalChannels)
    (h : secondaryKey old = secondaryKey new) : SameFields old new := by
  rw [secondaryKey_cluster, secondaryKey_cluster, Option.some.injEq] at h
  have htext := congrArg String.toList h
  simp only [String.toList_append, List.append_assoc, List.append_cancel_left_eq] at htext
  obtain ⟨hbaud, hch⟩ := before_label (by decide) (bar_not_mem_baudText _)
    (bar_not_mem_baudText _) htext
  exact ⟨baudText_inj hbaud, perm_of_names hold hnew hne hne' (String.toList_inj.mp hch)⟩

theorem secondaryKey_ecu (ecu : EcuInstance) : secondaryKey ecu =
    some ("ch:" ++ joinSorted ecu.connectedChannels ++ "|ctrl:" ++
      joinSorted ecu.controllers) := rfl

theorem sameFields_of_ecu_key {old new : EcuInstance} (hold : Clear old) (hnew : Clear new)
    (hne : "" ∉ old.connectedChannels ∧ "" ∉ old.controllers)
    (hne' : "" ∉ new.connectedChannels ∧ "" ∉ new.controllers)
    (h : secondaryKey old = secondaryKey new) : SameFields old new := by
  obtain ⟨hch, hctrl, hword⟩ := hold
  obtain ⟨hch', hctrl', hword'⟩ := hnew
  rw [secondaryKey_ecu, secondaryKey_ecu, Option.some.injEq] at h
  have htext := congrArg String.toList h
  simp only [String.toList_append, List.append_assoc, List.append_cancel_left_eq] at htext
  have hchannels := @before_word_unique _ ':' "|ctrl".toList _ _ _ _ (by decide)
    (not_infix_joinSorted (by decide) (by decide) hword)
    (not_infix_joinSorted (by decide) (by decide) hword') htext
  rw [hchannels] at htext
  have hcontrollers := List.append_cancel_left (List.append_cancel_left htext)
  exact ⟨perm_of_names hch hch' hne.1 hne'.1 (String.toList_inj.mp hchannels),
    perm_of_names hctrl hctrl' hne.2 hne'.2 (String.toList_inj.mp hcontrollers)⟩

theorem secondaryKey_frame (frame : Frame) : secondaryKey frame =
    some ("len:" ++ toString frame.length.toNat ++ "|tx:" ++ joinSorted frame.transmitters ++
      "|pdu:" ++ joinSorted (frame.mappedPdus.map fun ref => refAt ref.1 ref.2)) := by
  rw [Frame.mappedPdus, List.map_map]
  rfl

theorem sameFields_of_frame_key {old new : Frame} (hold : Clear old) (hnew : Clear new)
    (hne : "" ∉ old.transmitters) (hne' : "" ∉ new.transmitters)
    (h : secondaryKey old = secondaryKey new) : SameFields old new := by
  obtain ⟨htx, hpdus⟩ := hold
  obtain ⟨htx', hpdus'⟩ := hnew
  have hword {refs : List (String × UInt32)}
      (h : ∀ ref ∈ refs, ClearRef ref.1 ∧ ¬ "|pdu:".toList <:+: ref.1.toList) :
      ¬ "|pdu".toList ++ [':'] <:+: (joinSorted (refs.map fun ref => refAt ref.1 ref.2)).toList := by
    refine not_infix_joinSorted (by decide) (by decide) fun x hx hin => ?_
    obtain ⟨ref, href, rfl⟩ := List.mem_map.mp hx
    exact (h ref href).2 (infix_of_refAt (by decide) (by decide) hin)
  rw [secondaryKey_frame, secondaryKey_frame, Option.some.injEq] at h
  have htext := congrArg String.toList h
  simp only [String.toList_append, List.append_assoc, List.append_cancel_left_eq] at htext
  obtain ⟨hlength, hrest⟩ := before_label (by decide) (bar_not_mem_number _)
    (bar_not_mem_number _) htext
  have htransmitters := before_word_unique (by decide) (hword hpdus) (hword hpdus') hrest
  rw [htransmitters] at hrest
  have hmapped := List.append_cancel_left (List.append_cancel_left hrest)
  exact ⟨number_inj hlength,
    perm_of_names htx htx' hne hne' (String.toList_inj.mp htransmitters),
    perm_of_refsAt (fun ref href => (hpdus ref href).1) (fun ref href => (hpdus' ref href).1)
      (String.toList_inj.mp hmapped)⟩

theorem secondaryKey_pdu (pdu : Pdu) : secondaryKey pdu =
    some ("len:" ++ toString pdu.length.toNat ++ "|sig:" ++
      joinSorted (pdu.mappedSignals.map fun ref => refAt ref.1 ref.2)) := by
  rw [Pdu.mappedSignals, List.map_map]
  rfl

theorem sameFields_of_pdu_key {old new : Pdu} (hold : Clear old) (hnew : Clear new)
    (h : secondaryKey old = secondaryKey new) : SameFields old new := by
  rw [secondaryKey_pdu, secondaryKey_pdu, Option.some.injEq] at h
  have htext := congrArg String.toList h
  simp only [String.toList_append, List.append_assoc, List.append_cancel_left_eq] at htext
  obtain ⟨hlength, hmapped⟩ := before_label (by decide) (bar_not_mem_number _)
    (bar_not_mem_number _) htext
  exact ⟨number_inj hlength, perm_of_refsAt hold hnew (String.toList_inj.mp hmapped)⟩

section
variable {D : Type} [Double D]

/-- The byte order as the key writes it. -/
def orderText (byteOrder : ByteOrder) : String :=
  if byteOrder = .mostSignificantByteFirst then "M" else "L"

theorem secondaryKey_signal (signal : Signal D) : secondaryKey signal =
    some ("start:" ++ toString signal.startBit.toNat ++ "|len:" ++
      toString signal.bitLength.toNat ++ "|order:" ++ orderText signal.byteOrder ++ "|rx:" ++
      joinSorted signal.receivers) := rfl

theorem sameFields_of_signal_key {old new : Signal D} (hold : Clear old) (hnew : Clear new)
    (hne : "" ∉ old.receivers) (hne' : "" ∉ new.receivers)
    (h : secondaryKey old = secondaryKey new) : SameFields old new := by
  have hbar (order : ByteOrder) : '|' ∉ (orderText order).toList := by cases order <;> decide
  have horder {a b : ByteOrder} (h : (orderText a).toList = (orderText b).toList) : a = b := by
    cases a <;> cases b <;> first | rfl | exact absurd h (by decide)
  rw [secondaryKey_signal, secondaryKey_signal, Option.some.injEq] at h
  have htext := congrArg String.toList h
  simp only [String.toList_append, List.append_assoc, List.append_cancel_left_eq] at htext
  obtain ⟨hstart, hrest⟩ := before_label (by decide) (bar_not_mem_number _)
    (bar_not_mem_number _) htext
  obtain ⟨hlength, hrest⟩ := before_label (by decide) (bar_not_mem_number _)
    (bar_not_mem_number _) hrest
  obtain ⟨hbyteOrder, hreceivers⟩ := before_label (by decide) (hbar _) (hbar _) hrest
  exact ⟨number_inj hstart, number_inj hlength, horder hbyteOrder,
    perm_of_names hold hnew hne hne' (String.toList_inj.mp hreceivers)⟩

end

theorem secondaryKey_group (group : SignalGroup) : secondaryKey group =
    some ("m:" ++ joinSorted group.members) := rfl

theorem sameFields_of_group_key {old new : SignalGroup} (hold : Clear old) (hnew : Clear new)
    (hne : "" ∉ old.members) (hne' : "" ∉ new.members)
    (h : secondaryKey old = secondaryKey new) : SameFields old new := by
  rw [secondaryKey_group, secondaryKey_group, Option.some.injEq] at h
  have htext := congrArg String.toList h
  simp only [String.toList_append, List.append_cancel_left_eq] at htext
  exact perm_of_names hold hnew hne hne' (String.toList_inj.mp htext)

/-! ## Elements of the parser -/

/-- Equal identity fields give equal keys, and equal keys of clear elements come
from equal identity fields. -/
def KeysIdentify {T : Type} [SecondaryKey T] [KeyFields T] (olds news : List T) : Prop :=
  ∀ old ∈ olds, ∀ new ∈ news, (SameFields old new → secondaryKey old = secondaryKey new) ∧
    (Clear old → Clear new → secondaryKey old = secondaryKey new → SameFields old new)

theorem not_mem_refShortNames (node : RawNode) (refTag : String) :
    "" ∉ refShortNames node refTag :=
  fun h => (refShortNames_spec h).2 rfl

theorem not_mem_directShortNames (nodes nodes' : List RawNode) :
    "" ∉ directShortNames nodes ++ directShortNames nodes' := by
  intro h
  rcases List.mem_append.mp h with h | h
  · exact (directShortNames_spec h).2 rfl
  · exact (directShortNames_spec h).2 rfl

section
variable {D : Type} [Double D]

/-- The secondary keys of what the parser builds identify their fields. -/
theorem secondaryKey_identifies {oldProject newProject : ParsedProject D}
    (hold : ∀ file ∈ oldProject.files, ParserOutput file)
    (hnew : ∀ file ∈ newProject.files, ParserOutput file) :
    KeysIdentify (collectAll oldProject ParsedFile.clusters)
      (collectAll newProject ParsedFile.clusters) ∧
    KeysIdentify (collectAll oldProject ParsedFile.ecuInstances)
      (collectAll newProject ParsedFile.ecuInstances) ∧
    KeysIdentify (collectAll oldProject ParsedFile.frames)
      (collectAll newProject ParsedFile.frames) ∧
    KeysIdentify (collectAll oldProject ParsedFile.pdus)
      (collectAll newProject ParsedFile.pdus) ∧
    KeysIdentify (collectAll oldProject ParsedFile.signals)
      (collectAll newProject ParsedFile.signals) ∧
    KeysIdentify (collectAll oldProject ParsedFile.signalGroups)
      (collectAll newProject ParsedFile.signalGroups) := by
  refine ⟨?_, ?_, ?_, ?_, ?_, ?_⟩
  · intro old hmem new hmem'
    obtain ⟨node, rfl⟩ := exists_build (fun _ _ h => h.clusters) hold hmem
    obtain ⟨node', rfl⟩ := exists_build (fun _ _ h => h.clusters) hnew hmem'
    refine ⟨fun ⟨hbaud, hch⟩ => ?_, fun hclear hclear' => sameFields_of_cluster_key hclear hclear'
      (not_mem_directShortNames _ _) (not_mem_directShortNames _ _)⟩
    rw [secondaryKey_cluster, secondaryKey_cluster, hbaud, joinSorted_perm hch]
  · intro old hmem new hmem'
    obtain ⟨node, rfl⟩ := exists_build (fun _ _ h => h.ecuInstances) hold hmem
    obtain ⟨node', rfl⟩ := exists_build (fun _ _ h => h.ecuInstances) hnew hmem'
    have hne (node : RawNode) : "" ∉ (buildEcuInstance node).1.connectedChannels ∧
        "" ∉ (buildEcuInstance node).1.controllers :=
      ⟨not_mem_refShortNames _ _, not_mem_directShortNames _ _⟩
    refine ⟨fun ⟨hch, hctrl⟩ => ?_, fun hclear hclear' => sameFields_of_ecu_key hclear hclear'
      (hne node) (hne node')⟩
    rw [secondaryKey_ecu, secondaryKey_ecu, joinSorted_perm hch, joinSorted_perm hctrl]
  · intro old hmem new hmem'
    obtain ⟨node, rfl⟩ := exists_build (fun _ _ h => h.frames) hold hmem
    obtain ⟨node', rfl⟩ := exists_build (fun _ _ h => h.frames) hnew hmem'
    refine ⟨fun ⟨hlength, htx, hpdus⟩ => ?_, fun hclear hclear' => sameFields_of_frame_key hclear
      hclear' (not_mem_refShortNames _ _) (not_mem_refShortNames _ _)⟩
    rw [secondaryKey_frame, secondaryKey_frame, hlength, joinSorted_perm htx,
      joinSorted_perm (hpdus.map _)]
  · intro old hmem new hmem'
    refine ⟨fun ⟨hlength, hsignals⟩ => ?_, sameFields_of_pdu_key⟩
    rw [secondaryKey_pdu, secondaryKey_pdu, hlength, joinSorted_perm (hsignals.map _)]
  · intro old hmem new hmem'
    obtain ⟨node, rfl⟩ := exists_build (fun _ _ h => h.signals) hold hmem
    obtain ⟨node', rfl⟩ := exists_build (fun _ _ h => h.signals) hnew hmem'
    refine ⟨fun ⟨hstart, hlength, horder, hrx⟩ => ?_, fun hclear hclear' =>
      sameFields_of_signal_key hclear hclear' (not_mem_refShortNames _ _)
        (not_mem_refShortNames _ _)⟩
    rw [secondaryKey_signal, secondaryKey_signal, hstart, hlength, horder, joinSorted_perm hrx]
  · intro old hmem new hmem'
    obtain ⟨node, rfl⟩ := exists_build (fun _ _ h => h.signalGroups) hold hmem
    obtain ⟨node', rfl⟩ := exists_build (fun _ _ h => h.signalGroups) hnew hmem'
    have hne (node : RawNode) : "" ∉ (buildSignalGroup node).1.members := fun h =>
      (List.mem_append.mp h).elim (not_mem_refShortNames _ _) (not_mem_refShortNames _ _)
    refine ⟨fun hmembers => ?_, fun hclear hclear' => sameFields_of_group_key hclear hclear'
      (hne node) (hne node')⟩
    rw [secondaryKey_group, secondaryKey_group, joinSorted_perm hmembers]

end

/-! ## An instance -/

/-- A node whose children hold the texts. -/
def nodeOfTexts (tagName : String) (texts : List (String × String)) : RawNode :=
  { tagName := tagName
    children := texts.map fun (childTag, text) => { tagName := childTag, text := text } }

/-- An ECU with one channel reference and one controller. -/
def ecuNode (channel controller : String) : RawNode :=
  { tagName := "ECU-INSTANCE"
    children := [{ tagName := "CHANNEL-REF", text := channel },
      nodeOfTexts "CAN-CONTROLLER" [("SHORT-NAME", controller)]] }

/-- A document with a cluster, a signal and a group over the names, a frame and
a PDU over the references, and the ECU. -/
def documentOfNames (names refs : List String) (ecu : RawNode) : RawNode :=
  { tagName := "AUTOSAR"
    attributes := [("xsi:schemaLocation", "http://autosar.org/schema/r4.0 AUTOSAR_00046.xsd")]
    children := [
      { tagName := "CLUSTER"
        children := names.map fun name => nodeOfTexts "PHYSICAL-CHANNEL" [("SHORT-NAME", name)] },
      ecu,
      { tagName := "FRAME"
        children := refs.map fun ref => nodeOfTexts "FRAME-PDU" [("PDU-REF", ref)] },
      { tagName := "PDU"
        children := refs.map fun ref => nodeOfTexts "PDU-SIGNAL-MAPPING" [("SIGNAL-REF", ref)] },
      nodeOfTexts "SYSTEM-SIGNAL" (names.map fun name => ("RECEIVER-REF", name)),
      nodeOfTexts "SIGNAL-GROUP" (names.map fun name => ("I-SIGNAL-REF", name))] }

def projectOfNames (names refs : List String) (ecu : RawNode) : ParsedProject WholeDouble :=
  { files := (parseDocument "<buffer>" (documentOfNames names refs ecu)).toOption.toList }

theorem parsed_of_names (names refs : List String) (ecu : RawNode) :
    ∀ file ∈ (projectOfNames names refs ecu).files, ParserOutput file :=
  fun _ => @parserOutput_of_document _ _ "<buffer>" (documentOfNames names refs ecu) _

/-- Two elements of the lists agree in their keys or in their fields, not in both. -/
def KeysCollide {T : Type} [SecondaryKey T] [KeyFields T] (olds news : List T) : Prop :=
  ∃ old ∈ olds, ∃ new ∈ news, ¬ (secondaryKey old = secondaryKey new ↔ SameFields old new)

theorem keysCollide_of_singletons {T : Type} [SecondaryKey T] [KeyFields T] {olds news : List T}
    {old new : T} (hold : olds = [old]) (hnew : news = [new])
    (hkey : secondaryKey old = secondaryKey new) (hfields : ¬ SameFields old new) :
    KeysCollide olds news :=
  ⟨old, by simp [hold], new, by simp [hnew], fun h => hfields (h.mp hkey)⟩

/-- A name with a separator in it and two names share keys in every type. -/
theorem secondaryKey_collides :
    let one := projectOfNames ["A,B"] ["A@0,B"] (ecuNode "C|ctrl:D" "E")
    let two := projectOfNames ["A", "B"] ["A", "B"] (ecuNode "C" "D|ctrl:E")
    (∀ file ∈ one.files, ParserOutput file) ∧ (∀ file ∈ two.files, ParserOutput file) ∧
      KeysCollide (collectAll one ParsedFile.clusters) (collectAll two ParsedFile.clusters) ∧
      KeysCollide (collectAll one ParsedFile.ecuInstances)
        (collectAll two ParsedFile.ecuInstances) ∧
      KeysCollide (collectAll one ParsedFile.frames) (collectAll two ParsedFile.frames) ∧
      KeysCollide (collectAll one ParsedFile.pdus) (collectAll two ParsedFile.pdus) ∧
      KeysCollide (collectAll one ParsedFile.signals) (collectAll two ParsedFile.signals) ∧
      KeysCollide (collectAll one ParsedFile.signalGroups)
        (collectAll two ParsedFile.signalGroups) := by
  refine ⟨parsed_of_names _ _ _, parsed_of_names _ _ _, ?_, ?_, ?_, ?_, ?_, ?_⟩
  · exact keysCollide_of_singletons rfl rfl (by decide +kernel)
      fun h => absurd h.2 (by decide +kernel)
  · exact keysCollide_of_singletons rfl rfl (by decide +kernel)
      fun h => absurd h.2 (by decide +kernel)
  · exact keysCollide_of_singletons rfl rfl (by decide +kernel)
      fun h => absurd h.2.2 (by decide +kernel)
  · exact keysCollide_of_singletons rfl rfl (by decide +kernel)
      fun h => absurd h.2 (by decide +kernel)
  · exact keysCollide_of_singletons rfl rfl (by decide +kernel)
      fun h => absurd h.2.2.2 (by decide +kernel)
  · exact keysCollide_of_singletons rfl rfl (by decide +kernel)
      fun h => absurd (List.Perm.length_eq h) (by decide +kernel)

/-- Two documents that list the same plain names in different orders. -/
theorem secondaryKey_identifies_reordered :
    let one := projectOfNames ["A", "B"] ["A", "B"] (ecuNode "C" "E")
    let two := projectOfNames ["B", "A"] ["B", "A"] (ecuNode "C" "E")
    ∀ old ∈ collectAll one ParsedFile.signals, ∀ new ∈ collectAll two ParsedFile.signals,
      Clear old ∧ Clear new ∧ (secondaryKey old = secondaryKey new ↔ SameFields old new) := by
  intro one two old hold new hnew
  have hclear : ∀ signal ∈ collectAll one ParsedFile.signals ++ collectAll two ParsedFile.signals,
      ∀ name ∈ signal.receivers, ',' ∉ name.toList := by decide +kernel
  have hclear' := hclear new (List.mem_append_right _ hnew)
  have hclear := hclear old (List.mem_append_left _ hold)
  have hkeys := (secondaryKey_identifies (parsed_of_names _ _ _)
    (parsed_of_names _ _ _)).2.2.2.2.1 old hold new hnew
  exact ⟨hclear, hclear', hkeys.2 hclear hclear', hkeys.1⟩

end ParseX

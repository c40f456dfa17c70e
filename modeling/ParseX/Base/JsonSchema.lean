import Mathlib.Algebra.Order.Ring.Rat
import ParseX.Base.JsonRead

/-! # JSON schemas

A schema as the test it makes of a value, with one definition for each keyword. Several
keywords in one schema are tests of their own; a keyword says nothing about the values of
other types than its own. -/
namespace ParseX.JsonSchema
open Cpp

abbrev Schema := Json → Bool

/-! ## Keywords -/

inductive JsonType where
  | null
  | boolean
  | integer
  | number
  | string
  | array
  | object
  deriving DecidableEq, Repr

/-- The number that the bits of a double stand for, none for infinities and NaNs. -/
def doubleValue (bits : UInt64) : Option ℚ :=
  let exponent := (bits.toNat / 2 ^ 52) % 2 ^ 11
  let fraction := bits.toNat % 2 ^ 52
  let units : Nat := if exponent = 0 then fraction * 2 else (2 ^ 52 + fraction) * 2 ^ exponent
  let magnitude : ℚ := units / 2 ^ 1075
  if exponent = 2047 then none
  else some (if 2 ^ 63 ≤ bits.toNat then -magnitude else magnitude)

/-- A double without a fraction is an integer too. -/
def hasType : JsonType → Json → Bool
  | .null, .null => true
  | .boolean, .boolean _ => true
  | .integer, .integer _ => true
  | .integer, .double bits => (doubleValue bits).any fun value => value.den == 1
  | .number, .integer _ => true
  | .number, .double _ => true
  | .string, .string _ => true
  | .array, .array _ => true
  | .object, .object _ => true
  | _, _ => false

def type (types : List JsonType) : Schema := fun value => types.any (hasType · value)

def allOf (schemas : List Schema) : Schema := fun value => schemas.all (· value)

/-- `if` and `then`. -/
def ifThen (condition consequence : Schema) : Schema := fun value =>
  !condition value || consequence value

def enum (texts : List String) : Schema := fun value =>
  match value with
  | .string bytes => texts.any fun text => utf8 text == bytes
  | _ => false

def const (text : String) : Schema := enum [text]

/-- The length of a text is the number of its characters. -/
def minLength (length : Nat) : Schema := fun value =>
  match value with
  | .string bytes => decide (length ≤ bytes.countP fun byte => decide byte.IsUTF8FirstByte)
  | _ => true

def minimum (bound : Int) : Schema := fun value =>
  match value with
  | .integer number => decide (bound ≤ number)
  | .double bits => (doubleValue bits).all fun number => decide ((bound : ℚ) ≤ number)
  | _ => true

/-- The three numbers with dots between them of `^\d+\.\d+\.\d+$`. -/
def isDotted : Nat → Bytes → Bool
  | 0, _ => false
  | numbers + 1, bytes =>
    let rest := bytes.dropWhile isDigitByte
    rest.length < bytes.length &&
      match rest with
      | [] => numbers == 0
      | byte :: rest => byte == '.'.toUInt8 && isDotted numbers rest
where
  isDigitByte (byte : UInt8) : Bool := '0'.toUInt8 ≤ byte && byte ≤ '9'.toUInt8

/-- The one pattern in use. -/
def versionPattern : Schema := fun value =>
  match value with
  | .string bytes => isDotted 3 bytes
  | _ => true

def items (schema : Schema) : Schema := fun value =>
  match value with
  | .array items => items.all schema
  | _ => true

def properties (properties : List (String × Schema)) : Schema := fun value =>
  properties.all fun property => (value.member? property.1).all property.2

def required (names : List String) : Schema := fun value =>
  match value with
  | .object _ => names.all fun name => (value.member? name).isSome
  | _ => true

/-- What the members without a property of their own have to meet. -/
def additionalProperties (names : List String) (schema : Schema) : Schema := fun value =>
  match value with
  | .object members =>
    members.all fun member => names.any (fun name => utf8 name == member.1) || schema member.2
  | _ => true

/-- `"additionalProperties": false`. -/
def nothing : Schema := fun _ => false

/-- An object with these properties and no others. -/
def closedObject (list : List (String × Schema)) (names : List String) : Schema :=
  allOf [type [.object], properties list, required names,
    additionalProperties (list.map Prod.fst) nothing]

/-- An array of such values. -/
def arrayOf (schema : Schema) : Schema := allOf [type [.array], items schema]

/-- A text of at least so many characters. -/
def textOf (length : Nat) : Schema := allOf [type [.string], minLength length]

/-- An integer from a bound on. -/
def integerFrom (bound : Int) : Schema := allOf [type [.integer], minimum bound]

/-! ## Objects that were put together -/

theorem members_insertMember {key : Bytes} {value : Json} {members : List (Bytes × Json)}
    {member : Bytes × Json} (h : member ∈ Json.insertMember key value members) :
    member.1 = key ∨ member.1 ∈ members.map Prod.fst := by
  rcases Json.mem_insertMember h with rfl | hold
  · exact .inl rfl
  · exact .inr (List.mem_map_of_mem hold)

/-- The keys of an object are those of the members it was made of. -/
theorem keys_ofMembers (list : List (String × Json)) : ∃ members,
    Json.ofMembers list = .object members ∧
      ∀ member ∈ members, ∃ entry ∈ list, utf8 entry.1 = member.1 := by
  have hfold : ∀ (start : List (Bytes × Json)), ∃ members,
      list.foldl (fun (value : Json) member => value.set member.1 member.2) (.object start) =
          Json.object members ∧
        ∀ member ∈ members, member.1 ∈ start.map Prod.fst ∨ ∃ entry ∈ list, utf8 entry.1 = member.1 := by
    induction list with
    | nil => exact fun start => ⟨start, rfl, fun member h => .inl (List.mem_map_of_mem h)⟩
    | cons entry list ih =>
      intro start
      obtain ⟨members, heq, hkeys⟩ := ih (Json.insertMember (utf8 entry.1) entry.2 start)
      refine ⟨members, heq, fun member hmember => ?_⟩
      rcases hkeys member hmember with hstart | ⟨other, hother, hkey⟩
      · obtain ⟨old, hold, hkey⟩ := List.mem_map.mp hstart
        rcases members_insertMember hold with hnew | hbefore
        · exact .inr ⟨entry, List.mem_cons_self .., by rw [← hnew, hkey]⟩
        · exact .inl (hkey ▸ hbefore)
      · exact .inr ⟨other, List.mem_cons_of_mem _ hother, hkey⟩
  obtain ⟨members, heq, hkeys⟩ := hfold []
  refine ⟨members, heq, fun member hmember => ?_⟩
  rcases hkeys member hmember with hnone | hentry
  · cases hnone
  · exact hentry

theorem mem_of_lookup {α : Type} {list : List (String × α)} {name : String} {value : α}
    (h : list.lookup name = some value) : (name, value) ∈ list := by
  obtain ⟨before, after, rfl, -⟩ := List.lookup_eq_some_iff.mp h
  exact List.mem_append_right _ (List.mem_cons_self ..)

/-- The members are found under the names of the properties, and each that is present meets its
schema. -/
def Fits (members : List (String × Option Json)) : List (String × Schema) → Prop
  | [] => True
  | property :: list =>
    (∃ value, members.lookup property.1 = some value ∧ value.all property.2 = true) ∧ Fits members list

theorem Fits.property {members : List (String × Option Json)} {list : List (String × Schema)}
    (h : Fits members list) {property : String × Schema} (hproperty : property ∈ list) :
    ∃ value, (property.1, value) ∈ members ∧ value.all property.2 = true := by
  induction list with
  | nil => cases hproperty
  | cons first list ih =>
    obtain ⟨⟨value, hvalue, hall⟩, hlist⟩ := h
    rcases List.mem_cons.mp hproperty with rfl | hproperty
    · exact ⟨value, mem_of_lookup hvalue, hall⟩
    · exact ih hlist hproperty

/-- An object of these members meets a closed schema when the members fit its properties and none
that is required is absent. -/
theorem closedObject_ofPresent {list : List (String × Schema)} {names : List String}
    {members : List (String × Option Json)} (hdistinct : ((members.map Prod.fst).map utf8).Nodup)
    (hknown : members.map Prod.fst ⊆ list.map Prod.fst)
    (hrequired : (names.all fun name => (members.lookup name).join.isSome) = true)
    (hfits : Fits members list) : closedObject list names (Json.ofPresent members) = true := by
  obtain ⟨sorted, hsorted, hkeys⟩ :=
    keys_ofMembers (members.filterMap fun member => member.2.map (member.1, ·))
  have hobject : Json.ofPresent members = .object sorted := hsorted
  have hproperties : properties list (Json.ofPresent members) = true := by
    refine List.all_eq_true.mpr fun property hproperty => ?_
    obtain ⟨value, hmember, hvalue⟩ := hfits.property hproperty
    rw [Json.member?_ofPresent hdistinct hmember]
    exact hvalue
  have hnames : required names (Json.ofPresent members) = true := by
    have hall : (names.all fun name => ((Json.ofPresent members).member? name).isSome) = true := by
      refine List.all_eq_true.mpr fun name hname => ?_
      have hjoin := List.all_eq_true.mp hrequired name hname
      cases hlookup : members.lookup name with
      | none =>
        rw [hlookup] at hjoin
        cases hjoin
      | some value =>
        rw [Json.member?_ofPresent hdistinct (mem_of_lookup hlookup)]
        rwa [hlookup] at hjoin
    rw [hobject] at hall ⊢
    exact hall
  have hclosed : additionalProperties (list.map Prod.fst) nothing (Json.ofPresent members) = true := by
    rw [hobject]
    refine List.all_eq_true.mpr fun member hmember => ?_
    obtain ⟨entry, hentry, hkey⟩ := hkeys member hmember
    obtain ⟨⟨name, value⟩, hin, hpresent⟩ := List.mem_filterMap.mp hentry
    obtain ⟨written, -, rfl⟩ := Option.map_eq_some_iff.mp hpresent
    have hany : ((list.map Prod.fst).any fun name => utf8 name == member.1) = true :=
      List.any_eq_true.mpr ⟨name, hknown (List.mem_map_of_mem hin), beq_iff_eq.mpr hkey⟩
    rw [hany, Bool.true_or]
  have htype : type [.object] (Json.ofPresent members) = true := by
    rw [hobject]
    rfl
  simp only [closedObject, allOf, List.all_cons, List.all_nil, Bool.and_true, Bool.and_eq_true]
  exact ⟨htype, hproperties, hnames, hclosed⟩

/-! ## Values that were written -/

theorem arrayOf_map {α : Type} {schema : Schema} {write : α → Json} {list : List α}
    (h : ∀ item ∈ list, schema (write item) = true) :
    arrayOf schema (.array (list.map write)) = true := by
  have hitems : items schema (.array (list.map write)) = true := by
    refine List.all_eq_true.mpr fun value hvalue => ?_
    obtain ⟨item, hitem, rfl⟩ := List.mem_map.mp hvalue
    exact h item hitem
  simp only [arrayOf, allOf, List.all_cons, List.all_nil, Bool.and_true, Bool.and_eq_true]
  exact ⟨rfl, hitems⟩

theorem textOf_one {string : String} (h : string ≠ "") : textOf 1 (.text string) = true := by
  have hlist : string.toList ≠ [] := fun hnil => h (String.toList_eq_nil_iff.mp hnil)
  obtain ⟨c, rest, hcons⟩ := List.exists_cons_of_ne_nil hlist
  have hpos : 0 < (String.utf8EncodeChar c).length := by
    rw [String.length_utf8EncodeChar]
    exact c.utf8Size_pos
  have hmem : (String.utf8EncodeChar c)[0] ∈ utf8 string := by
    rw [utf8, hcons, List.flatMap_cons]
    exact List.mem_append_left _ (List.getElem_mem hpos)
  have hcount : 1 ≤ (utf8 string).countP fun byte => decide byte.IsUTF8FirstByte :=
    List.countP_pos_iff.mpr ⟨_, hmem, decide_eq_true UInt8.isUTF8FirstByte_getElem_zero_utf8EncodeChar⟩
  simp [textOf, allOf, type, hasType, minLength, Json.text, hcount]

theorem integerFrom_natCast {bound : Int} (number : Nat) (h : bound ≤ number) :
    integerFrom bound (.integer number) = true := by
  simp [integerFrom, allOf, type, hasType, minimum, h]

theorem enum_text {texts : List String} {text : String} (h : text ∈ texts) :
    enum texts (.text text) = true :=
  List.any_eq_true.mpr ⟨text, h, beq_self_eq_true _⟩

/-- A text that meets a keyword of texts. -/
theorem typed_text {schema : Schema} {string : String} (h : schema (.text string) = true) :
    allOf [type [.string], schema] (.text string) = true := by
  simp only [allOf, List.all_cons, List.all_nil, Bool.and_true, Bool.and_eq_true]
  exact ⟨rfl, h⟩

/-! ## Values that meet a schema -/

section
variable {value : Json}

theorem closedObject_parts {list : List (String × Schema)} {names : List String}
    (h : closedObject list names value = true) :
    (∃ members, value = .object members) ∧
      (∀ property ∈ list, ∀ member, value.member? property.1 = some member →
        property.2 member = true) ∧
      ∀ name ∈ names, (value.member? name).isSome = true := by
  simp only [closedObject, allOf, List.all_cons, List.all_nil, Bool.and_true, Bool.and_eq_true] at h
  obtain ⟨htype, hproperties, hnames, -⟩ := h
  cases value with
  | object members =>
    refine ⟨⟨members, rfl⟩, fun property hproperty member hmember => ?_, List.all_eq_true.mp hnames⟩
    have hall := List.all_eq_true.mp hproperties property hproperty
    rw [hmember] at hall
    exact hall
  | _ => cases htype

theorem arrayOf_parts {schema : Schema} (h : arrayOf schema value = true) :
    ∃ items, value = .array items ∧ ∀ item ∈ items, schema item = true := by
  simp only [arrayOf, allOf, List.all_cons, List.all_nil, Bool.and_true, Bool.and_eq_true] at h
  obtain ⟨htype, hitems⟩ := h
  cases value with
  | array items => exact ⟨items, rfl, List.all_eq_true.mp hitems⟩
  | _ => cases htype

/-- A typed text is that of a string. -/
theorem text_of_type (h : type [.string] value = true) (hutf8 : value.isUtf8 = true) :
    ∃ string, value = .text string := by
  cases value with
  | string bytes =>
    obtain ⟨letters, hletters⟩ := Json.isUtf8_string.mp hutf8
    refine ⟨String.ofList letters, congrArg Json.string (List.toByteArray_inj.mp (hletters.trans ?_))⟩
    rw [utf8, String.toList_ofList]
    rfl
  | _ => cases h

/-- A schema that only texts meet. -/
def Textual (schema : Schema) : Prop := ∀ value, schema value = true → type [.string] value = true

theorem textual_type : Textual (type [.string]) := fun _ h => h

theorem textual_allOf (schema : Schema) : Textual (allOf [type [.string], schema]) := fun value h => by
  simp only [allOf, List.all_cons, List.all_nil, Bool.and_true, Bool.and_eq_true] at h
  exact h.1

theorem textual_textOf (length : Nat) : Textual (textOf length) := textual_allOf _

theorem ne_of_textOf {string : String} (h : textOf 1 (.text string) = true) : string ≠ "" := by
  rintro rfl
  exact absurd h (by decide)

section
variable {list : List (String × Schema)} {names : List String} {name : String} {schema : Schema}

/-- A member of a closed object that may be absent. -/
theorem optional_text (h : closedObject list names value = true) (hutf8 : value.isUtf8 = true)
    (hlist : (name, schema) ∈ list) (htextual : Textual schema) :
    ∃ text : Option String, value.member? name = text.map Json.text := by
  obtain ⟨-, hproperties, -⟩ := closedObject_parts h
  cases hmember : value.member? name with
  | none => exact ⟨none, rfl⟩
  | some member =>
    obtain ⟨string, rfl⟩ := text_of_type (htextual _ (hproperties _ hlist member hmember))
      (Json.isUtf8_of_member? hutf8 hmember)
    exact ⟨some string, rfl⟩

/-- A member that a closed object has to have. -/
theorem required_member (h : closedObject list names value = true) (hlist : (name, schema) ∈ list)
    (hname : name ∈ names) : ∃ member, value.member? name = some member ∧ schema member = true := by
  obtain ⟨-, hproperties, hrequired⟩ := closedObject_parts h
  obtain ⟨member, hmember⟩ := Option.isSome_iff_exists.mp (hrequired name hname)
  exact ⟨member, hmember, hproperties _ hlist member hmember⟩

theorem required_text (h : closedObject list names value = true) (hutf8 : value.isUtf8 = true)
    (hlist : (name, schema) ∈ list) (hname : name ∈ names) (htextual : Textual schema) :
    ∃ string, value.member? name = some (.text string) ∧ schema (.text string) = true := by
  obtain ⟨member, hmember, hschema⟩ := required_member h hlist hname
  obtain ⟨string, rfl⟩ := text_of_type (htextual _ hschema) (Json.isUtf8_of_member? hutf8 hmember)
  exact ⟨string, hmember, hschema⟩

/-- The items of a member that has to be an array. -/
theorem required_array (h : closedObject list names value = true)
    (hlist : (name, arrayOf schema) ∈ list) (hname : name ∈ names) :
    ∃ items, value.member? name = some (.array items) ∧ ∀ item ∈ items, schema item = true := by
  obtain ⟨member, hmember, hschema⟩ := required_member h hlist hname
  obtain ⟨items, rfl, hitems⟩ := arrayOf_parts hschema
  exact ⟨items, hmember, hitems⟩

end

/-- Reading every item of an array succeeds when it succeeds on each. -/
theorem mapM_of_forall {α : Type} {read : Json → Option α} {p : α → Prop} {items : List Json}
    (h : ∀ item ∈ items, ∃ result, read item = some result ∧ p result) :
    ∃ results, (Json.array items).elements.mapM read = some results ∧ ∀ result ∈ results, p result := by
  rw [Json.elements]
  induction items with
  | nil => exact ⟨[], rfl, fun result h => by cases h⟩
  | cons item items ih =>
    obtain ⟨hitem, hitems⟩ := List.forall_mem_cons.mp h
    obtain ⟨result, hread, hresult⟩ := hitem
    obtain ⟨results, hreads, hresults⟩ := ih hitems
    exact ⟨result :: results, by rw [List.mapM_cons, hread, hreads]; rfl,
      List.forall_mem_cons.mpr ⟨hresult, hresults⟩⟩

theorem size_of_integerFrom {truncate : UInt64 → Nat} {bound : Int} (h : integerFrom bound value = true) :
    ∃ size, value.size? truncate = some size := by
  simp only [integerFrom, allOf, List.all_cons, List.all_nil, Bool.and_true, Bool.and_eq_true] at h
  cases value with
  | integer number => exact ⟨_, rfl⟩
  | double bits => exact ⟨_, rfl⟩
  | _ => cases h.1

end

end ParseX.JsonSchema

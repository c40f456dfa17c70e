import Mathlib.Data.List.Nodup
import ParseX.Base.Json

/-! # Reading JSON values

What `nlohmann::json` makes of a value that is read: members with and without
defaults, texts, unsigned numbers and loops. Where it throws there is none. Texts are
UTF-8, so other bytes are no text. -/
namespace ParseX.Json
open Cpp

/-- `get<std::string>()`. -/
def text? : Json → Option String
  | .string bytes => String.fromUTF8? bytes.toByteArray
  | _ => none

/-- `get<std::size_t>()`: a negative number wraps, a double is truncated. -/
def size? (truncate : UInt64 → Nat) : Json → Option Nat
  | .integer value => some (if value < 0 then value + 2 ^ 64 else value).toNat
  | .double bits => some (truncate bits)
  | _ => none

/-- `value(key, default)`, for a default that `read` gives the type of. -/
def valueOr {α : Type} (read : Json → Option α) (value : Json) (key : String) (default : α) :
    Option α :=
  match value with
  | .object _ =>
    match value.member? key with
    | some found => read found
    | none => some default
  | _ => none

/-- The values that a loop over a value meets. -/
def elements : Json → List Json
  | .null => []
  | .array items => items
  | .object members => members.map Prod.snd
  | value => [value]

/-- An object from the members that are present. -/
def ofPresent (members : List (String × Option Json)) : Json :=
  ofMembers (members.filterMap fun member => member.2.map (member.1, ·))

theorem isUtf8_ofPresent {members : List (String × Option Json)}
    (h : ∀ member ∈ members, member.2.all isUtf8 = true) : (ofPresent members).isUtf8 = true := by
  refine isUtf8_ofMembers fun entry hentry => ?_
  obtain ⟨⟨name, value⟩, hmember, hpresent⟩ := List.mem_filterMap.mp hentry
  obtain ⟨written, rfl, rfl⟩ := Option.map_eq_some_iff.mp hpresent
  exact h _ hmember

/-! ## What is written is read -/

@[simp] theorem text?_text (string : String) : (text string).text? = some string := by
  have hbytes : (utf8 string).toByteArray = string.toByteArray := String.utf8Encode_toList
  rw [text, text?, hbytes, String.fromUTF8?, dif_pos string.isValidUTF8]
  rfl

@[simp] theorem size?_integer (truncate : UInt64 → Nat) (size : Nat) :
    (integer size).size? truncate = some size := by
  rw [size?, if_neg (Int.not_lt.mpr (Int.natCast_nonneg size)), Int.toNat_natCast]

theorem present_sublist (members : List (String × Option Json)) :
    ((members.filterMap fun member => member.2.map (member.1, ·)).map Prod.fst).Sublist
      (members.map Prod.fst) := by
  induction members with
  | nil => exact .slnil
  | cons member members ih =>
    obtain ⟨key, value⟩ := member
    cases value with
    | none => exact ih.cons _
    | some value => exact ih.cons_cons _

/-- With distinct keys every member is found, and an absent one is not. -/
theorem member?_ofPresent {members : List (String × Option Json)}
    (hdistinct : ((members.map Prod.fst).map utf8).Nodup) {key : String} {value : Option Json}
    (h : (key, value) ∈ members) : (ofPresent members).member? key = value := by
  cases value with
  | some value =>
    exact member?_ofMembers (hdistinct.sublist ((present_sublist members).map _))
      (List.mem_filterMap.mpr ⟨_, h, rfl⟩)
  | none =>
    refine member?_ofMembers_none fun hkey => ?_
    obtain ⟨other, hother, hutf8⟩ := List.mem_map.mp hkey
    obtain ⟨⟨_, value⟩, hpresent, rfl⟩ := List.mem_map.mp hother
    obtain ⟨member, hmember, hvalue⟩ := List.mem_filterMap.mp hpresent
    obtain ⟨written, hwritten, hpair⟩ := Option.map_eq_some_iff.mp hvalue
    rw [List.map_map] at hdistinct
    have hsame : member = (key, none) := List.inj_on_of_nodup_map hdistinct hmember h (by
      rw [Function.comp_apply, Function.comp_apply, ← hutf8, ← hpair])
    rw [hsame] at hwritten
    cases hwritten

theorem ofMembers_object (members : List (String × Json)) :
    ∃ sorted, ofMembers members = object sorted := by
  rw [ofMembers]
  generalize ([] : List (Bytes × Json)) = start
  induction members generalizing start with
  | nil => exact ⟨start, rfl⟩
  | cons member members ih => exact ih (insertMember (utf8 member.1) member.2 start)

/-- A member is read with its default when it is absent. -/
theorem valueOr_ofPresent {α : Type} {read : Json → Option α}
    {members : List (String × Option Json)} (hdistinct : ((members.map Prod.fst).map utf8).Nodup)
    {key : String} {default : α} {value : Option Json} (h : (key, value) ∈ members) :
    (ofPresent members).valueOr read key default = (value.map read).getD (some default) := by
  obtain ⟨sorted, hsorted⟩ := ofMembers_object
    (members.filterMap fun member => member.2.map (member.1, ·))
  have hmember := member?_ofPresent hdistinct h
  rw [ofPresent, hsorted] at hmember ⊢
  rw [valueOr, hmember]
  cases value with
  | some value => rfl
  | none => rfl

theorem valueOr_written {α : Type} {read : Json → Option α} {members : List (String × Option Json)}
    (hdistinct : ((members.map Prod.fst).map utf8).Nodup) {key : String} {default item : α}
    {value : Json} (h : (key, some value) ∈ members) (hread : read value = some item) :
    (ofPresent members).valueOr read key default = some item := by
  rw [valueOr_ofPresent hdistinct h]
  exact hread

/-- Reading every item of a written array gives the list back. -/
theorem mapM_elements {α : Type} {write : α → Json} {read : Json → Option α}
    (h : ∀ item, read (write item) = some item) (list : List α) :
    (array (list.map write)).elements.mapM read = some list := by
  rw [elements]
  induction list with
  | nil => rfl
  | cons item list ih => rw [List.map_cons, List.mapM_cons, h, ih]; rfl

end ParseX.Json

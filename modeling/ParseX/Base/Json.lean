import Mathlib.Algebra.Group.Int.Defs
import ParseX.Cpp.Bytes

/-! # JSON values

A value in memory: strings are bytes, which need not be UTF-8, and an object keeps
its members in the order of their keys. -/
namespace ParseX
open Cpp

inductive Json where
  | null
  | boolean (value : Bool)
  | integer (value : Int)
  /-- A number that is no 64-bit integer, by the bits of its double. -/
  | double (bits : UInt64)
  | string (bytes : Bytes)
  | array (items : List Json)
  | object (members : List (Bytes × Json))

namespace Json

def text (text : String) : Json := .string (utf8 text)

/-! ## Members -/

/-- The value of a member, none when the value is no object or has no such key. -/
def member? (key : String) : Json → Option Json
  | .object members => (members.find? fun member => member.1 = utf8 key).map Prod.snd
  | _ => none

/-- Put a member in its place, or replace the one with its key. -/
def insertMember (key : Bytes) (value : Json) : List (Bytes × Json) → List (Bytes × Json)
  | [] => [(key, value)]
  | member :: members =>
    if key = member.1 then (key, value) :: members
    else if key < member.1 then (key, value) :: member :: members
    else member :: insertMember key value members

/-- `value[key] = …`, for an object or a value that is none yet. -/
def set : Json → String → Json → Json
  | .object members, key, value => .object (insertMember (utf8 key) value members)
  | _, key, value => .object [(utf8 key, value)]

/-- An object from its members. -/
def ofMembers (members : List (String × Json)) : Json :=
  members.foldl (fun value member => value.set member.1 member.2) (.object [])

theorem find?_insertMember_self (key : Bytes) (value : Json) (members : List (Bytes × Json)) :
    (insertMember key value members).find? (fun member => member.1 = key) = some (key, value) := by
  induction members with
  | nil => simp [insertMember]
  | cons member members ih =>
    rw [insertMember]
    split
    · simp
    · rename_i hne
      split
      · simp
      · rw [List.find?_cons_of_neg (by simpa using fun h => hne h.symm)]
        exact ih

theorem find?_insertMember_of_ne {key other : Bytes} (hne : key ≠ other) (value : Json)
    (members : List (Bytes × Json)) :
    (insertMember key value members).find? (fun member => member.1 = other) =
      members.find? (fun member => member.1 = other) := by
  induction members with
  | nil => simp [insertMember, hne]
  | cons member members ih =>
    rw [insertMember]
    split
    · rename_i hkey
      rw [List.find?_cons_of_neg (by simpa using hne),
        List.find?_cons_of_neg (by simpa [← hkey] using hne)]
    · split
      · rw [List.find?_cons_of_neg (by simpa using hne)]
      · rw [List.find?_cons, List.find?_cons, ih]

@[simp] theorem member?_set_self (key : String) (value object : Json) :
    (object.set key value).member? key = some value := by
  cases object with
  | object members => simp only [set, member?, find?_insertMember_self, Option.map_some]
  | _ => simp [set, member?]

theorem member?_set_of_ne {key other : String} (hne : utf8 key ≠ utf8 other) (value object : Json) :
    (object.set key value).member? other = object.member? other := by
  cases object with
  | object members => simp only [set, member?, find?_insertMember_of_ne hne]
  | _ => simp [set, member?, hne]

theorem insertMember_insertMember (key : Bytes) (value other : Json) (members : List (Bytes × Json)) :
    insertMember key other (insertMember key value members) = insertMember key other members := by
  induction members with
  | nil => simp [insertMember]
  | cons member members ih =>
    rw [insertMember]
    split
    · rename_i hkey
      simp [insertMember, hkey]
    · rename_i hne
      split
      · rename_i hlt
        simp [insertMember, hne, hlt]
      · rename_i hnlt
        rw [insertMember, if_neg hne, if_neg hnlt, ih, insertMember, if_neg hne, if_neg hnlt]

/-- The later value of a member stays. -/
theorem set_set (object : Json) (key : String) (value other : Json) :
    (object.set key value).set key other = object.set key other := by
  cases object with
  | object members => exact congrArg Json.object (insertMember_insertMember _ _ _ _)
  | _ => simp [set, insertMember]

theorem member?_foldl_set {members : List (String × Json)} {key : String}
    (h : ∀ member ∈ members, utf8 member.1 ≠ utf8 key) (start : Json) :
    (members.foldl (fun value member => value.set member.1 member.2) start).member? key =
      start.member? key := by
  induction members generalizing start with
  | nil => rfl
  | cons member members ih =>
    obtain ⟨hmember, hmembers⟩ := List.forall_mem_cons.mp h
    rw [List.foldl_cons, ih hmembers, member?_set_of_ne hmember]

/-- A key that no member has. -/
theorem member?_ofMembers_none {members : List (String × Json)} {key : String}
    (h : utf8 key ∉ (members.map Prod.fst).map utf8) : (ofMembers members).member? key = none := by
  refine (member?_foldl_set (fun member hmember heq => h ?_) _).trans rfl
  rw [← heq]
  exact List.mem_map_of_mem (List.mem_map_of_mem hmember)

/-- With distinct keys every member is found. -/
theorem member?_ofMembers {members : List (String × Json)}
    (hdistinct : ((members.map Prod.fst).map utf8).Nodup) {key : String} {value : Json}
    (h : (key, value) ∈ members) : (ofMembers members).member? key = some value := by
  rw [ofMembers]
  generalize Json.object [] = start
  induction members generalizing start with
  | nil => cases h
  | cons member members ih =>
    obtain ⟨hfresh, hrest⟩ := List.nodup_cons.mp hdistinct
    rw [List.foldl_cons]
    rcases List.mem_cons.mp h with rfl | hlater
    · rw [member?_foldl_set, member?_set_self]
      intro other hother heq
      refine hfresh ?_
      rw [← heq]
      exact List.mem_map_of_mem (List.mem_map_of_mem hother)
    · exact ih hrest hlater _

/-! ## Valid strings -/

mutual

/-- Every string and every key of the value is UTF-8. -/
def isUtf8 : Json → Bool
  | .string bytes => decide (ValidUtf8 bytes)
  | .array items => isUtf8Items items
  | .object members => isUtf8Members members
  | _ => true

def isUtf8Items : List Json → Bool
  | [] => true
  | value :: items => value.isUtf8 && isUtf8Items items

def isUtf8Members : List (Bytes × Json) → Bool
  | [] => true
  | (key, value) :: members => decide (ValidUtf8 key) && value.isUtf8 && isUtf8Members members

end

theorem isUtf8_string {bytes : Bytes} : (string bytes).isUtf8 = true ↔ ValidUtf8 bytes := by
  rw [isUtf8, decide_eq_true_iff]

@[simp] theorem isUtf8_text (string : String) : (text string).isUtf8 = true :=
  isUtf8_string.mpr (validUtf8_utf8 string)

@[simp] theorem isUtf8_boolean (value : Bool) : (boolean value).isUtf8 = true := rfl

@[simp] theorem isUtf8_integer (value : Int) : (integer value).isUtf8 = true := rfl

theorem isUtf8_array {items : List Json} :
    (array items).isUtf8 = true ↔ ∀ value ∈ items, value.isUtf8 = true := by
  rw [isUtf8]
  induction items with
  | nil => simp [isUtf8Items]
  | cons value items ih => rw [isUtf8Items, Bool.and_eq_true, ih, List.forall_mem_cons]

theorem isUtf8_object {members : List (Bytes × Json)} : (object members).isUtf8 = true ↔
    ∀ member ∈ members, ValidUtf8 member.1 ∧ member.2.isUtf8 = true := by
  rw [isUtf8]
  induction members with
  | nil => simp [isUtf8Members]
  | cons member members ih =>
    rw [isUtf8Members, Bool.and_eq_true, Bool.and_eq_true, decide_eq_true_iff, ih,
      List.forall_mem_cons]

/-- A member of a valid object is valid. -/
theorem isUtf8_of_member? {object value : Json} {key : String} (h : object.isUtf8 = true)
    (hvalue : object.member? key = some value) : value.isUtf8 = true := by
  cases object with
  | object members =>
    obtain ⟨member, hmember, rfl⟩ := Option.map_eq_some_iff.mp hvalue
    exact (isUtf8_object.mp h _ (List.mem_of_find?_eq_some hmember)).2
  | _ => cases hvalue

theorem mem_insertMember {key : Bytes} {value : Json} {members : List (Bytes × Json)}
    {member : Bytes × Json} (h : member ∈ insertMember key value members) :
    member = (key, value) ∨ member ∈ members := by
  induction members with
  | nil => exact .inl (List.mem_singleton.mp h)
  | cons first members ih =>
    rw [insertMember] at h
    split at h
    · exact (List.mem_cons.mp h).imp_right (List.mem_cons_of_mem _)
    · split at h
      · exact List.mem_cons.mp h
      · rcases List.mem_cons.mp h with rfl | hrest
        · exact .inr (List.mem_cons_self ..)
        · exact (ih hrest).imp_right (List.mem_cons_of_mem _)

theorem isUtf8_set {key : String} {value object : Json} (hvalue : value.isUtf8 = true)
    (hobject : object.isUtf8 = true) : (object.set key value).isUtf8 = true := by
  have hmember : ValidUtf8 (utf8 key) ∧ value.isUtf8 = true := ⟨validUtf8_utf8 key, hvalue⟩
  cases object with
  | object members =>
    refine isUtf8_object.mpr fun member hin => ?_
    rcases mem_insertMember hin with rfl | hold
    · exact hmember
    · exact isUtf8_object.mp hobject member hold
  | _ => exact isUtf8_object.mpr fun member hin => by rwa [List.mem_singleton.mp hin]

theorem isUtf8_ofMembers {members : List (String × Json)}
    (h : ∀ member ∈ members, member.2.isUtf8 = true) : (ofMembers members).isUtf8 = true := by
  rw [ofMembers]
  generalize hstart : Json.object [] = start
  have hutf8 : start.isUtf8 = true := by rw [← hstart]; rfl
  clear hstart
  induction members generalizing start with
  | nil => exact hutf8
  | cons member members ih =>
    rw [List.foldl_cons]
    exact ih (fun other hother => h other (List.mem_cons_of_mem _ hother)) _
      (isUtf8_set (h member (List.mem_cons_self ..)) hutf8)

theorem isUtf8_ofMembers_iff {members : List (String × Json)}
    (hdistinct : ((members.map Prod.fst).map utf8).Nodup) :
    (ofMembers members).isUtf8 = true ↔ ∀ member ∈ members, member.2.isUtf8 = true :=
  ⟨fun h _ hmember => isUtf8_of_member? h (member?_ofMembers hdistinct hmember), isUtf8_ofMembers⟩

/-! ## Nesting -/

mutual

/-- How many arrays and objects stand around each other. -/
def depth : Json → Nat
  | .array items => depthItems items + 1
  | .object members => depthMembers members + 1
  | _ => 0

def depthItems : List Json → Nat
  | [] => 0
  | value :: items => max value.depth (depthItems items)

def depthMembers : List (Bytes × Json) → Nat
  | [] => 0
  | (_, value) :: members => max value.depth (depthMembers members)

end

end Json

end ParseX

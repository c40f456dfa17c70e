import Mathlib.Data.List.Basic

/-! # Byte strings

`std::string` where its bytes matter: the bytes of a text, which bytes are a text,
and the search for a sequence of bytes. -/
namespace ParseX

abbrev Bytes := List UInt8

/-- A test of every byte of a text runs along the text, not over all bytes. -/
instance {p : UInt8 → Prop} [DecidablePred p] (bytes : Bytes) : Decidable (∀ byte ∈ bytes, p byte) :=
  List.decidableBAll p bytes

instance decidableForallChar {p : Char → Prop} [DecidablePred p] (text : List Char) : Decidable (∀ c ∈ text, p c) :=
  List.decidableBAll p text

namespace Cpp

/-- The bytes of a text. -/
def utf8 (text : String) : List UInt8 := text.toList.flatMap String.utf8EncodeChar

/-- The bytes are the UTF-8 of some text. -/
def ValidUtf8 (bytes : List UInt8) : Prop := bytes.toByteArray.IsValidUTF8

instance (bytes : List UInt8) : Decidable (ValidUtf8 bytes) :=
  inferInstanceAs (Decidable bytes.toByteArray.IsValidUTF8)

theorem validUtf8_utf8 (text : String) : ValidUtf8 (utf8 text) := .intro text.toList rfl

theorem ValidUtf8.append {bytes more : List UInt8} (h : ValidUtf8 bytes) (hmore : ValidUtf8 more) :
    ValidUtf8 (bytes ++ more) := by
  rw [ValidUtf8, List.toByteArray_append]
  exact ByteArray.IsValidUTF8.append h hmore

theorem utf8_inj {text other : String} : utf8 text = utf8 other ↔ text = other := by
  refine ⟨fun h => ?_, congrArg utf8⟩
  have hbytes : text.toList.utf8Encode = other.toList.utf8Encode := congrArg List.toByteArray h
  rw [String.utf8Encode_toList, String.utf8Encode_toList] at hbytes
  exact String.toByteArray_inj.mp hbytes

/-- What follows a text is UTF-8 when all of it is. -/
theorem validUtf8_utf8_append {text : String} {bytes : List UInt8} :
    ValidUtf8 (utf8 text ++ bytes) ↔ ValidUtf8 bytes := by
  refine ⟨fun h => ?_, (validUtf8_utf8 text).append⟩
  rw [utf8] at h
  generalize text.toList = chars at h
  induction chars with
  | nil => exact h
  | cons c chars ih =>
    rw [List.flatMap_cons, List.append_assoc, ValidUtf8, List.toByteArray_append,
      ← List.utf8Encode_singleton] at h
    exact ih (ByteArray.isValidUTF8_utf8Encode_singleton_append_iff.mp h)

/-- An ASCII character is one byte. -/
theorem utf8EncodeChar_ascii {c : Char} (h : c.toNat < 128) :
    String.utf8EncodeChar c = [c.toUInt8] := by
  have hsmall : c.val.toNat ≤ 127 := Nat.le_of_lt_succ h
  simp only [String.utf8EncodeChar, hsmall, if_true]
  rfl

/-- Any other character is bytes beyond ASCII, and no byte that UTF-8 leaves out. -/
theorem utf8EncodeChar_other {c : Char} (h : ¬ c.toNat < 128) :
    ∀ byte ∈ String.utf8EncodeChar c, 128 ≤ byte.toNat ∧ byte.toNat < 248 := by
  have hbyte : ∀ value, 128 ≤ value → value < 248 →
      128 ≤ (UInt8.ofNat value).toNat ∧ (UInt8.ofNat value).toNat < 248 := by
    intro value hlow hhigh
    rw [UInt8.toNat_ofNat_of_lt' (Nat.lt_trans hhigh (by decide))]
    exact ⟨hlow, hhigh⟩
  have hlarge : ¬ c.val.toNat ≤ 127 := fun hle => h (Nat.lt_succ_of_le hle)
  rw [String.utf8EncodeChar, if_neg hlarge]
  intro byte hmem
  split at hmem
  · simp only [List.mem_cons, List.not_mem_nil, or_false] at hmem
    rcases hmem with rfl | rfl <;> exact hbyte _ (by omega) (by omega)
  · split at hmem
    · simp only [List.mem_cons, List.not_mem_nil, or_false] at hmem
      rcases hmem with rfl | rfl | rfl <;> exact hbyte _ (by omega) (by omega)
    · simp only [List.mem_cons, List.not_mem_nil, or_false] at hmem
      rcases hmem with rfl | rfl | rfl | rfl <;> exact hbyte _ (by omega) (by omega)

theorem flatMap_ascii {cs : List Char} (h : ∀ c ∈ cs, c.toNat < 128) :
    cs.flatMap String.utf8EncodeChar = cs.map Char.toUInt8 := by
  induction cs with
  | nil => rfl
  | cons c cs ih =>
    obtain ⟨hc, hcs⟩ := List.forall_mem_cons.mp h
    rw [List.flatMap_cons, utf8EncodeChar_ascii hc, ih hcs]
    rfl

/-- `std::string::find`: the first place of `target` from `pos` on. -/
def find (bytes target : List UInt8) (pos : Nat) : Option Nat :=
  ((List.range (bytes.length + 1)).drop pos).find? fun place => target.isPrefixOf (bytes.drop place)

section
variable {bytes target : List UInt8} {pos place : Nat}

theorem find_eq_some (h : find bytes target pos = some place) :
    pos ≤ place ∧ target <+: bytes.drop place ∧
      ∀ other, pos ≤ other → other < place → ¬ target <+: bytes.drop other := by
  obtain ⟨hfound, i, hi, hplace, hbefore⟩ := List.find?_eq_some_iff_getElem.mp h
  rw [List.length_drop, List.length_range] at hi
  rw [List.getElem_drop, List.getElem_range] at hplace
  refine ⟨by omega, List.isPrefixOf_iff_prefix.mp hfound, fun other hpos hlt => ?_⟩
  have hother := hbefore (other - pos) (by omega)
  rw [List.getElem_drop, List.getElem_range, show pos + (other - pos) = other by omega] at hother
  intro hstarts
  rw [List.isPrefixOf_iff_prefix.mpr hstarts] at hother
  cases hother

theorem find_eq_none (h : find bytes target pos = none) (hne : target ≠ []) :
    pos ≤ place → ¬ target <+: bytes.drop place := by
  intro hpos hstarts
  have hlength : place < bytes.length := by
    by_contra hlong
    rw [List.drop_eq_nil_of_le (by omega)] at hstarts
    exact hne (List.prefix_nil.mp hstarts)
  have hmem : place ∈ (List.range (bytes.length + 1)).drop pos :=
    List.mem_drop_iff_getElem.mpr ⟨place - pos, by rw [List.length_range]; omega, by
      rw [List.getElem_range]
      omega⟩
  have := List.find?_eq_none.mp h place hmem
  exact this (List.isPrefixOf_iff_prefix.mpr hstarts)

/-- A place where `target` stands, and none before it, is the one found. -/
theorem find_eq_some_of (hne : target ≠ []) (hpos : pos ≤ place) (hstands : target <+: bytes.drop place)
    (hfirst : ∀ other, pos ≤ other → other < place → ¬ target <+: bytes.drop other) :
    find bytes target pos = some place := by
  cases hfind : find bytes target pos with
  | none => exact absurd hstands (find_eq_none hfind hne hpos)
  | some found =>
    obtain ⟨hfound, hstarts, hbefore⟩ := find_eq_some hfind
    rcases Nat.lt_trichotomy found place with hlt | heq | hlt
    · exact absurd hstarts (hfirst found hfound hlt)
    · rw [heq]
    · exact absurd hstands (hbefore place hpos hlt)

theorem find_eq_none_iff (hne : target ≠ []) :
    find bytes target 0 = none ↔ ¬ target <:+: bytes := by
  refine ⟨fun h => ?_, fun h => ?_⟩
  · rintro ⟨before, after, rfl⟩
    refine @find_eq_none _ _ 0 before.length h hne (Nat.zero_le _) ?_
    rw [List.append_assoc, List.drop_left]
    exact List.prefix_append target after
  · cases hfind : find bytes target 0 with
    | none => rfl
    | some place =>
      obtain ⟨rest, hrest⟩ := (find_eq_some hfind).2.1
      refine absurd ⟨bytes.take place, rest, ?_⟩ h
      rw [List.append_assoc, hrest, List.take_append_drop]

theorem getElem?_of_prefix_drop {i : Nat} (h : target <+: bytes.drop pos) (hi : i < target.length) :
    bytes[pos + i]? = target[i]? := by
  obtain ⟨rest, hrest⟩ := h
  rw [← List.getElem?_drop, ← hrest, List.getElem?_append_left hi]

/-- A single byte stands where the bytes hold it. -/
theorem singleton_prefix_drop {bytes : Bytes} {byte : UInt8} {place : Nat}
    (h : [byte] <+: bytes.drop place) : bytes[place]? = some byte := by
  have := getElem?_of_prefix_drop h (show 0 < [byte].length from Nat.one_pos)
  exact this

/-- `std::string::find_first_of`: the first place of one of `marks` from `pos` on. -/
def findFirstOf (bytes marks : List UInt8) (pos : Nat) : Option Nat :=
  ((bytes.drop pos).findIdx? marks.contains).map (pos + ·)

/-- The first of some marks stands after the bytes that hold none. -/
theorem findFirstOf_append {before plain more marks : Bytes} {mark : UInt8}
    (hplain : ∀ byte ∈ plain, byte ∉ marks) (hmark : mark ∈ marks) :
    findFirstOf (before ++ (plain ++ mark :: more)) marks before.length =
      some (before.length + plain.length) := by
  have hnone : plain.findIdx? marks.contains = none :=
    List.findIdx?_eq_none_iff.mpr fun byte hbyte => by
      rw [List.contains_eq_mem]
      exact decide_eq_false (hplain byte hbyte)
  have hfirst : (mark :: more).findIdx? marks.contains = some 0 := by
    rw [List.findIdx?_cons, List.contains_eq_mem, decide_eq_true hmark]
    rfl
  rw [findFirstOf, List.drop_left, List.findIdx?_append, hnone, hfirst, Option.none_or,
    Option.map_some, Option.map_some, Nat.zero_add]

end

end Cpp
end ParseX

import ParseX.Cpp.Bytes

/-! # Units of a document

The loader reads raw bytes in units of one or two bytes, as ASCII codes where they are. -/
namespace ParseX.Loader
open Cpp

inductive RawEncodingClass where
  | singleByte
  | utf16Le
  | utf16Be
  deriving DecidableEq, Repr

def unitWidth : RawEncodingClass → Nat
  | .singleByte => 1
  | _ => 2

/-- The code of a unit of one byte, if it is ASCII. -/
def byteCode (unit : UInt8) : Option UInt8 := if unit < 0x80 then some unit else none

/-- The code of a unit of two bytes. -/
def pairCode (low high : UInt8) : Option UInt8 := if high = 0 then some low else none

/-- `unitAscii`, with none for -1. -/
def unitAscii (bytes : Bytes) (encoding : RawEncodingClass) (scanPos : Nat) : Option UInt8 :=
  match encoding with
  | .singleByte =>
    match bytes[scanPos]? with
    | some unit => byteCode unit
    | none => none
  | .utf16Le =>
    match bytes[scanPos]?, bytes[scanPos + 1]? with
    | some low, some high => pairCode low high
    | _, _ => none
  | .utf16Be =>
    match bytes[scanPos]?, bytes[scanPos + 1]? with
    | some high, some low => pairCode low high
    | _, _ => none

/-! ## The units of a text -/

/-- The 16-bit units of a character. -/
def utf16 (c : Char) : List Nat :=
  if c.toNat < 0x10000 then [c.toNat]
  else [0xD800 + (c.toNat - 0x10000) / 0x400, 0xDC00 + (c.toNat - 0x10000) % 0x400]

def lowByte (unit : Nat) : UInt8 := UInt8.ofNat (unit % 256)

def highByte (unit : Nat) : UInt8 := UInt8.ofNat (unit / 256)

/-- The bytes of a character: UTF-8, or UTF-16 in one of its byte orders. -/
def encodeChar : RawEncodingClass → Char → Bytes
  | .singleByte, c => String.utf8EncodeChar c
  | .utf16Le, c => (utf16 c).flatMap fun unit => [lowByte unit, highByte unit]
  | .utf16Be, c => (utf16 c).flatMap fun unit => [highByte unit, lowByte unit]

def encode (encoding : RawEncodingClass) (text : List Char) : Bytes :=
  text.flatMap (encodeChar encoding)

/-- The codes of bytes that are read two by two; a last byte alone has none. -/
def pairCodes (code : UInt8 → UInt8 → Option UInt8) : Bytes → List (Option UInt8)
  | [] => []
  | [_] => [none]
  | first :: second :: bytes => code first second :: pairCodes code bytes

/-- The codes that a scan meets from the first byte on. -/
def codes : RawEncodingClass → Bytes → List (Option UInt8)
  | .singleByte, bytes => bytes.map byteCode
  | .utf16Le, bytes => pairCodes pairCode bytes
  | .utf16Be, bytes => pairCodes (fun high low => pairCode low high) bytes

section
variable {encoding : RawEncodingClass} {bytes rest : Bytes} {scanPos : Nat}

theorem unitWidth_pos (encoding : RawEncodingClass) : 0 < unitWidth encoding := by
  cases encoding <;> decide

theorem codes_drop_of_le (h : bytes.length ≤ scanPos) : codes encoding (bytes.drop scanPos) = [] := by
  rw [List.drop_eq_nil_of_le h]
  cases encoding <;> rfl

/-- A scan meets the unit at its place, then those a unit further on. -/
theorem codes_drop (h : scanPos < bytes.length) : codes encoding (bytes.drop scanPos) =
    unitAscii bytes encoding scanPos ::
      codes encoding (bytes.drop (scanPos + unitWidth encoding)) := by
  have hfirst : bytes[scanPos]? = some bytes[scanPos] := List.getElem?_eq_getElem h
  have hdrop : bytes.drop scanPos = bytes[scanPos] :: bytes.drop (scanPos + 1) :=
    List.drop_eq_getElem_cons h
  by_cases hnext : scanPos + 1 < bytes.length
  · have hsecond : bytes[scanPos + 1]? = some bytes[scanPos + 1] := List.getElem?_eq_getElem hnext
    have hdrop' : bytes.drop (scanPos + 1) = bytes[scanPos + 1] :: bytes.drop (scanPos + 2) :=
      List.drop_eq_getElem_cons hnext
    cases encoding with
    | singleByte => rw [hdrop, unitAscii, hfirst]; rfl
    | utf16Le => rw [hdrop, hdrop', unitAscii, hfirst, hsecond]; rfl
    | utf16Be => rw [hdrop, hdrop', unitAscii, hfirst, hsecond]; rfl
  · have hsecond : bytes[scanPos + 1]? = none := List.getElem?_eq_none (by omega)
    have hend : bytes.drop (scanPos + 1) = [] := List.drop_eq_nil_of_le (by omega)
    have hend' : bytes.drop (scanPos + 2) = [] := List.drop_eq_nil_of_le (by omega)
    cases encoding with
    | singleByte => rw [hdrop, unitAscii, hfirst]; rfl
    | utf16Le =>
      rw [hdrop, hend, unitAscii, hfirst, hsecond, show unitWidth .utf16Le = 2 from rfl, hend']; rfl
    | utf16Be =>
      rw [hdrop, hend, unitAscii, hfirst, hsecond, show unitWidth .utf16Be = 2 from rfl, hend']; rfl

end

/-! ## The codes of a character -/

/-- The codes of a character's units. -/
def charCodes (encoding : RawEncodingClass) (c : Char) : List (Option UInt8) :=
  codes encoding (encodeChar encoding c)

def textCodes (encoding : RawEncodingClass) (text : List Char) : List (Option UInt8) :=
  text.flatMap (charCodes encoding)

theorem encode_cons (encoding : RawEncodingClass) (c : Char) (text : List Char) :
    encode encoding (c :: text) = encodeChar encoding c ++ encode encoding text := List.flatMap_cons

theorem textCodes_cons (encoding : RawEncodingClass) (c : Char) (text : List Char) :
    textCodes encoding (c :: text) = charCodes encoding c ++ textCodes encoding text :=
  List.flatMap_cons

theorem pairCodes_units (code : UInt8 → UInt8 → Option UInt8) (first second : Nat → UInt8)
    (units : List Nat) (rest : Bytes) :
    pairCodes code ((units.flatMap fun unit => [first unit, second unit]) ++ rest) =
      (units.map fun unit => code (first unit) (second unit)) ++ pairCodes code rest := by
  induction units with
  | nil => rfl
  | cons unit units ih =>
    rw [List.map_cons, List.cons_append, ← ih]
    rfl

theorem codes_encodeChar (encoding : RawEncodingClass) (c : Char) (rest : Bytes) :
    codes encoding (encodeChar encoding c ++ rest) = charCodes encoding c ++ codes encoding rest := by
  have hpairs (code : UInt8 → UInt8 → Option UInt8) (first second : Nat → UInt8) :
      pairCodes code (((utf16 c).flatMap fun unit => [first unit, second unit]) ++ rest) =
        pairCodes code ((utf16 c).flatMap fun unit => [first unit, second unit]) ++
          pairCodes code rest := by
    have halone := pairCodes_units code first second (utf16 c) []
    rw [List.append_nil] at halone
    rw [pairCodes_units, halone]
    simp [pairCodes]
  cases encoding with
  | singleByte => exact List.map_append
  | utf16Le => exact hpairs ..
  | utf16Be => exact hpairs ..

/-- A text in front of other bytes is met as its own codes. -/
theorem codes_encode (encoding : RawEncodingClass) (text : List Char) (rest : Bytes) :
    codes encoding (encode encoding text ++ rest) = textCodes encoding text ++ codes encoding rest := by
  induction text with
  | nil => rfl
  | cons c text ih =>
    rw [encode_cons, textCodes_cons, List.append_assoc, codes_encodeChar, ih, List.append_assoc]

theorem codes_encode_all (encoding : RawEncodingClass) (text : List Char) :
    codes encoding (encode encoding text) = textCodes encoding text := by
  have h := codes_encode encoding text []
  rw [List.append_nil] at h
  rw [h]
  cases encoding <;> exact List.append_nil _

theorem length_encodeChar (encoding : RawEncodingClass) (c : Char) :
    (encodeChar encoding c).length = (charCodes encoding c).length * unitWidth encoding := by
  have hpairs (code : UInt8 → UInt8 → Option UInt8) (first second : Nat → UInt8) :
      ((utf16 c).flatMap fun unit => [first unit, second unit]).length =
        (pairCodes code ((utf16 c).flatMap fun unit => [first unit, second unit])).length * 2 := by
    have halone := pairCodes_units code first second (utf16 c) []
    rw [List.append_nil] at halone
    rw [halone, List.length_flatMap]
    simp [pairCodes]
  cases encoding with
  | singleByte => simp [charCodes, codes, unitWidth]
  | utf16Le => exact hpairs ..
  | utf16Be => exact hpairs ..

theorem length_encode (encoding : RawEncodingClass) (text : List Char) :
    (encode encoding text).length = (textCodes encoding text).length * unitWidth encoding := by
  induction text with
  | nil => rw [encode, textCodes]; simp
  | cons c text ih =>
    rw [encode_cons, textCodes_cons, List.length_append, List.length_append, Nat.add_mul, ih,
      length_encodeChar]

/-- An ASCII character is one unit, with its own code. -/
theorem charCodes_ascii (encoding : RawEncodingClass) {c : Char} (h : c.toNat < 128) :
    charCodes encoding c = [some c.toUInt8] := by
  have hunits : utf16 c = [c.toNat] := if_pos (by omega)
  have hlow : lowByte c.toNat = c.toUInt8 := by
    rw [lowByte, Nat.mod_eq_of_lt (by omega)]
    rfl
  have hhigh : highByte c.toNat = 0 := by
    rw [highByte, Nat.div_eq_of_lt (by omega)]
    rfl
  cases encoding with
  | singleByte =>
    have hcode : byteCode c.toUInt8 = some c.toUInt8 := by
      refine if_pos (UInt8.lt_iff_toNat_lt.mpr ?_)
      show (UInt8.ofNat c.toNat).toNat < 128
      rwa [UInt8.toNat_ofNat_of_lt' (Nat.lt_trans h (by decide))]
    rw [charCodes, encodeChar, utf8EncodeChar_ascii h, codes, List.map_singleton, hcode]
  | utf16Le => simp [charCodes, encodeChar, hunits, hlow, hhigh, codes, pairCodes, pairCode]
  | utf16Be => simp [charCodes, encodeChar, hunits, hlow, hhigh, codes, pairCodes, pairCode]

/-- The units of a character: its own number, or one of the surrogates. -/
theorem utf16_bounds {c : Char} : ∀ unit ∈ utf16 c, min c.toNat 0xD800 ≤ unit ∧ unit < 65536 := by
  have hvalid : c.toNat < 0x110000 := by
    rcases c.valid with hlow | ⟨-, hhigh⟩
    · exact Nat.lt_trans hlow (by decide)
    · exact hhigh
  intro unit hunit
  rw [utf16] at hunit
  split at hunit
  · rw [List.mem_singleton.mp hunit]
    omega
  · simp only [List.mem_cons, List.not_mem_nil, or_false] at hunit
    omega

theorem toNat_lowByte (unit : Nat) : (lowByte unit).toNat = unit % 256 :=
  UInt8.toNat_ofNat_of_lt' (Nat.mod_lt _ (by decide))

theorem toNat_highByte {unit : Nat} (h : unit < 65536) : (highByte unit).toNat = unit / 256 :=
  UInt8.toNat_ofNat_of_lt' (show unit / 256 < 256 by omega)

/-- No unit of another character has an ASCII code. -/
theorem charCodes_other (encoding : RawEncodingClass) {c : Char} (h : ¬ c.toNat < 128) :
    ∀ code ∈ charCodes encoding c, ∀ ascii, code = some ascii → ¬ ascii.toNat < 128 := by
  have hpair : ∀ unit ∈ utf16 c, ∀ ascii,
      pairCode (lowByte unit) (highByte unit) = some ascii → ¬ ascii.toNat < 128 := by
    intro unit hunit ascii hcode
    obtain ⟨hlow, hhigh⟩ := utf16_bounds unit hunit
    rw [pairCode] at hcode
    split at hcode
    · rename_i hzero
      have hquotient : unit / 256 = 0 := by
        rw [← toNat_highByte hhigh, hzero]
        rfl
      rw [← Option.some.inj hcode, toNat_lowByte]
      omega
    · cases hcode
  cases encoding with
  | singleByte =>
    have hnone : ∀ code ∈ charCodes .singleByte c, code = none := by
      intro code hcode
      obtain ⟨byte, hbyte, rfl⟩ := List.mem_map.mp hcode
      have hlarge := (utf8EncodeChar_other h byte hbyte).1
      refine if_neg fun hlt => ?_
      have hsmall : byte.toNat < 128 := UInt8.lt_iff_toNat_lt.mp hlt
      omega
    intro code hcode ascii hascii
    rw [hnone code hcode] at hascii
    cases hascii
  | utf16Le =>
    have hcodes := pairCodes_units pairCode lowByte highByte (utf16 c) []
    rw [List.append_nil, pairCodes, List.append_nil] at hcodes
    intro code hcode ascii hascii
    rw [charCodes, codes, encodeChar, hcodes] at hcode
    obtain ⟨unit, hunit, rfl⟩ := List.mem_map.mp hcode
    exact hpair unit hunit ascii hascii
  | utf16Be =>
    have hcodes := pairCodes_units (fun high low => pairCode low high) highByte lowByte (utf16 c) []
    rw [List.append_nil, pairCodes, List.append_nil] at hcodes
    intro code hcode ascii hascii
    rw [charCodes, codes, encodeChar, hcodes] at hcode
    obtain ⟨unit, hunit, rfl⟩ := List.mem_map.mp hcode
    exact hpair unit hunit ascii hascii

/-- The codes of a character are those of no other mark. -/
theorem charCodes_ne (encoding : RawEncodingClass) {c mark : Char} (hmark : mark.toNat < 128)
    (hne : c ≠ mark) : ∀ code ∈ charCodes encoding c, code ≠ some mark.toUInt8 := by
  have hbyte : mark.toUInt8.toNat = mark.toNat := UInt8.toNat_ofNat_of_lt' (by
    show mark.toNat < 256
    omega)
  intro code hcode heq
  by_cases hascii : c.toNat < 128
  · rw [charCodes_ascii encoding hascii, List.mem_singleton] at hcode
    rw [hcode, Option.some_inj] at heq
    have hbytes := congrArg UInt8.toNat heq
    rw [hbyte, show c.toUInt8.toNat = c.toNat from UInt8.toNat_ofNat_of_lt' (by
      show c.toNat < 256
      omega)] at hbytes
    exact hne (Char.toNat_inj.mp hbytes)
  · exact charCodes_other encoding hascii code hcode _ heq (by omega)

end ParseX.Loader

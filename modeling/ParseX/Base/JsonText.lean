import ParseX.Base.Json

/-! # JSON text

Which bytes are the text of a value. A phrase derives a text up to the rest that
follows it; the members of an object stand in the order of the text, and a key may
come twice. -/
namespace ParseX.JsonText
open Cpp

/-! ## Bytes -/

def quote : UInt8 := '"'.toUInt8
def backslash : UInt8 := '\\'.toUInt8
def comma : UInt8 := ','.toUInt8
def colon : UInt8 := ':'.toUInt8
def openBracket : UInt8 := '['.toUInt8
def closeBracket : UInt8 := ']'.toUInt8
def openBrace : UInt8 := '{'.toUInt8
def closeBrace : UInt8 := '}'.toUInt8
def minus : UInt8 := '-'.toUInt8

def blanks : Bytes := utf8 " \t\n\r"

def digits : Bytes := utf8 "0123456789"

/-- White space and the rest after it. -/
def Blank (text rest : Bytes) : Prop := ∃ space, (∀ byte ∈ space, byte ∈ blanks) ∧ text = space ++ rest

/-! ## Strings -/

/-- The byte that a letter stands for after a backslash. -/
def shortEscape (letter : UInt8) : Option UInt8 :=
  [(quote, quote), (backslash, backslash), ('/'.toUInt8, '/'.toUInt8), ('b'.toUInt8, 8),
    ('f'.toUInt8, 12), ('n'.toUInt8, 10), ('r'.toUInt8, 13), ('t'.toUInt8, 9)].lookup letter

def hexDigit (digit : UInt8) : Option Nat :=
  if '0'.toUInt8 ≤ digit ∧ digit ≤ '9'.toUInt8 then some (digit.toNat - 48)
  else if 'a'.toUInt8 ≤ digit ∧ digit ≤ 'f'.toUInt8 then some (digit.toNat - 87)
  else if 'A'.toUInt8 ≤ digit ∧ digit ≤ 'F'.toUInt8 then some (digit.toNat - 55)
  else none

/-- The code unit of four hexadecimal digits. -/
def codeUnit (text : Bytes) : Option Nat :=
  if text.length = 4 then
    (text.mapM hexDigit).map fun values => values.foldl (fun unit value => unit * 16 + value) 0
  else none

def unicodeEscape (hex : Bytes) : Bytes := backslash :: 'u'.toUInt8 :: hex

/-- The rest of a string after its opening quote, with the bytes that it stands for. -/
inductive Body : Bytes → Bytes → Bytes → Prop where
  | close {rest : Bytes} : Body [] (quote :: rest) rest
  | plain {byte : UInt8} {content text rest : Bytes} : 0x20 ≤ byte → byte ≠ quote →
      byte ≠ backslash → Body content text rest → Body (byte :: content) (byte :: text) rest
  | escape {letter byte : UInt8} {content text rest : Bytes} : shortEscape letter = some byte →
      Body content text rest → Body (byte :: content) (backslash :: letter :: text) rest
  | unicode {hex content text rest : Bytes} {unit : Nat} : codeUnit hex = some unit →
      (unit < 0xD800 ∨ 0xDFFF < unit) → Body content text rest →
      Body (String.utf8EncodeChar (Char.ofNat unit) ++ content) (unicodeEscape hex ++ text) rest
  | surrogates {hex hex' content text rest : Bytes} {high low : Nat} : codeUnit hex = some high →
      codeUnit hex' = some low → 0xD800 ≤ high → high ≤ 0xDBFF → 0xDC00 ≤ low → low ≤ 0xDFFF →
      Body content text rest →
      Body (String.utf8EncodeChar
          (Char.ofNat (0x10000 + (high - 0xD800) * 0x400 + (low - 0xDC00))) ++ content)
        (unicodeEscape hex ++ (unicodeEscape hex' ++ text)) rest

/-! ## Numbers -/

/-- At least one digit. -/
def Digits (text : Bytes) : Prop := text ≠ [] ∧ ∀ byte ∈ text, byte ∈ digits

/-- Digits without a needless zero in front. -/
def Numeral (text : Bytes) : Prop := Digits text ∧ (text.head? = some '0'.toUInt8 → text.length = 1)

def numeralValue (text : Bytes) : Nat :=
  text.foldl (fun value digit => value * 10 + (digit.toNat - 48)) 0

def sign (negative : Bool) : Bytes := if negative then [minus] else []

def integerValue (negative : Bool) (text : Bytes) : Int :=
  if negative then -(numeralValue text : Int) else numeralValue text

/-- The integers that have 64 bits, signed or unsigned. -/
def Has64Bits (value : Int) : Prop := -2 ^ 63 ≤ value ∧ value < 2 ^ 64

def Fraction (text : Bytes) : Prop := text = [] ∨ ∃ more, text = '.'.toUInt8 :: more ∧ Digits more

def Exponent (text : Bytes) : Prop :=
  text = [] ∨ ∃ letter plus more, text = letter :: (plus ++ more) ∧
    (letter = 'e'.toUInt8 ∨ letter = 'E'.toUInt8) ∧
    (plus = [] ∨ plus = ['+'.toUInt8] ∨ plus = [minus]) ∧ Digits more

/-- The text of a number. Which double a text denotes is left open. -/
inductive Number : Json → Bytes → Prop where
  | integer {negative : Bool} {text : Bytes} : Numeral text →
      Has64Bits (integerValue negative text) →
      Number (.integer (integerValue negative text)) (sign negative ++ text)
  | double {negative : Bool} {text fraction exponent : Bytes} {bits : UInt64} : Numeral text →
      Fraction fraction → Exponent exponent →
      (fraction = [] → exponent = [] → ¬ Has64Bits (integerValue negative text)) →
      Number (.double bits) (sign negative ++ (text ++ (fraction ++ exponent)))

/-! ## Values -/

/-- A key and the colon after it, up to the value. -/
inductive Key : Bytes → Bytes → Bytes → Prop where
  | mk {key t t₁ t₂ t₃ rest : Bytes} : Blank t (quote :: t₁) → Body key t₁ t₂ →
      Blank t₂ (colon :: t₃) → Blank t₃ rest → Key key t rest

inductive Phrase where
  | value (json : Json)
  | items (list : List Json)
  | members (list : List (Bytes × Json))

/-- A phrase and the rest of the text after it. -/
inductive Derives : Phrase → Bytes → Bytes → Prop where
  | null {rest : Bytes} : Derives (.value .null) (utf8 "null" ++ rest) rest
  | true {rest : Bytes} : Derives (.value (.boolean true)) (utf8 "true" ++ rest) rest
  | false {rest : Bytes} : Derives (.value (.boolean false)) (utf8 "false" ++ rest) rest
  | number {value : Json} {text rest : Bytes} : Number value text →
      Derives (.value value) (text ++ rest) rest
  | string {content text rest : Bytes} : Body content text rest →
      Derives (.value (.string content)) (quote :: text) rest
  | emptyArray {text rest : Bytes} : Blank text (closeBracket :: rest) →
      Derives (.value (.array [])) (openBracket :: text) rest
  | array {items : List Json} {text rest : Bytes} :
      Derives (.items items) text (closeBracket :: rest) →
      Derives (.value (.array items)) (openBracket :: text) rest
  | emptyObject {text rest : Bytes} : Blank text (closeBrace :: rest) →
      Derives (.value (.object [])) (openBrace :: text) rest
  | object {members : List (Bytes × Json)} {text rest : Bytes} :
      Derives (.members members) text (closeBrace :: rest) →
      Derives (.value (.object members)) (openBrace :: text) rest
  | lastItem {value : Json} {t t₁ t₂ rest : Bytes} : Blank t t₁ → Derives (.value value) t₁ t₂ →
      Blank t₂ rest → Derives (.items [value]) t rest
  | item {value : Json} {items : List Json} {t t₁ t₂ t₃ rest : Bytes} : Blank t t₁ →
      Derives (.value value) t₁ t₂ → Blank t₂ (comma :: t₃) → Derives (.items items) t₃ rest →
      Derives (.items (value :: items)) t rest
  | lastMember {key : Bytes} {value : Json} {t t₁ t₂ rest : Bytes} : Key key t t₁ →
      Derives (.value value) t₁ t₂ → Blank t₂ rest → Derives (.members [(key, value)]) t rest
  | member {key : Bytes} {value : Json} {members : List (Bytes × Json)} {t t₁ t₂ t₃ rest : Bytes} :
      Key key t t₁ → Derives (.value value) t₁ t₂ → Blank t₂ (comma :: t₃) →
      Derives (.members members) t₃ rest → Derives (.members ((key, value) :: members)) t rest

/-- Members, each with the comma after it. -/
inductive Leads : List (Bytes × Json) → Bytes → Bytes → Prop where
  | nil {rest : Bytes} : Leads [] rest rest
  | cons {key : Bytes} {value : Json} {members : List (Bytes × Json)} {t t₁ t₂ t₃ rest : Bytes} :
      Key key t t₁ → Derives (.value value) t₁ t₂ → Blank t₂ (comma :: t₃) →
      Leads members t₃ rest → Leads ((key, value) :: members) t rest

/-- What stands between the last of some members and the end of their object. -/
inductive Ends : List (Bytes × Json) → Bytes → Bytes → Prop where
  | nil {text rest : Bytes} : Blank text (closeBrace :: rest) → Ends [] text rest
  | cons {members : List (Bytes × Json)} {text t rest : Bytes} : Blank text (comma :: t) →
      Derives (.members members) t (closeBrace :: rest) → Ends members text rest

def byteOrderMark : Bytes := [0xEF, 0xBB, 0xBF]

/-- A text that is one value, after a byte order mark or none. -/
def Document (value : Json) (text : Bytes) : Prop :=
  ∃ mark t t₁ t₂, (mark = [] ∨ mark = byteOrderMark) ∧ text = mark ++ t ∧ Blank t t₁ ∧
    Derives (.value value) t₁ t₂ ∧ Blank t₂ []

def Phrase.depth : Phrase → Nat
  | .value json => json.depth
  | .items list => Json.depthItems list
  | .members list => Json.depthMembers list

/-! ## The bytes of a number -/

def numberBytes : Bytes := utf8 "0123456789+-.eE"

theorem Digits.numberBytes {text : Bytes} (h : Digits text) :
    ∀ byte ∈ text, byte ∈ JsonText.numberBytes := by
  have hdigits : digits ⊆ JsonText.numberBytes := by
    show utf8 "0123456789" ⊆ utf8 "0123456789" ++ utf8 "+-.eE"
    exact List.subset_append_left ..
  exact fun byte hbyte => hdigits (h.2 byte hbyte)

theorem Number.numberBytes {value : Json} {text : Bytes} (h : Number value text) :
    ∀ byte ∈ text, byte ∈ JsonText.numberBytes := by
  have hsign (negative : Bool) : ∀ byte ∈ sign negative, byte ∈ JsonText.numberBytes := by
    cases negative <;> decide
  cases h with
  | integer hnumeral => exact List.forall_mem_append.mpr ⟨hsign _, hnumeral.1.numberBytes⟩
  | double hnumeral hfraction hexponent =>
    refine List.forall_mem_append.mpr ⟨hsign _, List.forall_mem_append.mpr
      ⟨hnumeral.1.numberBytes, List.forall_mem_append.mpr ⟨?_, ?_⟩⟩⟩
    · rcases hfraction with rfl | ⟨more, rfl, hmore⟩
      · nofun
      · exact List.forall_mem_cons.mpr ⟨by decide, hmore.numberBytes⟩
    · rcases hexponent with rfl | ⟨letter, plus, more, rfl, hletter, hplus, hmore⟩
      · nofun
      · refine List.forall_mem_cons.mpr ⟨?_, List.forall_mem_append.mpr ⟨?_, hmore.numberBytes⟩⟩
        · rcases hletter with rfl | rfl <;> decide
        · rcases hplus with rfl | rfl | rfl <;> decide

/-! ## Members of an object -/

theorem Leads.derives {earlier members : List (Bytes × Json)} {text t rest : Bytes}
    (h : Leads earlier text t) (hmembers : Derives (.members members) t rest) :
    Derives (.members (earlier ++ members)) text rest := by
  induction h with
  | nil => exact hmembers
  | cons hkey hvalue hcomma _ ih => exact .member hkey hvalue hcomma (ih hmembers)

/-- A member of an object with what stands before and after it. -/
theorem derives_object {earlier later : List (Bytes × Json)} {key : Bytes} {value : Json}
    {text t t₁ t₂ rest : Bytes} (hearlier : Leads earlier text t) (hkey : Key key t t₁)
    (hvalue : Derives (.value value) t₁ t₂) (hlater : Ends later t₂ rest) :
    Derives (.value (.object (earlier ++ (key, value) :: later))) (openBrace :: text) rest := by
  refine .object (hearlier.derives ?_)
  cases hlater with
  | nil hclose => exact .lastMember hkey hvalue hclose
  | cons hcomma hmembers => exact .member hkey hvalue hcomma hmembers

/-! ## No empty text -/

theorem Number.ne_nil {value : Json} {text : Bytes} (h : Number value text) : text ≠ [] := by
  cases h with
  | integer hnumeral => exact fun h => hnumeral.1.1 (List.append_eq_nil_iff.mp h).2
  | double hnumeral =>
    exact fun h => hnumeral.1.1 (List.append_eq_nil_iff.mp (List.append_eq_nil_iff.mp h).2).1

theorem Blank.ne_nil {text rest : Bytes} (h : Blank text rest) (hrest : rest ≠ []) : text ≠ [] := by
  obtain ⟨space, -, rfl⟩ := h
  exact fun h => hrest (List.append_eq_nil_iff.mp h).2

theorem Derives.ne_nil {phrase : Phrase} {text rest : Bytes} (h : Derives phrase text rest) :
    text ≠ [] := by
  induction h with
  | null | true | false => exact fun h => absurd (List.append_eq_nil_iff.mp h).1 (by decide)
  | number hnumber => exact fun h => hnumber.ne_nil (List.append_eq_nil_iff.mp h).1
  | string | emptyArray | array | emptyObject | object => nofun
  | lastItem hblank _ _ ih => exact hblank.ne_nil ih
  | item hblank _ _ _ ih => exact hblank.ne_nil ih
  | lastMember hkey | member hkey =>
    cases hkey with
    | mk hquote => exact hquote.ne_nil nofun

theorem Document.ne_nil {value : Json} {text : Bytes} (h : Document value text) : text ≠ [] := by
  obtain ⟨mark, t, t₁, t₂, -, rfl, hblank, hvalue, -⟩ := h
  exact fun h => hblank.ne_nil hvalue.ne_nil (List.append_eq_nil_iff.mp h).2

/-! ## The bytes of a string -/

/-- Hexadecimal digits are neither quotes nor backslashes. -/
theorem ne_of_codeUnit {hex : Bytes} {unit : Nat} (h : codeUnit hex = some unit) :
    ∀ byte ∈ hex, byte ≠ quote ∧ byte ≠ backslash := by
  have hdigits : ∀ {hex : Bytes} {values : List Nat}, hex.mapM hexDigit = some values →
      ∀ byte ∈ hex, (hexDigit byte).isSome := by
    intro hex
    induction hex with
    | nil => nofun
    | cons digit hex ih =>
      intro values hvalues
      rw [List.mapM_cons] at hvalues
      obtain ⟨value, hdigit, hrest⟩ := Option.bind_eq_some_iff.mp hvalues
      obtain ⟨more, hmore, -⟩ := Option.bind_eq_some_iff.mp hrest
      exact List.forall_mem_cons.mpr ⟨by rw [hdigit]; rfl, ih hmore⟩
  rw [codeUnit] at h
  split at h
  · obtain ⟨values, hvalues, -⟩ := Option.map_eq_some_iff.mp h
    intro byte hbyte
    have hsome := hdigits hvalues byte hbyte
    constructor
    · rintro rfl
      exact absurd hsome (by decide)
    · rintro rfl
      exact absurd hsome (by decide)
  · cases h

end ParseX.JsonText

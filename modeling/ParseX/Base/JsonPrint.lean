import ParseX.Base.JsonText
import ParseX.Cpp.Integer

/-! # Printing JSON

The compact text of a value, on one line: quotes, backslashes and control
characters are escaped. What is printed derives the value again. -/
namespace ParseX.JsonText
open Cpp

def hexLetter (value : Nat) : UInt8 := (Nat.digitChar value).toUInt8

def escapeByte (byte : UInt8) : Bytes :=
  if byte = quote ∨ byte = backslash then [backslash, byte]
  else if byte = 8 then [backslash, 'b'.toUInt8]
  else if byte = 9 then [backslash, 't'.toUInt8]
  else if byte = 10 then [backslash, 'n'.toUInt8]
  else if byte = 12 then [backslash, 'f'.toUInt8]
  else if byte = 13 then [backslash, 'r'.toUInt8]
  else if byte < 0x20 then
    unicodeEscape [hexLetter 0, hexLetter 0, hexLetter (byte.toNat / 16), hexLetter (byte.toNat % 16)]
  else [byte]

def printString (bytes : Bytes) : Bytes := quote :: (bytes.flatMap escapeByte ++ [quote])

mutual

/-- The text of a value, with a text for every double. -/
def print (printDouble : UInt64 → Bytes) : Json → Bytes
  | .null => utf8 "null"
  | .boolean value => utf8 (if value then "true" else "false")
  | .integer value => utf8 (toString value)
  | .double bits => printDouble bits
  | .string bytes => printString bytes
  | .array items => openBracket :: (printItems printDouble items ++ [closeBracket])
  | .object members => openBrace :: (printMembers printDouble members ++ [closeBrace])

def printItems (printDouble : UInt64 → Bytes) : List Json → Bytes
  | [] => []
  | [value] => print printDouble value
  | value :: items => print printDouble value ++ comma :: printItems printDouble items

def printMembers (printDouble : UInt64 → Bytes) : List (Bytes × Json) → Bytes
  | [] => []
  | [(key, value)] => printString key ++ colon :: print printDouble value
  | (key, value) :: members =>
    printString key ++ colon :: (print printDouble value ++ comma :: printMembers printDouble members)

end

mutual

/-- No doubles, and integers of 64 bits. -/
def isExact : Json → Bool
  | .integer value => decide (-2 ^ 63 ≤ value) && decide (value < 2 ^ 64)
  | .double _ => false
  | .array items => isExactItems items
  | .object members => isExactMembers members
  | _ => true

def isExactItems : List Json → Bool
  | [] => true
  | value :: items => isExact value && isExactItems items

def isExactMembers : List (Bytes × Json) → Bool
  | [] => true
  | (_, value) :: members => isExact value && isExactMembers members

end

/-! ## Strings -/

/-- A control character that has no letter. -/
theorem body_control {byte : UInt8} {content text rest : Bytes} (hbyte : byte < 0x20)
    (h : Body content text rest) :
    Body (byte :: content)
      (unicodeEscape [hexLetter 0, hexLetter 0, hexLetter (byte.toNat / 16),
        hexLetter (byte.toNat % 16)] ++ text) rest := by
  have hlt : byte.toNat < 32 := hbyte
  have hunit : ∀ n < 32, codeUnit [hexLetter 0, hexLetter 0, hexLetter (n / 16), hexLetter (n % 16)] =
      some n ∧ String.utf8EncodeChar (Char.ofNat n) = [UInt8.ofNat n] := by
    decide
  obtain ⟨hcode, hencode⟩ := hunit _ hlt
  have hbody := Body.unicode hcode (.inl (by omega)) h
  rwa [hencode, UInt8.ofNat_toNat] at hbody

theorem body_escapeByte (byte : UInt8) {content text rest : Bytes} (h : Body content text rest) :
    Body (byte :: content) (escapeByte byte ++ text) rest := by
  rw [escapeByte]
  split
  · rename_i hself
    rcases hself with rfl | rfl
    · exact .escape (by decide) h
    · exact .escape (by decide) h
  · rename_i hplain
    rw [not_or] at hplain
    split
    · subst byte
      exact .escape (by decide) h
    split
    · subst byte
      exact .escape (by decide) h
    split
    · subst byte
      exact .escape (by decide) h
    split
    · subst byte
      exact .escape (by decide) h
    split
    · subst byte
      exact .escape (by decide) h
    split
    · rename_i hcontrol
      exact body_control hcontrol h
    · rename_i hvisible
      exact .plain (UInt8.not_lt.mp hvisible) hplain.1 hplain.2 h

theorem body_print (bytes rest : Bytes) :
    Body bytes (bytes.flatMap escapeByte ++ [quote] ++ rest) rest := by
  induction bytes with
  | nil => exact .close
  | cons byte bytes ih =>
    rw [List.flatMap_cons, List.append_assoc, List.append_assoc]
    rw [List.append_assoc] at ih
    exact body_escapeByte byte ih

theorem blank_nil (text : Bytes) : Blank text text := ⟨[], nofun, rfl⟩

theorem key_print (key rest : Bytes) : Key key (printString key ++ colon :: rest) rest :=
  .mk (blank_nil _) (body_print key (colon :: rest)) (blank_nil _) (blank_nil _)

/-! ## Numbers -/

/-- The digits of a number, as bytes. -/
theorem numeral_toDigits (n : Nat) : Numeral ((Nat.toDigits 10 n).map Char.toUInt8) ∧
    numeralValue ((Nat.toDigits 10 n).map Char.toUInt8) = n := by
  have hdigit : ∀ d < 10, (Nat.digitChar d).toUInt8 ∈ digits ∧
      (Nat.digitChar d).toUInt8.toNat - 48 = d := by
    decide
  induction n using Nat.strongRecOn with
  | ind n ih =>
    by_cases hn : n < 10
    · obtain ⟨hmem, hvalue⟩ := hdigit n hn
      rw [Nat.toDigits_of_lt_base hn]
      refine ⟨⟨⟨by simp, by simpa using hmem⟩, fun _ => rfl⟩, ?_⟩
      simpa [numeralValue] using hvalue
    · obtain ⟨⟨hdigits, hhead⟩, hvalue⟩ := ih (n / 10) (by omega)
      obtain ⟨hmem, hlast⟩ := hdigit (n % 10) (by omega)
      rw [Nat.toDigits_of_base_le (by omega) (by omega), List.map_append]
      generalize (Nat.toDigits 10 (n / 10)).map Char.toUInt8 = text at hdigits hhead hvalue
      refine ⟨⟨⟨by simp, List.forall_mem_append.mpr ⟨hdigits.2, by simpa using hmem⟩⟩,
        fun hzero => ?_⟩, ?_⟩
      · -- A zero in front is all of a numeral, which is then zero.
        rw [List.head?_append_of_ne_nil _ hdigits.1] at hzero
        obtain ⟨digit, rfl⟩ := List.length_eq_one_iff.mp (hhead hzero)
        obtain rfl : digit = '0'.toUInt8 := Option.some.inj hzero
        have hzero : numeralValue ['0'.toUInt8] = 0 := by decide
        omega
      · rw [numeralValue, List.foldl_append] at *
        simp only [List.map_cons, List.map_nil, List.foldl_cons, List.foldl_nil, hvalue, hlast]
        omega

theorem utf8_toDigits (n : Nat) :
    (Nat.toDigits 10 n).flatMap String.utf8EncodeChar = (Nat.toDigits 10 n).map Char.toUInt8 := by
  refine flatMap_ascii fun c hc => ?_
  have hdigit := Nat.isDigit_of_mem_toDigits (by decide) (by decide) hc
  have hle : c.toNat ≤ 57 := (Char.isDigit_iff_toNat.mp hdigit).2
  omega

theorem number_print {value : Int} (h : Has64Bits value) :
    Number (.integer value) (utf8 (toString value)) := by
  cases value with
  | ofNat n =>
    obtain ⟨hnumeral, hvalue⟩ := numeral_toDigits n
    have hinteger : integerValue false ((Nat.toDigits 10 n).map Char.toUInt8) = Int.ofNat n := by
      rw [integerValue, hvalue]
      rfl
    have hnumber := @Number.integer false _ hnumeral (by rwa [hinteger])
    rw [hinteger] at hnumber
    rw [utf8, show toString (Int.ofNat n) = toString n from rfl, toList_toString_nat, utf8_toDigits]
    exact hnumber
  | negSucc n =>
    obtain ⟨hnumeral, hvalue⟩ := numeral_toDigits (n + 1)
    have hinteger : integerValue true ((Nat.toDigits 10 (n + 1)).map Char.toUInt8) =
        Int.negSucc n := by
      rw [integerValue, hvalue]
      rfl
    have hnumber := @Number.integer true _ hnumeral (by rwa [hinteger])
    rw [hinteger] at hnumber
    rw [utf8, toList_toString_neg, List.flatMap_cons, utf8_toDigits]
    exact hnumber

/-! ## Values -/

variable {printDouble : UInt64 → Bytes}

mutual

/-- **What is printed derives the value.** -/
theorem derives_print : ∀ value : Json, isExact value = true → ∀ rest,
    Derives (.value value) (print printDouble value ++ rest) rest
  | .null, _, _ => .null
  | .boolean true, _, _ => .true
  | .boolean false, _, _ => .false
  | .integer value, h, rest => by
    rw [isExact, Bool.and_eq_true, decide_eq_true_iff, decide_eq_true_iff] at h
    exact .number (number_print h)
  | .string bytes, _, rest => .string (body_print bytes rest)
  | .array [], _, _ => .emptyArray (blank_nil _)
  | .array (value :: items), h, rest => by
    have hitems := derives_printItems (value :: items) nofun h (closeBracket :: rest)
    have htext : print printDouble (.array (value :: items)) ++ rest =
        openBracket :: (printItems printDouble (value :: items) ++ closeBracket :: rest) := by
      simp [print]
    rw [htext]
    exact .array hitems
  | .object [], _, _ => .emptyObject (blank_nil _)
  | .object (member :: members), h, rest => by
    have hmembers := derives_printMembers (member :: members) nofun h (closeBrace :: rest)
    have htext : print printDouble (.object (member :: members)) ++ rest =
        openBrace :: (printMembers printDouble (member :: members) ++ closeBrace :: rest) := by
      simp [print]
    rw [htext]
    exact .object hmembers

theorem derives_printItems : ∀ items : List Json, items ≠ [] → isExactItems items = true →
    ∀ rest, Derives (.items items) (printItems printDouble items ++ rest) rest
  | [value], _, h, rest => by
    rw [isExactItems, Bool.and_eq_true] at h
    exact .lastItem (blank_nil _) (derives_print value h.1 rest) (blank_nil _)
  | value :: next :: items, _, h, rest => by
    rw [isExactItems, Bool.and_eq_true] at h
    have htext : printItems printDouble (value :: next :: items) ++ rest =
        print printDouble value ++ comma :: (printItems printDouble (next :: items) ++ rest) := by
      simp [printItems]
    rw [htext]
    exact .item (blank_nil _) (derives_print value h.1 _) (blank_nil _)
      (derives_printItems (next :: items) nofun h.2 rest)

theorem derives_printMembers : ∀ members : List (Bytes × Json), members ≠ [] →
    isExactMembers members = true →
    ∀ rest, Derives (.members members) (printMembers printDouble members ++ rest) rest
  | [(key, value)], _, h, rest => by
    rw [isExactMembers, Bool.and_eq_true] at h
    have htext : printMembers printDouble [(key, value)] ++ rest =
        printString key ++ colon :: (print printDouble value ++ rest) := by
      simp [printMembers]
    rw [htext]
    exact .lastMember (key_print key _) (derives_print value h.1 rest) (blank_nil _)
  | (key, value) :: next :: members, _, h, rest => by
    rw [isExactMembers, Bool.and_eq_true] at h
    have htext : printMembers printDouble ((key, value) :: next :: members) ++ rest =
        printString key ++ colon :: (print printDouble value ++
          comma :: (printMembers printDouble (next :: members) ++ rest)) := by
      simp [printMembers]
    rw [htext]
    exact .member (key_print key _) (derives_print value h.1 _) (blank_nil _)
      (derives_printMembers (next :: members) nofun h.2 rest)

end

/-! ## One line -/

/-- No byte is a control character. -/
def Visible (text : Bytes) : Prop := ∀ byte ∈ text, 0x20 ≤ byte

instance (text : Bytes) : Decidable (Visible text) :=
  inferInstanceAs (Decidable (∀ byte ∈ text, 0x20 ≤ byte))

theorem Visible.append {text more : Bytes} (h : Visible text) (hmore : Visible more) :
    Visible (text ++ more) := List.forall_mem_append.mpr ⟨h, hmore⟩

theorem Visible.cons {byte : UInt8} {text : Bytes} (hbyte : 0x20 ≤ byte) (h : Visible text) :
    Visible (byte :: text) := List.forall_mem_cons.mpr ⟨hbyte, h⟩

theorem visible_escapeByte (byte : UInt8) : Visible (escapeByte byte) := by
  have hhex : ∀ n < 32, Visible (unicodeEscape
      [hexLetter 0, hexLetter 0, hexLetter (n / 16), hexLetter (n % 16)]) := by
    decide
  rw [escapeByte]
  split
  · rename_i hself
    rcases hself with rfl | rfl <;> decide
  split
  · decide
  split
  · decide
  split
  · decide
  split
  · decide
  split
  · decide
  split
  · rename_i hcontrol
    exact hhex _ hcontrol
  · rename_i hvisible
    exact List.forall_mem_singleton.mpr (UInt8.not_lt.mp hvisible)

theorem visible_printString (bytes : Bytes) : Visible (printString bytes) := by
  refine .cons (by decide) (.append (fun byte hbyte => ?_) (.cons (by decide) nofun))
  obtain ⟨plain, -, hplain⟩ := List.mem_flatMap.mp hbyte
  exact visible_escapeByte plain byte hplain

theorem visible_toString (value : Int) : Visible (utf8 (toString value)) := by
  have hdigits (n : Nat) : Visible ((Nat.toDigits 10 n).map Char.toUInt8) := by
    have hvisible : ∀ byte ∈ digits, 0x20 ≤ byte := by decide
    exact fun byte hbyte => hvisible byte ((numeral_toDigits n).1.1.2 byte hbyte)
  cases value with
  | ofNat n =>
    rw [utf8, show toString (Int.ofNat n) = toString n from rfl, toList_toString_nat, utf8_toDigits]
    exact hdigits n
  | negSucc n =>
    rw [utf8, toList_toString_neg, List.flatMap_cons, utf8_toDigits]
    exact .append (by decide) (hdigits (n + 1))

mutual

theorem visible_print (hdouble : ∀ bits, Visible (printDouble bits)) :
    ∀ value : Json, Visible (print printDouble value)
  | .null => show Visible (utf8 "null") by decide
  | .boolean true => show Visible (utf8 "true") by decide
  | .boolean false => show Visible (utf8 "false") by decide
  | .integer value => visible_toString value
  | .double bits => hdouble bits
  | .string bytes => visible_printString bytes
  | .array items =>
    .cons (by decide) (.append (visible_printItems hdouble items) (.cons (by decide) nofun))
  | .object members =>
    .cons (by decide) (.append (visible_printMembers hdouble members) (.cons (by decide) nofun))

theorem visible_printItems (hdouble : ∀ bits, Visible (printDouble bits)) :
    ∀ items : List Json, Visible (printItems printDouble items)
  | [] => nofun
  | [value] => visible_print hdouble value
  | value :: next :: items =>
    .append (visible_print hdouble value)
      (.cons (by decide) (visible_printItems hdouble (next :: items)))

theorem visible_printMembers (hdouble : ∀ bits, Visible (printDouble bits)) :
    ∀ members : List (Bytes × Json), Visible (printMembers printDouble members)
  | [] => nofun
  | [(key, value)] =>
    .append (visible_printString key) (.cons (by decide) (visible_print hdouble value))
  | (key, value) :: next :: members =>
    .append (visible_printString key) (.cons (by decide)
      (.append (visible_print hdouble value)
        (.cons (by decide) (visible_printMembers hdouble (next :: members)))))

end

theorem document_print {value : Json} (h : isExact value = true) :
    Document value (print printDouble value) :=
  ⟨[], _, _, [], .inl rfl, rfl, blank_nil _,
    by simpa using @derives_print printDouble value h [], blank_nil _⟩

end ParseX.JsonText

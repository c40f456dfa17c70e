import ParseX.Export.CanDb
import ParseX.Parser.IntegerTexts

/-! # AUTOSAR integers and their readers

An AUTOSAR integer is decimal, `0x` hexadecimal, `0b` binary or octal with a
leading zero. The reader of the export knows all four; the reader of the model
knows hexadecimal and takes the decimal digits at the front of anything
else. -/
namespace ParseX
open Cpp

/-- The notations of an AUTOSAR integer. -/
inductive Notation where
  | decimal
  | hexadecimal
  | binary
  | octal
  deriving DecidableEq, Repr

def Notation.base : Notation → Nat
  | .decimal => 10
  | .hexadecimal => 16
  | .binary => 2
  | .octal => 8

/-- The notation of an AUTOSAR integer and the digits after its prefix. -/
def splitInteger (cs : List Char) : Option (Notation × List Char) :=
  match cs with
  | [] => none
  | '0' :: digits =>
    match digits with
    | mark :: digit :: rest =>
      if (mark = 'x' ∨ mark = 'X') ∧ allDigits 16 (digit :: rest) then
        some (.hexadecimal, digit :: rest)
      else if (mark = 'b' ∨ mark = 'B') ∧ allDigits 2 (digit :: rest) then
        some (.binary, digit :: rest)
      else if allDigits 8 digits then some (.octal, digits) else none
    | _ => if allDigits 8 digits then some (.octal, digits) else none
  | cs => if allDigits 10 cs then some (.decimal, cs) else none

/-- The value of a text that is an AUTOSAR integer. -/
def autosarValue (text : String) : Option Nat :=
  (splitInteger (trimText text).toList).map fun (notation_, digits) =>
    leadingValue notation_.base digits

/-- What the model's reader makes of a text that is an AUTOSAR integer: all
but hexadecimal ones by the decimal digits at the front. -/
def decimalReading (text : String) : Option Nat :=
  match splitInteger (trimText text).toList with
  | none => none
  | some (.hexadecimal, digits) => some (leadingValue 16 digits)
  | some _ => some (leadingValue 10 (trimText text).toList)

/-- The decimal reading where it fits, else a fallback. -/
def readingOr (text : String) (fallback : Nat) : Nat :=
  match decimalReading text with
  | some value => if value < 2 ^ 32 then value else fallback
  | none => fallback

/-! ## The four notations -/

/-- The characters of an AUTOSAR integer, by notation. -/
inductive Splits : List Char → Notation → List Char → Prop
  | decimal {c : Char} {cs : List Char} : c ≠ '0' → allDigits 10 (c :: cs) →
      Splits (c :: cs) .decimal (c :: cs)
  | hexadecimal {mark digit : Char} {rest : List Char} : mark = 'x' ∨ mark = 'X' →
      allDigits 16 (digit :: rest) →
      Splits ('0' :: mark :: digit :: rest) .hexadecimal (digit :: rest)
  | binary {mark digit : Char} {rest : List Char} : mark = 'b' ∨ mark = 'B' →
      allDigits 2 (digit :: rest) → Splits ('0' :: mark :: digit :: rest) .binary (digit :: rest)
  | octal {digits : List Char} : allDigits 8 digits → Splits ('0' :: digits) .octal digits

theorem splits_of_splitInteger {cs digits : List Char} {notation_ : Notation}
    (h : splitInteger cs = some (notation_, digits)) : Splits cs notation_ digits := by
  unfold splitInteger at h
  split at h
  · cases h
  · split at h
    · split at h
      · rename_i hx
        cases h
        exact .hexadecimal hx.1 hx.2
      · split at h
        · rename_i hb
          cases h
          exact .binary hb.1 hb.2
        · split at h
          · rename_i ho
            cases h
            exact .octal ho
          · cases h
    · split at h
      · rename_i ho
        cases h
        exact .octal ho
      · cases h
  · rename_i hne hzero
    split at h
    · rename_i hd
      cases h
      cases cs with
      | nil => exact absurd rfl hne
      | cons c cs => exact .decimal (fun hc => hzero cs (by rw [hc])) hd
    · cases h

/-- A decimal digit, as the comparisons of the source have it. -/
theorem isSome_digitVal {base : Nat} (hb : base ≤ 10) (c : Char) :
    (digitVal base c).isSome ↔ '0' ≤ c ∧ c ≤ '9' ∧ c.toNat < 48 + base := by
  have hle {a b : Char} : a ≤ b ↔ a.toNat ≤ b.toNat := by
    rw [Char.le_def, UInt32.le_iff_toNat_le]
    rfl
  have h0 : ('0' : Char).toNat = 48 := rfl
  have h9 : ('9' : Char).toNat = 57 := rfl
  have ha : ('a' : Char).toNat = 97 := rfl
  have hz : ('z' : Char).toNat = 122 := rfl
  have hA : ('A' : Char).toNat = 65 := rfl
  have hZ : ('Z' : Char).toNat = 90 := rfl
  unfold digitVal
  simp only [hle, h0, h9, ha, hz, hA, hZ]
  split_ifs <;> simp <;> omega

theorem isOctalDigit_eq (c : Char) : CanDb.isOctalDigit c = (digitVal 8 c).isSome := by
  have hle {a b : Char} : a ≤ b ↔ a.toNat ≤ b.toNat := by
    rw [Char.le_def, UInt32.le_iff_toNat_le]
    rfl
  have h0 : ('0' : Char).toNat = 48 := rfl
  have h7 : ('7' : Char).toNat = 55 := rfl
  have h9 : ('9' : Char).toNat = 57 := rfl
  rw [Bool.eq_iff_iff, isSome_digitVal (by omega)]
  simp only [CanDb.isOctalDigit, Bool.and_eq_true, decide_eq_true_eq, hle, h0, h7, h9]
  omega

/-! ## The reader of the export -/

/-- `std::stoull` takes a text of digits whole. -/
theorem stoull_digits {base : Nat} {digits : List Char} (hne : digits ≠ [])
    (hd : allDigits base digits = true) (hhex : hexPrefixLength base digits = 0)
    (hfit : leadingValue base digits < 2 ^ 64) :
    stoull (String.ofList digits) base = some (leadingValue base digits, digits.length) := by
  rw [allDigits_iff] at hd
  cases digits with
  | nil => exact absurd rfl hne
  | cons c cs =>
    have hfit' : inULongLong (digitsValue base (digitRun base (c :: cs))) = true :=
      decide_eq_true hfit
    simp only [stoull, String.toList_ofList, readLiteral_of_head (hd c (by simp)) hhex,
      length_digitRun hd, hfit', if_true, Bool.false_eq_true, if_false, leadingValue]

section
variable {D : Type} [Double D] [LawfulDouble D]

/-- The export reads every AUTOSAR integer. -/
theorem parseDouble_literal {text : String} {value : Nat} (h : autosarValue text = some value)
    (hfit : value < 2 ^ 53) : CanDb.parseDouble text = some (Double.ofNat value : D) := by
  obtain ⟨⟨notation_, digits⟩, hsplit, rfl⟩ := Option.map_eq_some_iff.mp h
  have hunsigned {base : Nat} {digits : List Char} (hne : digits ≠ [])
      (hd : allDigits base digits = true) (hfit : leadingValue base digits < 2 ^ 53) :
      CanDb.parseUnsigned (String.ofList digits) base =
        some (Double.ofNat (leadingValue base digits) : D) := by
    rw [CanDb.parseUnsigned,
      stoull_digits hne hd (hexPrefixLength_of_digits hd) (lt_trans hfit (by norm_num)),
      ← String.length_toList, String.toList_ofList]
    exact if_pos rfl
  have hstod {cs : List Char} (hcs : (trimText text).toList = cs) (hne : cs ≠ [])
      (hd : allDigits 10 cs = true) (hfit : leadingValue 10 cs < 2 ^ 53) :
      Double.stod (trimText text) = some ((Double.ofNat (leadingValue 10 cs) : D), cs.length) := by
    subst hcs
    rw [LawfulDouble.stod_digits _ (fun he => hne (by rw [he]; rfl)) (allDigits_iff.mp hd) hfit,
      String.length_toList]
    rfl
  unfold CanDb.parseDouble
  dsimp only at hfit ⊢
  generalize hcs : (trimText text).toList = cs at hsplit ⊢
  cases splits_of_splitInteger hsplit with
  | @decimal c cs hc hd =>
    have h0 : ∀ x : Char, (List.take 2 (c :: cs) == ['0', x]) = false := by
      intro x
      cases cs <;> simp [hc]
    have hhead : ((c :: cs).head? == some '0') = false := by simp [hc]
    simp only [h0, hhead, hstod hcs (by simp) hd hfit]
    simp [Notation.base]
  | @hexadecimal mark digit rest hmark hd =>
    rcases hmark with rfl | rfl <;>
      simpa [Notation.base] using hunsigned (by simp) hd hfit
  | @binary mark digit rest hmark hd =>
    rcases hmark with rfl | rfl <;>
      simpa [Notation.base] using hunsigned (by simp) hd hfit
  | @octal digits hd =>
    cases digits with
    | nil =>
      have hzero := hstod hcs (by simp) (by decide) (by decide)
      simp only [hzero]
      rfl
    | cons digit rest =>
      have hmark {mark : Char} (hm : digitVal 8 mark = none) :
          (List.take 2 ('0' :: digit :: rest) == ['0', mark]) = false := by
        rw [beq_eq_false_iff_ne]
        intro he
        obtain rfl : digit = mark := by simpa using he
        have := allDigits_iff.mp hd digit (by simp)
        rw [hm] at this
        cases this
      have hall : ('0' :: digit :: rest).all CanDb.isOctalDigit = true := by
        rw [List.all_cons, Bool.and_eq_true]
        refine ⟨by decide, ?_⟩
        simpa [isOctalDigit_eq, allDigits] using hd
      simp only [hmark (show digitVal 8 'b' = none by decide),
        hmark (show digitVal 8 'B' = none by decide), hmark (show digitVal 8 'x' = none by decide),
        hmark (show digitVal 8 'X' = none by decide), hall]
      simpa [Notation.base] using hunsigned (by simp) hd hfit

end

/-! ## The reader of the model -/

/-- The model's reader on a text that starts with a digit and is not
hexadecimal. -/
theorem parseInteger_of_leading {text : String} {c : Char} {cs : List Char}
    (hcs : (trimText text).toList = c :: cs) (hc : (digitVal 10 c).isSome)
    (hx : isHexPrefixed (c :: cs) = false) : parseInteger text =
      if leadingValue 10 (c :: cs) < 2 ^ 63 then some (Int64.ofNat (leadingValue 10 (c :: cs)))
      else none := by
  have hsign : isSign c = false := by
    cases hs : isSign c with
    | false => rfl
    | true =>
      simp only [isSign, Bool.or_eq_true, beq_iff_eq] at hs
      rcases hs with rfl | rfl <;> exact absurd hc (by decide)
  have hminus : ((c :: cs).head? == some '-') = false := by
    rw [beq_eq_false_iff_ne]
    intro he
    obtain rfl : c = '-' := by simpa using he
    cases hsign
  have hdrop : dropSign (c :: cs) = c :: cs := by simp [dropSign, hsign]
  rw [parseInteger_decimal (by rw [hcs]; exact hx), hcs, hdrop,
    readLiteral_of_head hc (hexPrefixLength_of_base (by decide) _), Option.bind_some, isNegative,
    hminus]
  exact decimalResult_unsigned _ _

/-- The model's reader on hexadecimal integers. -/
theorem parseInteger_of_hexadecimal {text : String} {mark : Char} {digits : List Char}
    (hcs : (trimText text).toList = '0' :: mark :: digits) (hmark : mark = 'x' ∨ mark = 'X')
    (hne : digits ≠ []) (hd : allDigits 16 digits = true) : parseInteger text =
      if leadingValue 16 digits < 2 ^ 63 then some (Int64.ofNat (leadingValue 16 digits))
      else none := by
  have hx : isHexPrefixed ('0' :: mark :: digits) = true := by
    rcases hmark with rfl | rfl <;> rfl
  have hdrop : (dropSign ('0' :: mark :: digits)).drop 2 = digits := rfl
  rw [parseInteger_hex (by rw [hcs]; exact hx), hcs, hdrop,
    readLiteral_of_digitsIn (if_pos ⟨hne, hd⟩), Option.bind_some]
  exact hexResult_unsigned _ _

/-- The model's reader on an AUTOSAR integer. -/
theorem parseInteger_literal {text : String} {value : Nat}
    (h : decimalReading text = some value) :
    parseInteger text = if value < 2 ^ 63 then some (Int64.ofNat value) else none := by
  unfold decimalReading at h
  generalize hcs : (trimText text).toList = cs at h
  cases hsplit : splitInteger cs with
  | none => rw [hsplit] at h; cases h
  | some split =>
    obtain ⟨notation_, digits⟩ := split
    rw [hsplit] at h
    have hlead {c : Char} {rest : List Char} (hcs' : cs = c :: rest)
        (hc : (digitVal 10 c).isSome) (hx : isHexPrefixed cs = false)
        (hvalue : leadingValue 10 cs = value) :
        parseInteger text = if value < 2 ^ 63 then some (Int64.ofNat value) else none := by
      subst hcs' hvalue
      exact parseInteger_of_leading hcs hc hx
    cases splits_of_splitInteger hsplit with
    | @decimal c cs hc hd =>
      refine hlead rfl (allDigits_iff.mp hd c (by simp)) ?_ (Option.some.inj h)
      apply isHexPrefixed_eq_false
      intro d hmem
      have := allDigits_iff.mp hd d hmem
      constructor <;> rintro rfl <;> exact absurd this (by decide)
    | @hexadecimal mark digit rest hmark hd =>
      obtain rfl : leadingValue 16 (digit :: rest) = value := Option.some.inj h
      exact parseInteger_of_hexadecimal hcs hmark (by simp) hd
    | @binary mark digit rest hmark hd =>
      refine hlead rfl (by decide) ?_ (Option.some.inj h)
      rcases hmark with rfl | rfl <;> rfl
    | @octal digits hd =>
      refine hlead rfl (by decide) ?_ (Option.some.inj h)
      apply isHexPrefixed_eq_false
      intro d hmem
      have : (digitVal 8 d).isSome := by
        rcases List.mem_cons.mp hmem with rfl | hmem
        · decide
        · exact allDigits_iff.mp hd d hmem
      constructor <;> rintro rfl <;> exact absurd this (by decide)

/-- `parseUint32` of an AUTOSAR integer, or what stands in for it. -/
theorem parseUint32_literal {text : String} {value : Nat}
    (h : decimalReading text = some value) (fallback : UInt32) :
    ((parseUint32 text).getD fallback).toNat = readingOr text fallback.toNat := by
  rw [readingOr, h, parseUint32, parseInteger_literal h]
  by_cases hv : value < 2 ^ 63
  · have hint : (Int64.ofNat value).toInt = value := Int64.toInt_ofNat_of_lt hv
    simp only [hv, if_true, Int64.lt_iff_toInt_lt, hint]
    by_cases hfit : value < 2 ^ 32
    · rw [if_neg, if_pos hfit]
      · simpa using hfit
      · rintro (h | h)
        · have h : (value : Int) < 0 := h
          omega
        · have h : (4294967295 : Int) < value := h
          omega
    · rw [if_pos, if_neg hfit]
      · rfl
      · right
        have : (4294967295 : Int) < value := by omega
        exact this
  · simp only [hv, if_false]
    rw [if_neg (by omega)]
    rfl

/-! ## Where both readers agree -/

theorem digitRun_eq_of_le {base : Nat} (hb : base ≤ 10) {cs : List Char}
    (hd : allDigits base cs = true) : digitRun base cs = digitRun 10 cs := by
  induction cs with
  | nil => rfl
  | cons c cs ih =>
    rw [allDigits_iff] at hd
    obtain ⟨hc, hcs⟩ := List.forall_mem_cons.mp hd
    have hsame : digitVal base c = digitVal 10 c := by
      obtain ⟨h0, h9, -⟩ := (isSome_digitVal hb c).mp hc
      have hlt : c.toNat - 48 < base := by
        by_contra hge
        simp [digitVal, h0, h9, hge] at hc
      simp [digitVal, h0, h9, hlt, show c.toNat - 48 < 10 by omega]
    rw [digitRun, digitRun, hsame, ih (allDigits_iff.mpr hcs)]

/-- Octal digits read in base ten denote as much or more, and as much exactly
below eight. -/
theorem digitsValue_octal (ds : List Nat) : digitsValue 8 ds ≤ digitsValue 10 ds ∧
    (digitsValue 8 ds = 0 ↔ digitsValue 10 ds = 0) ∧
    ((∀ d ∈ ds, d < 8) → (digitsValue 10 ds = digitsValue 8 ds ↔ digitsValue 8 ds < 8)) := by
  induction ds using List.reverseRecOn with
  | nil => simp [digitsValue]
  | append_singleton ds d ih =>
    obtain ⟨hle, hzero, -⟩ := ih
    have hsnoc (base : Nat) : digitsValue base (ds ++ [d]) = digitsValue base ds * base + d := by
      rw [digitsValue_append]
      simp [digitsValue]
    rw [hsnoc, hsnoc]
    refine ⟨by omega, by omega, fun hall => ?_⟩
    have := hall d (by simp)
    omega

theorem lt_of_mem_digitRun {base d : Nat} {cs : List Char} (h : d ∈ digitRun base cs) :
    d < base := by
  induction cs with
  | nil => cases h
  | cons c cs ih =>
    cases hc : digitVal base c with
    | none => simp [digitRun, hc] at h
    | some e =>
      rw [digitRun, hc] at h
      rcases List.mem_cons.mp h with rfl | h
      · unfold digitVal at hc
        rw [Option.ite_none_right_eq_some] at hc
        exact Option.some.inj hc.2 ▸ hc.1
      · exact ih h

/-- A text that is no binary integer but zero and no octal integer from eight
on. -/
def PlainInteger (text : String) : Prop :=
  ∀ notation_ digits, splitInteger (trimText text).toList = some (notation_, digits) →
    match notation_ with
    | .decimal | .hexadecimal => True
    | .binary => leadingValue 2 digits = 0
    | .octal => leadingValue 8 digits < 8

/-- The decimal reading is the value of the plain integers, and of no other. -/
theorem plainInteger_iff (text : String) :
    PlainInteger text ↔ decimalReading text = autosarValue text := by
  unfold PlainInteger autosarValue decimalReading
  generalize (trimText text).toList = cs
  cases hsplit : splitInteger cs with
  | none => simp
  | some split =>
    obtain ⟨notation_, digits⟩ := split
    cases splits_of_splitInteger hsplit with
    | decimal _ _ => simp [Notation.base]
    | hexadecimal _ _ => simp [Notation.base]
    | @binary mark digit rest hmark hd =>
      have : leadingValue 10 ('0' :: mark :: digit :: rest) = 0 := by
        rcases hmark with rfl | rfl <;> rfl
      simp only [this, Option.map_some, Option.some.injEq, Notation.base, Prod.mk.injEq]
      constructor
      · intro h
        exact (h _ _ ⟨rfl, rfl⟩).symm
      · rintro h _ _ ⟨rfl, rfl⟩
        exact h.symm
    | @octal digits hd =>
      have hrun : leadingValue 10 ('0' :: digits) = digitsValue 10 (digitRun 8 digits) := by
        rw [digitRun_eq_of_le (by omega) hd]
        simp [leadingValue, digitsValue, digitRun, show digitVal 10 '0' = some 0 by decide]
      have hiff := (digitsValue_octal (digitRun 8 digits)).2.2 fun _ => lt_of_mem_digitRun
      simp only [Option.map_some, Option.some.injEq, Notation.base, Prod.mk.injEq]
      rw [hrun, leadingValue, hiff]
      constructor
      · intro h
        exact h _ _ ⟨rfl, rfl⟩
      · rintro h _ _ ⟨rfl, rfl⟩
        exact h

/-- Both readings are of the same texts. -/
theorem decimalReading_isSome {text : String} {value : Nat} (h : autosarValue text = some value) :
    ∃ reading, decimalReading text = some reading := by
  unfold autosarValue at h
  unfold decimalReading
  cases hsplit : splitInteger (trimText text).toList with
  | none => rw [hsplit] at h; cases h
  | some split =>
    obtain ⟨notation_, digits⟩ := split
    cases notation_ <;> exact ⟨_, rfl⟩

/-- The digits of a positive number start with another digit than zero. -/
theorem head_toDigits {n : Nat} (h : 0 < n) : ∃ c cs, Nat.toDigits 10 n = c :: cs ∧ c ≠ '0' := by
  induction n using Nat.strongRecOn with
  | ind n ih =>
    by_cases hn : n < 10
    · rw [Nat.toDigits_of_lt_base hn]
      refine ⟨_, [], rfl, ?_⟩
      interval_cases n <;> decide
    · obtain ⟨c, cs, hdigits, hc⟩ := ih (n / 10) (by omega) (by omega)
      rw [Nat.toDigits_of_base_le (by omega) (by omega), hdigits]
      exact ⟨c, _, rfl, hc⟩

/-- A number written in decimal denotes itself, for both readers. -/
theorem autosarValue_toString (n : Nat) :
    autosarValue (toString n) = some n ∧ PlainInteger (toString n) := by
  rcases Nat.eq_zero_or_pos n with rfl | hpos
  · exact ⟨by decide +kernel, (plainInteger_iff _).mpr (by decide +kernel)⟩
  · obtain ⟨c, cs, hdigits, hc⟩ := head_toDigits hpos
    obtain ⟨hall, -, hvalue⟩ := toDigits_read n
    have hsplit : splitInteger (trimText (toString n)).toList =
        some (.decimal, Nat.toDigits 10 n) := by
      rw [trimText_toString_nat, toList_toString_nat]
      have hd : allDigits 10 (Nat.toDigits 10 n) = true := allDigits_iff.mpr hall
      rw [hdigits] at hd ⊢
      unfold splitInteger
      split
      · rename_i heq
        cases heq
      · rename_i heq
        exact absurd (List.cons.inj heq).1 hc
      · rw [if_pos hd]
    constructor
    · rw [autosarValue, hsplit]
      exact congrArg some hvalue
    · intro notation_ digits h
      rw [hsplit] at h
      obtain ⟨rfl, -⟩ := Prod.mk.inj (Option.some.inj h)
      trivial

end ParseX

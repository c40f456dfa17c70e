import ParseX.Parser.Literals

/-! # Which texts integer fields accept

`parseInteger` hands what follows the sign, and the `0x`, to the number readers
of the standard library. They skip white space, read a sign of their own and
stop at the first character that is no digit, so some texts that are no integer
literal still give a number. -/
namespace ParseX
open Cpp

/-! ## Integer literals -/

/-- The number that digits alone denote. -/
def digitsIn (base : Nat) (digits : List Char) : Option Nat :=
  if digits ≠ [] ∧ allDigits base digits then some (leadingValue base digits) else none

/-- Decimal digits, or hexadecimal digits after `0x` or `0X`. -/
def unsignedValue : List Char → Option Nat
  | '0' :: 'x' :: digits => digitsIn 16 digits
  | '0' :: 'X' :: digits => digitsIn 16 digits
  | digits => digitsIn 10 digits

/-- The sign applied to a magnitude. -/
def signed (negative : Bool) (magnitude : Nat) : Int :=
  if negative then -(magnitude : Int) else magnitude

/-- The integer that a literal with an optional sign denotes. -/
def literalValue : List Char → Option Int
  | '-' :: body => (unsignedValue body).map (signed true)
  | '+' :: body => (unsignedValue body).map (signed false)
  | body => (unsignedValue body).map (signed false)

example : literalValue "-0x1F".toList = some (-31) ∧ literalValue "5abc".toList = none := by decide

theorem literalValue_eq (text : List Char) : literalValue text =
    (unsignedValue (dropSign text)).map (signed (text.head? == some '-')) := by
  unfold literalValue
  split
  · rfl
  · rfl
  · rename_i hminus hplus
    cases text with
    | nil => rfl
    | cons letter rest =>
      have hm : letter ≠ '-' := fun h => hminus rest (by rw [h])
      have hp : letter ≠ '+' := fun h => hplus rest (by rw [h])
      have hsign : isSign letter = false := by simp [isSign, hm, hp]
      have hhead : ((letter :: rest).head? == some '-') = false := by simp [hm]
      simp only [dropSign, hsign, hhead, Bool.false_eq_true, if_false]

theorem unsignedValue_hex {text : List Char} (h : isHexPrefixed text = true) :
    unsignedValue (dropSign text) = digitsIn 16 ((dropSign text).drop 2) := by
  unfold isHexPrefixed at h
  generalize dropSign text = body at *
  match body with
  | [] => cases h
  | [_] => simp at h
  | first :: second :: digits =>
    simp only [List.take_succ_cons, List.take_zero, Bool.or_eq_true, beq_iff_eq,
      List.cons.injEq, and_true] at h
    rcases h with ⟨rfl, rfl⟩ | ⟨rfl, rfl⟩ <;> rfl

theorem unsignedValue_decimal {text : List Char} (h : isHexPrefixed text = false) :
    unsignedValue (dropSign text) = digitsIn 10 (dropSign text) := by
  unfold isHexPrefixed at h
  generalize dropSign text = body at *
  unfold unsignedValue
  split
  · simp at h
  · simp at h
  · rfl

/-! ## The readers on digits -/

theorem digitsIn_eq_some {base m : Nat} {digits : List Char} (h : digitsIn base digits = some m) :
    digits ≠ [] ∧ allDigits base digits ∧ leadingValue base digits = m := by
  unfold digitsIn at h
  split at h
  · rename_i hall
    exact ⟨hall.1, hall.2, Option.some.inj h⟩
  · cases h

theorem readLiteral_of_digitsIn {base m : Nat} {digits : List Char}
    (h : digitsIn base digits = some m) :
    readLiteral base digits = some ⟨false, m, digits.length⟩ := by
  obtain ⟨hne, hall, rfl⟩ := digitsIn_eq_some h
  cases digits with
  | nil => exact absurd rfl hne
  | cons c cs =>
    have hdigits := allDigits_iff.mp hall
    rw [readLiteral_of_head (hdigits c (by simp)) (hexPrefixLength_of_digits hall),
      length_digitRun hdigits]
    rfl

/-! ## What `parseInteger` makes of the readers -/

/-- The trimmed text starts with a minus sign. -/
def isNegative (text : List Char) : Bool := text.head? == some '-'

/-- The value of a decimal text from what `std::stoll` reads after its sign. -/
def decimalResult (negative : Bool) (number : Literal) : Option Int64 :=
  let value := signed number.negative number.magnitude
  if -2 ^ 63 ≤ value ∧ value < 2 ^ 63 ∧ (negative = true ∨ 0 ≤ value) then
    some (Int64.ofInt (if negative then -value else value))
  else none

/-- The value of a hexadecimal text from what `std::stoull` reads after its
`0x`. -/
def hexResult (negative : Bool) (number : Literal) : Option Int64 :=
  let magnitude := if number.negative then (2 ^ 64 - number.magnitude) % 2 ^ 64
    else number.magnitude
  if number.magnitude < 2 ^ 64 ∧ (negative = true ∨ magnitude < 2 ^ 63) then
    some (Int64.ofInt (signed negative magnitude))
  else none

theorem stoll_of_literal {text : String} {number : Literal}
    (h : readLiteral 10 text.toList = some number) :
    stoll text = if -2 ^ 63 ≤ signed number.negative number.magnitude ∧
        signed number.negative number.magnitude < 2 ^ 63 then
      some (signed number.negative number.magnitude, number.used) else none := by
  rw [stoll, h]
  simp only [inLongLong, Bool.and_eq_true, decide_eq_true_eq]
  rfl

theorem stoull_of_literal {text : String} {base : Nat} {number : Literal}
    (h : readLiteral base text.toList = some number) :
    stoull text base = if number.magnitude < 2 ^ 64 then
      some (if number.negative then (2 ^ 64 - number.magnitude) % 2 ^ 64 else number.magnitude,
        number.used) else none := by
  rw [stoull, h]
  simp only [inULongLong, decide_eq_true_eq]

/-- Without signs a magnitude must fit in 63 bits. -/
theorem decimalResult_unsigned (magnitude used : Nat) :
    decimalResult false ⟨false, magnitude, used⟩ =
      if magnitude < 2 ^ 63 then some (Int64.ofNat magnitude) else none := by
  have hrange : (-2 ^ 63 ≤ signed false magnitude ∧ signed false magnitude < 2 ^ 63 ∧
      (false = true ∨ 0 ≤ signed false magnitude)) ↔ magnitude < 2 ^ 63 := by
    simp only [signed, Bool.false_eq_true, if_false]
    omega
  simp only [decimalResult, hrange]
  rfl

theorem hexResult_unsigned (magnitude used : Nat) :
    hexResult false ⟨false, magnitude, used⟩ =
      if magnitude < 2 ^ 63 then some (Int64.ofNat magnitude) else none := by
  have hrange : (magnitude < 2 ^ 64 ∧ (false = true ∨ magnitude < 2 ^ 63)) ↔
      magnitude < 2 ^ 63 := by
    simp only [Bool.false_eq_true, false_or]
    omega
  rw [hexResult, if_neg Bool.false_ne_true]
  simp only [hrange]
  rfl

section
variable {raw : String}

theorem parseInteger_decimal (h : isHexPrefixed (trimText raw).toList = false) :
    parseInteger raw = (readLiteral 10 (dropSign (trimText raw).toList)).bind
      (decimalResult (isNegative (trimText raw).toList)) := by
  simp only [parseInteger, h, isNegative]
  generalize (trimText raw).toList = text
  cases text with
  | nil => rfl
  | cons letter rest =>
    simp only [List.isEmpty_cons, Bool.false_eq_true, if_false]
    generalize ((letter :: rest).head? == some '-') = negative
    have htext : (String.ofList (dropSign (letter :: rest))).toList = dropSign (letter :: rest) :=
      String.toList_ofList
    cases hread : readLiteral 10 (dropSign (letter :: rest)) with
    | none => rw [stoll, htext, hread]; rfl
    | some number =>
      rw [stoll_of_literal (htext.symm ▸ hread), Option.bind_some, decimalResult]
      generalize signed number.negative number.magnitude = value
      by_cases hrange : -2 ^ 63 ≤ value ∧ value < 2 ^ 63
      · rw [if_pos hrange]
        cases negative with
        | true =>
          rw [if_pos ⟨hrange.1, hrange.2, .inl rfl⟩]
          simp [Int64.ofInt_neg]
        | false =>
          by_cases hneg : value < 0
          · rw [if_neg (fun h => absurd (h.2.2.resolve_left Bool.false_ne_true) (by omega))]
            simp [hneg]
          · rw [if_pos ⟨hrange.1, hrange.2, .inr (by omega)⟩]
            simp [hneg]
      · rw [if_neg hrange, if_neg (fun h => hrange ⟨h.1, h.2.1⟩)]

theorem parseInteger_hex (h : isHexPrefixed (trimText raw).toList = true) :
    parseInteger raw = (readLiteral 16 ((dropSign (trimText raw).toList).drop 2)).bind
      (hexResult (isNegative (trimText raw).toList)) := by
  simp only [parseInteger, h, isNegative, if_true]
  generalize (trimText raw).toList = text at *
  cases text with
  | nil => cases h
  | cons letter rest =>
    simp only [List.isEmpty_cons, Bool.false_eq_true, if_false]
    generalize ((letter :: rest).head? == some '-') = negative
    generalize (dropSign (letter :: rest)).drop 2 = digits
    have htext : (String.ofList digits).toList = digits := String.toList_ofList
    cases hread : readLiteral 16 digits with
    | none => rw [stoull, htext, hread]; rfl
    | some number =>
      rw [stoull_of_literal (htext.symm ▸ hread), Option.bind_some, hexResult]
      generalize (if number.negative = true then (2 ^ 64 - number.magnitude) % 2 ^ 64
        else number.magnitude) = magnitude
      by_cases hrange : number.magnitude < 2 ^ 64
      · rw [if_pos hrange]
        cases negative with
        | true =>
          rw [if_pos ⟨hrange, .inl rfl⟩]
          simp [signed, Int64.neg_ofNat]
        | false =>
          by_cases hlarge : 2 ^ 63 ≤ magnitude
          · rw [if_neg (fun h => absurd (h.2.resolve_left Bool.false_ne_true) (by omega))]
            simp only [Bool.false_eq_true, if_false, if_pos hlarge]
          · rw [if_pos ⟨hrange, .inr (by omega)⟩]
            simp only [Bool.false_eq_true, if_false, if_neg hlarge, signed, Int64.ofInt_eq_ofNat]
      · rw [if_neg hrange, if_neg (fun h => hrange h.1)]

/-! ## When integer texts are read exactly -/

/-- The readers give exactly the integer of a literal, and nothing else. -/
structure ReadsExactly (raw : String) : Prop where
  integer : ∀ v : Int64, parseInteger raw = some v ↔
    literalValue (trimText raw).toList = some v.toInt
  uint32 : ∀ v : UInt32, parseUint32 raw = some v →
    literalValue (trimText raw).toList = some (v.toNat : Int)

/-- An unsigned field reads what the integer reader gives. -/
theorem readsExactly_iff : ReadsExactly raw ↔ ∀ v : Int64,
    parseInteger raw = some v ↔ literalValue (trimText raw).toList = some v.toInt := by
  refine ⟨ReadsExactly.integer, fun h => ⟨h, fun v hv => ?_⟩⟩
  unfold parseUint32 at hv
  cases hparse : parseInteger raw with
  | none => rw [hparse] at hv; cases hv
  | some value =>
    rw [hparse] at hv
    simp only at hv
    split at hv
    · cases hv
    · rename_i hrange
      rw [← Option.some.inj hv, (h value).mp hparse]
      simp only [Int64.lt_iff_toInt_lt, not_or, not_lt] at hrange
      have hlow : 0 ≤ value.toInt := hrange.1
      have hhigh : value.toInt ≤ 4294967295 := hrange.2
      have hsize : value.toInt.toNat < UInt32.size := show _ < 4294967296 by omega
      rw [UInt32.toNat_ofNat_of_lt' hsize, Int.toNat_of_nonneg hlow]

/-- A literal is read exactly when its value is returned if it fits and nothing
otherwise. -/
theorem readsExactly_of_literal {z : Int} (hz : literalValue (trimText raw).toList = some z)
    {fits : Prop} [Decidable fits]
    (hparse : parseInteger raw = if fits then some (Int64.ofInt z) else none) :
    ReadsExactly raw ↔ (fits ↔ -2 ^ 63 ≤ z ∧ z < 2 ^ 63) := by
  rw [readsExactly_iff, hz, hparse]
  constructor
  · intro h
    constructor
    · intro hfits
      have hv := (h (Int64.ofInt z)).mp (if_pos hfits)
      rw [Option.some.inj hv]
      exact ⟨Int64.le_toInt _, Int64.toInt_lt _⟩
    · intro hrange
      have hv := (h (Int64.ofInt z)).mpr (by rw [Int64.toInt_ofInt_of_le hrange.1 hrange.2])
      by_contra hfits
      rw [if_neg hfits] at hv
      cases hv
  · intro h v
    by_cases hfits : fits
    · rw [if_pos hfits, Option.some.injEq, Option.some.injEq, ← Int64.toInt_inj,
        Int64.toInt_ofInt_of_le (h.mp hfits).1 (h.mp hfits).2]
    · rw [if_neg hfits]
      constructor
      · intro hv
        cases hv
      · intro hv
        rw [Option.some.inj hv] at h
        exact absurd (h.mpr ⟨v.le_toInt, v.toInt_lt⟩) hfits

/-- The range of a decimal number, with its own sign, after the outer one. -/
def DecimalRange (negative : Bool) (number : Literal) : Prop :=
  -2 ^ 63 ≤ signed number.negative number.magnitude ∧
    signed number.negative number.magnitude < 2 ^ 63 ∧
    (negative = true ∨ 0 ≤ signed number.negative number.magnitude)

/-- The range of a hexadecimal number, with its own sign, after the outer one. -/
def HexRange (negative : Bool) (number : Literal) : Prop :=
  number.magnitude < 2 ^ 64 ∧ (negative = true ∨
    if number.negative then number.magnitude = 0 ∨ 2 ^ 63 < number.magnitude
    else number.magnitude < 2 ^ 63)

/-- What follows the sign and the `0x` of a text starts with a number in range,
white space, a sign and a `0x` of its own included. -/
def NumberAtFront (text : List Char) : Prop :=
  if isHexPrefixed text then ∃ number, readLiteral 16 ((dropSign text).drop 2) = some number ∧
    HexRange (isNegative text) number
  else ∃ number, readLiteral 10 (dropSign text) = some number ∧
    DecimalRange (isNegative text) number

theorem parseInteger_isSome : (parseInteger raw).isSome ↔ NumberAtFront (trimText raw).toList := by
  unfold NumberAtFront
  cases hhex : isHexPrefixed (trimText raw).toList with
  | true =>
    rw [parseInteger_hex hhex, if_pos rfl]
    generalize isNegative (trimText raw).toList = negative
    cases readLiteral 16 ((dropSign (trimText raw).toList).drop 2) with
    | none => simp
    | some number =>
      have hmagnitude : number.magnitude < 2 ^ 64 → ((if number.negative = true then
          (2 ^ 64 - number.magnitude) % 2 ^ 64 else number.magnitude) < 2 ^ 63 ↔
          if number.negative = true then number.magnitude = 0 ∨ 2 ^ 63 < number.magnitude
          else number.magnitude < 2 ^ 63) := by
        intro hlt
        split
        · omega
        · rfl
      simp only [Option.bind_some, hexResult, HexRange, Option.some.injEq, exists_eq_left']
      by_cases hlt : number.magnitude < 2 ^ 64
      · rw [← hmagnitude hlt]
        split <;> simp_all
      · rw [if_neg (fun h => hlt h.1)]
        exact iff_of_false (by simp) fun h => hlt h.1
  | false =>
    rw [parseInteger_decimal hhex, if_neg Bool.false_ne_true]
    generalize isNegative (trimText raw).toList = negative
    cases readLiteral 10 (dropSign (trimText raw).toList) with
    | none => simp
    | some number =>
      simp only [Option.bind_some, decimalResult, DecimalRange, Option.some.injEq, exists_eq_left']
      split <;> simp_all

/-- The texts that are read exactly. -/
structure ReadAsLiteral (text : List Char) : Prop where
  /-- The minimum can only be written in hexadecimal. -/
  minimum : literalValue text = some (-2 ^ 63) → isHexPrefixed text = true
  /-- A negative hexadecimal magnitude between 2^63 and 2^64 wraps. -/
  wrapped : isHexPrefixed text = true → ∀ v, literalValue text = some v →
    ¬ (-2 ^ 64 < v ∧ v < -2 ^ 63)
  other : literalValue text = none → ¬ NumberAtFront text

/-- A hexadecimal literal wraps when it is negative and below the minimum. -/
theorem readsExactly_hex {z : Int} (hhex : isHexPrefixed (trimText raw).toList = true)
    (hz : literalValue (trimText raw).toList = some z) :
    ReadsExactly raw ↔ ¬ (-2 ^ 64 < z ∧ z < -2 ^ 63) := by
  have hvalue := hz
  rw [literalValue_eq, unsignedValue_hex hhex, Option.map_eq_some_iff] at hvalue
  obtain ⟨m, hm, rfl⟩ := hvalue
  have hparse := parseInteger_hex hhex
  rw [readLiteral_of_digitsIn hm, Option.bind_some] at hparse
  rw [readsExactly_of_literal hz hparse]
  change (_ ∧ (isNegative _ = true ∨ m < 2 ^ 63) ↔ _) ↔ _
  unfold isNegative
  cases (trimText raw).toList.head? == some '-' with
  | true => simp only [signed, if_true, true_or, and_true]; omega
  | false => simp only [signed, Bool.false_eq_true, if_false, false_or]; omega

/-- A decimal literal is refused when it is the minimum. -/
theorem readsExactly_decimal {z : Int} (hhex : isHexPrefixed (trimText raw).toList = false)
    (hz : literalValue (trimText raw).toList = some z) : ReadsExactly raw ↔ z ≠ -2 ^ 63 := by
  have hvalue := hz
  rw [literalValue_eq, unsignedValue_decimal hhex, Option.map_eq_some_iff] at hvalue
  obtain ⟨m, hm, rfl⟩ := hvalue
  have hparse : parseInteger raw = if (m : Int) < 2 ^ 63 then
      some (Int64.ofInt (signed (isNegative (trimText raw).toList) m)) else none := by
    rw [parseInteger_decimal hhex, readLiteral_of_digitsIn hm, Option.bind_some]
    have hrange (negative : Bool) : (-2 ^ 63 ≤ signed false m ∧ signed false m < 2 ^ 63 ∧
        (negative = true ∨ 0 ≤ signed false m)) ↔ (m : Int) < 2 ^ 63 := by
      simp only [signed, Bool.false_eq_true, if_false]
      omega
    simp only [decimalResult, hrange]
    rfl
  rw [readsExactly_of_literal hz hparse]
  cases (trimText raw).toList.head? == some '-' with
  | true => simp only [signed, if_true]; omega
  | false => simp only [signed, Bool.false_eq_true, if_false]; omega

/-- Integer fields accept exactly integer literals on the texts that are read as
literals, and on no other. -/
theorem parseInteger_exact_iff (raw : String) :
    ReadsExactly raw ↔ ReadAsLiteral (trimText raw).toList := by
  cases hz : literalValue (trimText raw).toList with
  | none =>
    have hnone : ReadsExactly raw ↔ ¬ (parseInteger raw).isSome := by
      rw [readsExactly_iff, hz]
      cases hparse : parseInteger raw with
      | none => simp
      | some value => exact iff_of_false (fun h => by cases (h value).mp rfl) (by simp)
    rw [hnone, parseInteger_isSome]
    refine ⟨fun h => ⟨fun hm => ?_, fun _ v hv => ?_, fun _ => h⟩, fun h => h.other hz⟩
    · rw [hz] at hm
      cases hm
    · rw [hz] at hv
      cases hv
  | some z =>
    cases hhex : isHexPrefixed (trimText raw).toList with
    | true =>
      rw [readsExactly_hex hhex hz]
      refine ⟨fun h => ⟨fun _ => hhex, fun _ v hv => ?_, fun hn => ?_⟩, fun h => h.wrapped hhex z hz⟩
      · rw [hz, Option.some.injEq] at hv
        rwa [← hv]
      · rw [hz] at hn
        cases hn
    | false =>
      rw [readsExactly_decimal hhex hz]
      refine ⟨fun h => ⟨fun hm => ?_, fun hx => ?_, fun hn => ?_⟩, fun h hm => ?_⟩
      · rw [hz, Option.some.injEq] at hm
        exact absurd hm h
      · rw [hhex] at hx
        cases hx
      · rw [hz] at hn
        cases hn
      · have hx := h.minimum (hm ▸ hz)
        rw [hhex] at hx
        cases hx

end

/-- Trailing characters, a second sign and the minimum are not read exactly. -/
theorem integer_texts_misread :
    ¬ ReadsExactly "5abc" ∧ ¬ ReadsExactly "--5" ∧ ¬ ReadsExactly "0x 5" ∧
      ¬ ReadsExactly "-9223372036854775808" ∧ ¬ ReadsExactly "-0xFFFFFFFFFFFFFFFF" := by
  have hwrong {raw : String} {v : Int64} (hparse : parseInteger raw = some v)
      (hliteral : literalValue (trimText raw).toList ≠ some v.toInt) : ¬ ReadsExactly raw :=
    fun h => hliteral ((h.integer v).mp hparse)
  refine ⟨hwrong rfl (by decide), hwrong rfl (by decide), hwrong rfl (by decide), fun h => ?_,
    hwrong rfl (by decide)⟩
  have hmin := (h.integer Int64.minValue).mpr (by decide)
  cases hmin

end ParseX

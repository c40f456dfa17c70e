import ParseX.Parser.ModelBuilder

/-! # Literals read back

Decimal texts of unsigned numbers and printed `double` values through the
readers of the model. -/
namespace ParseX
open Cpp

/-! ## Digits -/

/-- Digits of a base only. -/
def allDigits (base : Nat) (cs : List Char) : Bool := cs.all fun c => (digitVal base c).isSome

/-- The value of the digits at the front. -/
def leadingValue (base : Nat) (cs : List Char) : Nat := digitsValue base (digitRun base cs)

theorem allDigits_iff {base : Nat} {cs : List Char} :
    allDigits base cs = true ↔ ∀ c ∈ cs, (digitVal base c).isSome := by
  simp [allDigits]

/-- In base 16 no digit is the mark of a prefix. -/
theorem hexPrefixLength_of_digits {base : Nat} {digits : List Char}
    (hd : allDigits base digits = true) : hexPrefixLength base digits = 0 := by
  unfold hexPrefixLength
  split
  · rename_i x c rest
    split
    · rename_i h
      obtain ⟨rfl, hx, -⟩ := h
      have := allDigits_iff.mp hd x (by simp)
      rcases hx with rfl | rfl <;> exact absurd this (by decide)
    · rfl
  · rfl

/-! ## Readers -/

theorem isSpace_of_isBlank {c : Char} (h : isBlank c = true) : isSpace c = true := by
  simp only [isBlank, Bool.or_eq_true, beq_iff_eq] at h
  rcases h with ((rfl | rfl) | rfl) | rfl <;> rfl

/-- A text without blanks is trimmed. -/
theorem trimText_of_no_blank {text : String} (h : ∀ c ∈ text.toList, isBlank c = false) :
    trimText text = text := by
  apply String.toList_inj.mp
  rw [toList_trimText]
  exact trimChars_eq_self ⟨fun c hc => h c (List.mem_of_mem_head? hc),
    fun c hc => h c (List.mem_of_mem_getLast? hc)⟩

theorem mem_toString_nat {n : Nat} {c : Char} (hc : c ∈ (toString n).toList) :
    (digitVal 10 c).isSome := by
  rw [toList_toString_nat] at hc
  exact (toDigits_read n).1 c hc

theorem not_mem_toString_nat {n : Nat} {c : Char} (hc : digitVal 10 c = none) :
    c ∉ (toString n).toList := by
  intro hmem
  have := mem_toString_nat hmem
  rw [hc] at this
  cases this

@[simp] theorem trimText_toString_nat (n : Nat) : trimText (toString n) = toString n := by
  apply trimText_of_no_blank
  intro c hc
  cases hb : isBlank c with
  | false => rfl
  | true => exact absurd hc (not_mem_toString_nat (digitVal_none_of_isSpace (isSpace_of_isBlank hb)))

theorem toString_nat_ne_empty (n : Nat) : toString n ≠ "" := by
  intro h
  have := congrArg String.toList h
  rw [toList_toString_nat] at this
  exact Nat.toDigits_ne_nil this

/-- A text without a sign at its front. -/
theorem dropSign_eq_self {text : List Char} (h : ∀ c ∈ text, isSign c = false) :
    dropSign text = text := by
  cases text with
  | nil => rfl
  | cons letter rest => simp [dropSign, h letter (by simp)]

/-- A text without an `x` has no hexadecimal prefix. -/
theorem isHexPrefixed_eq_false {text : List Char} (h : ∀ c ∈ text, c ≠ 'x' ∧ c ≠ 'X') :
    isHexPrefixed text = false := by
  have hsub : ∀ c ∈ (dropSign text).take 2, c ∈ text := by
    intro c hc
    have hc := List.mem_of_mem_take hc
    cases text with
    | nil => exact hc
    | cons letter rest =>
      rw [dropSign] at hc
      split at hc
      · exact List.mem_cons_of_mem _ hc
      · exact hc
  unfold isHexPrefixed
  simp only [Bool.or_eq_false_iff, beq_eq_false_iff_ne]
  constructor
  · intro he
    exact (h 'x' (hsub 'x' (by rw [he]; simp))).1 rfl
  · intro he
    exact (h 'X' (hsub 'X' (by rw [he]; simp))).2 rfl

/-- `parseInteger` reads a decimal number. -/
theorem parseInteger_toString {n : Nat} (hn : n < 2 ^ 63) :
    parseInteger (toString n) = some (Int64.ofNat n) := by
  have hsign : ∀ c ∈ (toString n).toList, isSign c = false := by
    intro c hc
    cases hs : isSign c with
    | false => rfl
    | true =>
      simp only [isSign, Bool.or_eq_true, beq_iff_eq] at hs
      rcases hs with rfl | rfl <;> exact absurd hc (not_mem_toString_nat (by decide))
  have hhex : isHexPrefixed (toString n).toList = false := by
    apply isHexPrefixed_eq_false
    intro c hc
    constructor <;> rintro rfl <;> exact absurd hc (not_mem_toString_nat (by decide))
  have hempty : (toString n).toList.isEmpty = false := by
    rw [toList_toString_nat]
    cases h : Nat.toDigits 10 n with
    | nil => exact absurd h Nat.toDigits_ne_nil
    | cons _ _ => rfl
  have hhead : ((toString n).toList.head? == some '-') = false := by
    rw [beq_eq_false_iff_ne]
    intro he
    exact absurd (hsign '-' (List.mem_of_mem_head? he)) (by decide)
  have hstoll : stoll (String.ofList (toString n).toList) =
      some ((n : Int), (toString n).length) := by
    rw [String.ofList_toList]
    exact stoll_toString hn
  simp only [parseInteger, trimText_toString_nat, hempty, hhex, hhead, dropSign_eq_self hsign,
    hstoll, Bool.false_eq_true, if_false]
  rw [if_neg (by omega)]
  rfl

/-- `parseUint32` reads back what `std::to_string` writes. -/
theorem parseUint32_toString (v : UInt32) : parseUint32 (toString v.toNat) = some v := by
  have hv : v.toNat < 4294967296 := v.toNat_lt
  have hint : (Int64.ofNat v.toNat).toInt = v.toNat := by
    rw [Int64.toInt_ofNat_of_lt (by omega)]
  rw [parseUint32, parseInteger_toString (by omega)]
  simp only [Int64.lt_iff_toInt_lt, hint]
  rw [if_neg]
  · simp
  · rintro (h | h)
    · have h : (v.toNat : Int) < 0 := h
      omega
    · have h : (4294967295 : Int) < v.toNat := h
      omega

theorem isBlank_eq_false_of_isDoubleChar {c : Char} (h : isDoubleChar c = true) :
    isBlank c = false := by
  cases hb : isBlank c with
  | false => rfl
  | true =>
    simp only [isBlank, Bool.or_eq_true, beq_iff_eq] at hb
    rcases hb with ((rfl | rfl) | rfl) | rfl <;> exact absurd h (by decide)

section
variable {D : Type} [Double D]

/-- What `parseDouble` returns can be read. -/
theorem readable_of_parseDouble {raw : String} {d : D} (h : parseDouble raw = some d) :
    Readable d := by
  unfold parseDouble at h
  simp only at h
  split at h
  · cases h
  · split at h
    · obtain ⟨asInt, -, rfl⟩ := Option.map_eq_some_iff.mp h
      exact Or.inr ⟨asInt.toInt, asInt.le_toInt, asInt.toInt_lt, rfl⟩
    · split at h
      · cases h
      · rename_i value used hstod
        split at h
        · obtain rfl := Option.some.inj h
          exact Or.inl ⟨_, _, hstod⟩
        · cases h

variable [LawfulDouble D]

/-- `parseDouble` reads back the seventeen digits of a readable value. -/
theorem parseDouble_print17 {d : D} (h : Readable d) :
    parseDouble (Double.print17 d) = some d := by
  have hchars := LawfulDouble.print17_chars d
  have htrim : trimText (Double.print17 d) = Double.print17 d :=
    trimText_of_no_blank fun c hc => isBlank_eq_false_of_isDoubleChar (hchars c hc)
  have hempty : (Double.print17 d).toList.isEmpty = false := by
    cases hl : (Double.print17 d).toList with
    | nil => exact absurd (String.toList_inj.mp hl) (LawfulDouble.print17_ne_empty d)
    | cons _ _ => rfl
  have hhex : isHexPrefixed (Double.print17 d).toList = false := by
    apply isHexPrefixed_eq_false
    intro c hc
    constructor <;> rintro rfl <;> exact absurd (hchars _ hc) (by decide)
  simp only [parseDouble, htrim, hempty, hhex, LawfulDouble.stod_print17 d h, Bool.false_eq_true,
    if_false, if_true]

end

end ParseX

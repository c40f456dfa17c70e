import ParseX.Cpp.Double

/-! # `std::to_chars` of a `double`

The shortest text that reads back as the value, and the reader that undoes
it. -/
namespace ParseX.Cpp

/-- `std::to_chars` and `std::from_chars` on `double`. -/
class CharsDouble (D : Type) where
  /-- Neither an infinity nor a NaN. -/
  isFinite : D → Bool
  toChars : D → String
  /-- The value of a whole text. -/
  fromChars : String → Option D

/-- The characters of a finite number's text. -/
def isNumberChar (c : Char) : Bool := "0123456789+-.e".toList.contains c

/-- What the standard library documents of both. -/
class LawfulCharsDouble (D : Type) [CharsDouble D] : Prop where
  fromChars_toChars : ∀ d : D, CharsDouble.isFinite d = true →
    CharsDouble.fromChars (CharsDouble.toChars d) = some d
  toChars_chars : ∀ d : D, CharsDouble.isFinite d = true →
    ∀ c ∈ (CharsDouble.toChars d).toList, isNumberChar c = true
  toChars_ne_empty : ∀ d : D, CharsDouble.toChars d ≠ ""

instance : CharsDouble WholeDouble where
  isFinite _ := true
  toChars d := Double.print17 d
  fromChars text := (Double.stod text).map Prod.fst

theorem isNumberChar_of_digit {c : Char} (h : c.isDigit = true) : isNumberChar c = true := by
  have hall : "0123456789".toList.all isNumberChar = true := by decide
  exact List.all_eq_true.mp hall c (mem_of_isDigit h)

theorem isNumberChar_toDigits {n : Nat} : ∀ c ∈ Nat.toDigits 10 n, isNumberChar c = true :=
  fun _ hc => isNumberChar_of_digit (Nat.isDigit_of_mem_toDigits (by omega) (by omega) hc)

instance : LawfulCharsDouble WholeDouble where
  fromChars_toChars d _ := by
    change (Double.stod (Double.print17 d)).map Prod.fst = some d
    rw [d.stod_print17]
    rfl
  toChars_chars := by
    rintro ⟨z⟩ _ c hc
    cases z with
    | ofNat n =>
      change c ∈ (toString n).toList at hc
      rw [toList_toString_nat] at hc
      exact isNumberChar_toDigits c hc
    | negSucc n =>
      change c ∈ (toString (Int.negSucc n)).toList at hc
      rw [toList_toString_neg] at hc
      rcases List.mem_cons.mp hc with rfl | hc
      · decide
      · exact isNumberChar_toDigits c hc
  toChars_ne_empty d := LawfulDouble.print17_ne_empty d

end ParseX.Cpp

import ParseX.Cpp.Integer
import Mathlib.Tactic.IntervalCases

/-! # `double` as the program sees it

No rounding is modelled here: a `double` is an opaque value with the
operations the program calls, and `LawfulDouble` collects what IEEE 754 and
the standard library document of them. -/
namespace ParseX.Cpp

/-- The operations on `double` that the program uses. -/
class Double (D : Type) where
  /-- `static_cast<double>` of an unsigned integer. -/
  ofNat : Nat → D
  /-- `static_cast<double>` of a signed integer. -/
  ofInt : Int → D
  add : D → D → D
  mul : D → D → D
  div : D → D → D
  le : D → D → Bool
  lt : D → D → Bool
  /-- The operator `==`. -/
  same : D → D → Bool
  /-- `static_cast<std::uint32_t>`. -/
  toUInt32 : D → UInt32
  /-- `static_cast<std::int64_t>`. -/
  toInt64 : D → Int64
  /-- `std::stod(text, &used)`; `none` when it throws. -/
  stod : String → Option (D × Nat)
  /-- A stream of `precision(17)`. -/
  print17 : D → String

/-- The characters a printed `double` is made of, `inf` and `nan` included. -/
def isDoubleChar (c : Char) : Bool := "0123456789+-.einfa".toList.contains c

/-- The values that `std::stod` and conversions from `int64_t` give: no
subnormal number, which `std::stod` refuses. -/
def Readable {D : Type} [Double D] (d : D) : Prop :=
  (∃ text used, Double.stod text = some (d, used)) ∨
    ∃ z : Int, -2 ^ 63 ≤ z ∧ z < 2 ^ 63 ∧ d = Double.ofInt z

/-- What the program relies on. -/
class LawfulDouble (D : Type) [Double D] : Prop where
  /-- Seventeen significant digits determine the value. -/
  print17_injective : ∀ a b : D, Double.print17 a = Double.print17 b → a = b
  /-- Such a text reads back, unless `std::stod` refuses the value. -/
  stod_print17 : ∀ d : D, Readable d →
    Double.stod (Double.print17 d) = some (d, (Double.print17 d).length)
  print17_chars : ∀ d : D, ∀ c ∈ (Double.print17 d).toList, isDoubleChar c = true
  print17_ne_empty : ∀ d : D, Double.print17 d ≠ ""
  /-- A text of decimal digits denotes its value, exactly below 2^53. -/
  stod_digits : ∀ text : String, text ≠ "" → (∀ c ∈ text.toList, (digitVal 10 c).isSome) →
    digitsValue 10 (digitRun 10 text.toList) < 2 ^ 53 → Double.stod text =
      some ((Double.ofNat (digitsValue 10 (digitRun 10 text.toList)) : D), text.length)
  /-- Rounding is monotone and leaves integers below 2^53 alone. -/
  le_ofNat : ∀ m n : Nat, m < 2 ^ 53 ∨ n < 2 ^ 53 →
    Double.le (Double.ofNat m : D) (Double.ofNat n) = decide (m ≤ n)
  toUInt32_ofNat : ∀ n : Nat, n < 2 ^ 32 →
    Double.toUInt32 (Double.ofNat n : D) = UInt32.ofNat n

section Printing
variable {D : Type} [Double D] [LawfulDouble D]

theorem print17_injective {a b : D} (h : Double.print17 a = Double.print17 b) : a = b :=
  LawfulDouble.print17_injective a b h

/-- A text with a character no number has is not a printed number. -/
theorem print17_ne {text : String} {c : Char} (hc : c ∈ text.toList)
    (hn : isDoubleChar c = false) (d : D) : Double.print17 d ≠ text := by
  intro h
  rw [← h] at hc
  rw [LawfulDouble.print17_chars d c hc] at hn
  cases hn

end Printing

/-! ## Whole numbers

The instance that evaluates: a `double` that holds a whole number, printed and
read as the standard library does for magnitudes below 10^17. -/

structure WholeDouble where
  val : Int
  deriving DecidableEq, Repr

instance : Double WholeDouble where
  ofNat n := ⟨n⟩
  ofInt z := ⟨z⟩
  add a b := ⟨a.val + b.val⟩
  mul a b := ⟨a.val * b.val⟩
  div a b := ⟨a.val / b.val⟩
  le a b := decide (a.val ≤ b.val)
  lt a b := decide (a.val < b.val)
  same a b := decide (a.val = b.val)
  toUInt32 a := UInt32.ofNat a.val.toNat
  toInt64 a := Int64.ofInt a.val
  stod text := (readLiteral 10 text.toList).map fun l =>
    (⟨if l.negative then -(l.magnitude : Int) else l.magnitude⟩, l.used)
  print17 a := toString a.val

theorem mem_of_isDigit {c : Char} (h : c.isDigit = true) : c ∈ "0123456789".toList := by
  have hc : 48 ≤ c.toNat ∧ c.toNat ≤ 57 := by
    simp only [Char.isDigit, ge_iff_le, Bool.and_eq_true, decide_eq_true_eq,
      UInt32.le_iff_toNat_le] at h
    exact h
  have he : c = Char.ofNat c.toNat := (Char.ofNat_toNat c).symm
  obtain ⟨hlo, hhi⟩ := hc
  generalize c.toNat = n at *
  subst he
  interval_cases n <;> decide

theorem isDoubleChar_of_digit {c : Char} (h : c.isDigit = true) : isDoubleChar c = true := by
  have hall : "0123456789".toList.all isDoubleChar = true := by decide
  exact List.all_eq_true.mp hall c (mem_of_isDigit h)

theorem isDoubleChar_toDigits {n : Nat} : ∀ c ∈ Nat.toDigits 10 n, isDoubleChar c = true :=
  fun _ hc => isDoubleChar_of_digit (Nat.isDigit_of_mem_toDigits (by omega) (by omega) hc)

theorem WholeDouble.stod_print17 (d : WholeDouble) :
    Double.stod (Double.print17 d) = some (d, (Double.print17 d).length) := by
  obtain ⟨z⟩ := d
  cases z with
  | ofNat n =>
    change (readLiteral 10 (toString n).toList).map _ = some (_, (toString n).length)
    rw [toList_toString_nat, readLiteral_toDigits, length_toString_nat]
    rfl
  | negSucc n =>
    change (readLiteral 10 (toString (Int.negSucc n)).toList).map _ =
      some (_, (toString (Int.negSucc n)).length)
    rw [← String.length_toList, toList_toString_neg, readLiteral_neg_toDigits]
    rfl

instance : LawfulDouble WholeDouble where
  print17_injective := by
    rintro ⟨a⟩ ⟨b⟩ h
    exact congrArg WholeDouble.mk (toString_int_inj h)
  stod_print17 d _ := d.stod_print17
  print17_chars := by
    rintro ⟨z⟩ c hc
    cases z with
    | ofNat n =>
      change c ∈ (toString n).toList at hc
      rw [toList_toString_nat] at hc
      exact isDoubleChar_toDigits c hc
    | negSucc n =>
      change c ∈ (toString (Int.negSucc n)).toList at hc
      rw [toList_toString_neg] at hc
      rcases List.mem_cons.mp hc with rfl | hc
      · decide
      · exact isDoubleChar_toDigits c hc
  print17_ne_empty := by
    rintro ⟨z⟩ h
    have hl := congrArg String.toList h
    cases z with
    | ofNat n =>
      change (toString n).toList = [] at hl
      rw [toList_toString_nat] at hl
      exact Nat.toDigits_ne_nil hl
    | negSucc n =>
      change (toString (Int.negSucc n)).toList = [] at hl
      rw [toList_toString_neg] at hl
      cases hl
  stod_digits := by
    intro text hne hall _
    change (readLiteral 10 text.toList).map _ = _
    rw [readLiteral_of_digits (fun h => hne (String.toList_inj.mp h)) hall,
      String.length_toList]
    rfl
  le_ofNat := by
    intro m n _
    change decide ((m : Int) ≤ n) = _
    simp
  toUInt32_ofNat := fun _ _ => rfl

end ParseX.Cpp

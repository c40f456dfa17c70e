import Mathlib.Algebra.Order.Ring.Rat
import Mathlib.Data.Rat.Floor
import ParseX.Cpp.Double

/-! # `double` without rounding

Statements about the arithmetic of the export are made over exact rational
numbers. What `std::stod` reads stays open. -/
namespace ParseX.Cpp

/-- Values that stand for rational numbers, with exact operations. -/
class ExactDouble (D : Type) [Double D] where
  val : D → ℚ
  val_ofNat : ∀ n : Nat, val (Double.ofNat n) = n
  val_add : ∀ a b : D, val (Double.add a b) = val a + val b
  val_mul : ∀ a b : D, val (Double.mul a b) = val a * val b
  val_div : ∀ a b : D, val (Double.div a b) = val a / val b
  lt_iff : ∀ a b : D, Double.lt a b = true ↔ val a < val b
  same_iff : ∀ a b : D, Double.same a b = true ↔ val a = val b

/-! ## The instance that evaluates -/

/-- A rational number; texts of decimal integers are read. -/
structure RationalDouble where
  val : ℚ
  deriving DecidableEq

instance : Double RationalDouble where
  ofNat n := ⟨n⟩
  ofInt z := ⟨z⟩
  add a b := ⟨a.val + b.val⟩
  mul a b := ⟨a.val * b.val⟩
  div a b := ⟨a.val / b.val⟩
  le a b := decide (a.val ≤ b.val)
  lt a b := decide (a.val < b.val)
  same a b := decide (a.val = b.val)
  toUInt32 a := UInt32.ofNat (a.val.num.tdiv a.val.den).toNat
  toInt64 a := Int64.ofInt (a.val.num.tdiv a.val.den)
  stod text := (readLiteral 10 text.toList).map fun l =>
    (⟨if l.negative then -(l.magnitude : ℚ) else l.magnitude⟩, l.used)
  print17 a := toString a.val

instance : ExactDouble RationalDouble where
  val := RationalDouble.val
  val_ofNat _ := rfl
  val_add _ _ := rfl
  val_mul _ _ := rfl
  val_div _ _ := rfl
  lt_iff _ _ := decide_eq_true_iff
  same_iff _ _ := decide_eq_true_iff

end ParseX.Cpp

import Mathlib.Algebra.Polynomial.Roots
import Mathlib.Tactic.FieldSimp
import Mathlib.Tactic.LinearCombination

/-! # Coefficient lists

Polynomials written as lists of coefficients, the constant first, and quotients
of two of them. A line that agrees with such a quotient at infinitely many
places is the whole quotient, up to a vanishing numerator. -/
namespace ParseX.Coefficients
open Polynomial

section
variable {R : Type} [CommRing R]

/-- The value of the polynomial at a place. -/
def eval (x : R) : List R → R
  | [] => 0
  | c :: cs => c + x * eval x cs

@[simp] theorem eval_nil (x : R) : eval x [] = 0 := rfl
@[simp] theorem eval_cons (x c : R) (cs : List R) : eval x (c :: cs) = c + x * eval x cs := rfl

theorem eval_of_zeros {cs : List R} (h : ∀ c ∈ cs, c = 0) (x : R) : eval x cs = 0 := by
  induction cs with
  | nil => rfl
  | cons c cs ih =>
    obtain ⟨hc, hcs⟩ := List.forall_mem_cons.mp h
    rw [eval_cons, hc, ih hcs, mul_zero, add_zero]

/-- The coefficients as a polynomial. -/
noncomputable def poly : List R → R[X]
  | [] => 0
  | c :: cs => C c + X * poly cs

@[simp] theorem eval_poly (x : R) (cs : List R) : (poly cs).eval x = eval x cs := by
  induction cs with
  | nil => simp [poly]
  | cons c cs ih => simp [poly, ih]

theorem zeros_of_poly_eq_zero [IsDomain R] {cs : List R} (h : poly cs = 0) : ∀ c ∈ cs, c = 0 := by
  induction cs with
  | nil => simp
  | cons c cs ih =>
    have hc : c = 0 := by simpa [poly] using congrArg (Polynomial.coeff · 0) h
    have hcs : poly cs = 0 := by
      rw [poly, hc, C_0, zero_add] at h
      exact (mul_eq_zero.mp h).resolve_left X_ne_zero
    exact List.forall_mem_cons.mpr ⟨hc, ih hcs⟩

theorem natDegree_poly_le (cs : List R) : (poly cs).natDegree ≤ cs.length - 1 := by
  induction cs with
  | nil => simp [poly]
  | cons c cs ih =>
    rw [poly, natDegree_C_add]
    cases cs with
    | nil => simp [poly]
    | cons _ _ =>
      refine natDegree_mul_le.trans ?_
      have := natDegree_X_le (R := R)
      simp only [List.length_cons] at ih ⊢
      omega

theorem poly_cons_ne_zero [IsDomain R] {c : R} {cs : List R} (h : poly cs ≠ 0) :
    poly (c :: cs) ≠ 0 := by
  intro hzero
  have hall := zeros_of_poly_eq_zero hzero
  refine h ?_
  rw [poly, hall c (by simp), C_0, zero_add] at hzero
  exact (mul_eq_zero.mp hzero).resolve_left X_ne_zero

theorem natDegree_poly_cons [IsDomain R] {c : R} {cs : List R} (h : poly cs ≠ 0) :
    (poly (c :: cs)).natDegree = (poly cs).natDegree + 1 := by
  rw [poly, natDegree_C_add, natDegree_X_mul h]

end

section
variable {K : Type} [Field K] {n₀ n₁ d : K} {ds : List K} {places : Set K}

/-- A line over the first denominator that agrees with the quotient over all of
them at infinitely many places has no further denominators, or no numerators. -/
theorem zeros_of_line_agrees (hplaces : places.Infinite) (hd : d ≠ 0)
    (h : ∀ x ∈ places, eval x (d :: ds) ≠ 0 ∧
      n₁ / d * x + n₀ / d = eval x [n₀, n₁] / eval x (d :: ds)) :
    (∀ c ∈ ds, c = 0) ∨ n₀ = 0 ∧ n₁ = 0 := by
  have hzero : poly [n₀, n₁] * (X * poly ds) = 0 := by
    refine eq_zero_of_infinite_isRoot _ (hplaces.mono fun x hx => ?_)
    obtain ⟨hne, heq⟩ := h x hx
    rw [eq_div_iff hne] at heq
    field_simp at heq
    simp only [Set.mem_ofPred_eq, IsRoot.def, eval_mul, eval_poly, eval_X]
    simp only [eval_cons, eval_nil] at heq ⊢
    linear_combination heq
  rcases mul_eq_zero.mp hzero with hn | hden
  · right
    have hall := zeros_of_poly_eq_zero hn
    exact ⟨hall n₀ (by simp), hall n₁ (by simp)⟩
  · left
    exact zeros_of_poly_eq_zero ((mul_eq_zero.mp hden).resolve_left X_ne_zero)

/-- A line that agrees with the inverse of the quotient at infinitely many places
has no further denominators, and is its own inverse. -/
theorem zeros_of_inverse_agrees (hplaces : places.Infinite) (hd : d ≠ 0)
    (h : ∀ x ∈ places, eval (n₁ / d * x + n₀ / d) (d :: ds) ≠ 0 ∧
      x = eval (n₁ / d * x + n₀ / d) [n₀, n₁] / eval (n₁ / d * x + n₀ / d) (d :: ds)) :
    (∀ c ∈ ds, c = 0) ∧ (n₁ = d ∧ n₀ = 0 ∨ n₁ = -d) := by
  obtain ⟨a, ha, b, hb, hab⟩ := hplaces.nontrivial
  have hslope : n₁ ≠ 0 := by
    rintro rfl
    obtain ⟨-, hea⟩ := h a ha
    obtain ⟨-, heb⟩ := h b hb
    simp only [zero_div, zero_mul, zero_add] at hea heb
    exact hab (hea.trans heb.symm)
  -- the values of the line are infinitely many roots of one polynomial
  have hvalues : ((fun x => n₁ / d * x + n₀ / d) '' places).Infinite := by
    refine hplaces.image fun x _ y _ hxy => ?_
    exact mul_left_cancel₀ (div_ne_zero hslope hd) (add_right_cancel hxy)
  have hpoly : poly [-n₀, d] * poly (d :: ds) = C n₁ * poly [n₀, n₁] := by
    rw [← sub_eq_zero]
    refine eq_zero_of_infinite_isRoot _ (hvalues.mono ?_)
    rintro _ ⟨x, hx, rfl⟩
    obtain ⟨hne, heq⟩ := h x hx
    dsimp only
    generalize hy : n₁ / d * x + n₀ / d = y at hne heq ⊢
    have hx : d * y - n₀ = n₁ * x := by
      rw [← hy]
      field_simp
      ring
    rw [eq_div_iff hne] at heq
    simp only [Set.mem_ofPred_eq, IsRoot.def, eval_sub, eval_mul, eval_poly, eval_C]
    simp only [eval_cons, eval_nil] at heq ⊢
    linear_combination (d + y * eval y ds) * hx + n₁ * heq
  have hzeros : ∀ c ∈ ds, c = 0 := by
    by_contra hds
    have hds : poly ds ≠ 0 := fun h => hds (zeros_of_poly_eq_zero h)
    have hline : poly [d] ≠ 0 := fun h => hd (zeros_of_poly_eq_zero h d (by simp))
    have hleft := congrArg natDegree hpoly
    rw [natDegree_mul (poly_cons_ne_zero hline) (poly_cons_ne_zero hds),
      natDegree_poly_cons hline, natDegree_poly_cons hds] at hleft
    have hright := (natDegree_C_mul_le n₁ (poly [n₀, n₁])).trans (natDegree_poly_le [n₀, n₁])
    simp only [List.length_cons, List.length_nil] at hright
    omega
  have hvalue (y : K) := congrArg (Polynomial.eval y) hpoly
  simp only [eval_mul, eval_poly, eval_C, eval_cons, eval_nil, eval_of_zeros hzeros, mul_zero,
    add_zero] at hvalue
  have hzero := hvalue 0
  have hone := hvalue 1
  have hsquare : (n₁ - d) * (n₁ + d) = 0 := by linear_combination hzero - hone
  rcases mul_eq_zero.mp hsquare with heq | heq
  · have heq := sub_eq_zero.mp heq
    subst heq
    by_cases hn : n₀ = 0
    · exact ⟨hzeros, .inl ⟨rfl, hn⟩⟩
    · have hdouble : n₀ * (n₁ + n₁) = 0 := by linear_combination -hzero
      exact ⟨hzeros, .inr (eq_neg_of_add_eq_zero_left ((mul_eq_zero.mp hdouble).resolve_left hn))⟩
  · exact ⟨hzeros, .inr (eq_neg_of_add_eq_zero_left heq)⟩

/-- With one denominator the quotient is the line. -/
theorem line_agrees_of_zeros (hd : d ≠ 0) (hds : ∀ c ∈ ds, c = 0) (x : K) :
    eval x (d :: ds) ≠ 0 ∧ n₁ / d * x + n₀ / d = eval x [n₀, n₁] / eval x (d :: ds) := by
  simp only [eval_cons, eval_nil, eval_of_zeros hds, mul_zero, add_zero]
  refine ⟨hd, ?_⟩
  field_simp
  ring

/-- The lines that are their own inverse. -/
theorem inverse_agrees_of_zeros (hd : d ≠ 0) (hds : ∀ c ∈ ds, c = 0)
    (hself : n₁ = d ∧ n₀ = 0 ∨ n₁ = -d) (x : K) :
    eval (n₁ / d * x + n₀ / d) (d :: ds) ≠ 0 ∧
      x = eval (n₁ / d * x + n₀ / d) [n₀, n₁] / eval (n₁ / d * x + n₀ / d) (d :: ds) := by
  simp only [eval_cons, eval_nil, eval_of_zeros hds, mul_zero, add_zero]
  refine ⟨hd, ?_⟩
  rcases hself with ⟨rfl, rfl⟩ | rfl
  · field_simp
    ring
  · field_simp
    ring

end

end ParseX.Coefficients

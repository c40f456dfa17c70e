import Mathlib.Order.Interval.Set.Infinite
import ParseX.Base.Coefficients
import ParseX.Cpp.ExactDouble
import ParseX.Export.CanDb

/-! # Linear scalings

What the factor and offset of a COMPU-METHOD say about its rational function,
over exact rational numbers. A scale with two numerators counts as linear
whatever its further denominators, and whichever direction it converts. -/
namespace ParseX.CanDb
open Cpp Coefficients

/-! ## The scale that is taken -/

mutual

/-- Every `COMPU-SCALE` below a node, in document order, and whether it stands
below a `COMPU-PHYS-TO-INTERNAL`. -/
def directedScales (inverse : Bool) (node : RawNode) : List (Bool × RawNode) :=
  match node with
  | ⟨_, _, _, _, children⟩ => directedScalesOf inverse children

def directedScalesOf (inverse : Bool) (children : List RawNode) : List (Bool × RawNode) :=
  match children with
  | [] => []
  | child :: rest => (if child.tagName == "COMPU-SCALE" then [(inverse, child)] else []) ++
      directedScales (inverse || child.tagName == "COMPU-PHYS-TO-INTERNAL") child ++
      directedScalesOf inverse rest

end

theorem directedScalesOf_eq (inverse : Bool) (children : List RawNode) :
    directedScalesOf inverse children = children.flatMap fun child =>
      (if child.tagName == "COMPU-SCALE" then [(inverse, child)] else []) ++
        directedScales (inverse || child.tagName == "COMPU-PHYS-TO-INTERNAL") child := by
  induction children with
  | nil => rfl
  | cons child rest ih => rw [directedScalesOf, ih, List.flatMap_cons]

/-- They are the scales that the search finds. -/
theorem map_directedScales (node : RawNode) : ∀ inverse : Bool,
    (directedScales inverse node).map Prod.snd = findDescendants node "COMPU-SCALE" := by
  induction node using RawNode.induction with
  | step node ih =>
    intro inverse
    have hscales : directedScales inverse node = directedScalesOf inverse node.children := by
      cases node
      rfl
    rw [hscales, directedScalesOf_eq, List.map_flatMap, findDescendants, collectDescendants_eq]
    refine List.flatMap_congr fun child hchild => ?_
    rw [List.map_append, ih child hchild, findDescendants]
    split <;> rfl

section
variable {D : Type} [Double D]

/-- The numbers of a scaling. -/
def SameNumbers (a b : Scaling D) : Prop :=
  a.factor = b.factor ∧ a.offset = b.offset ∧ a.min = b.min ∧ a.max = b.max

variable (D) in
/-- What a scale gives as a linear one. -/
def linearScaling (scale : RawNode) : Option (Scaling D) :=
  (findChild scale "COMPU-RATIONAL-COEFFS").bind fun coeffs => applyLinearScale scale coeffs {}

variable (D) in
/-- The scale whose factor and offset are taken, with its direction. -/
def takenScale (method : RawNode) : Option (Bool × RawNode) :=
  (directedScales false method).find? fun entry => (linearScaling D entry.2).isSome

theorem addTextTableEntry_numbers (scale : RawNode) (out : Scaling D) :
    SameNumbers (addTextTableEntry scale out) out := by
  unfold addTextTableEntry
  dsimp only
  split
  · split
    · exact ⟨rfl, rfl, rfl, rfl⟩
    · split <;> exact ⟨rfl, rfl, rfl, rfl⟩
  · exact ⟨rfl, rfl, rfl, rfl⟩

theorem SameNumbers.trans {a b c : Scaling D} (h : SameNumbers a b) (h' : SameNumbers b c) :
    SameNumbers a c :=
  ⟨h.1.trans h'.1, h.2.1.trans h'.2.1, h.2.2.1.trans h'.2.2.1, h.2.2.2.trans h'.2.2.2⟩

theorem SameNumbers.symm {a b : Scaling D} (h : SameNumbers a b) : SameNumbers b a :=
  ⟨h.1.symm, h.2.1.symm, h.2.2.1.symm, h.2.2.2.symm⟩

/-- A linear scale reads nothing of what it overwrites. -/
theorem applyLinearScale_numbers (scale coeffs : RawNode) {a b : Scaling D} (h : SameNumbers a b) :
    Option.Rel SameNumbers (applyLinearScale scale coeffs a) (applyLinearScale scale coeffs b) := by
  obtain ⟨hfactor, hoffset, hmin, hmax⟩ := h
  unfold applyLinearScale
  dsimp only
  split
  · split
    · exact .none
    · split
      · refine .some ?_
        unfold applyLimits
        dsimp only
        split
        · split <;> exact ⟨rfl, rfl, rfl, rfl⟩
        · exact ⟨rfl, rfl, hmin, hmax⟩
      · exact .none
  · exact .none

/-- After a linear scale the numbers stay. -/
theorem foldl_applyScale_taken (scales : List RawNode) : ∀ out : Scaling D,
    SameNumbers (scales.foldl applyScale (true, out)).2 out := by
  induction scales with
  | nil => intro out; exact ⟨rfl, rfl, rfl, rfl⟩
  | cons scale scales ih =>
    intro out
    have hstep : applyScale (true, out) scale = (true, addTextTableEntry scale out) := by
      unfold applyScale
      split <;> rfl
    rw [List.foldl_cons, hstep]
    exact (ih _).trans (addTextTableEntry_numbers scale out)

/-- The loop takes the numbers of the first linear scale. -/
theorem foldl_applyScale (scales : List (Bool × RawNode)) : ∀ out : Scaling D, SameNumbers out {} →
    SameNumbers ((scales.map Prod.snd).foldl applyScale (false, out)).2
      (((scales.find? fun entry => (linearScaling D entry.2).isSome).bind fun entry =>
        linearScaling D entry.2).getD {}) := by
  induction scales with
  | nil => intro out h; exact h
  | cons entry scales ih =>
    intro out h
    rw [List.map_cons, List.foldl_cons]
    cases hcoeffs : findChild entry.2 "COMPU-RATIONAL-COEFFS" with
    | none =>
      have hlinear : linearScaling D entry.2 = none := by rw [linearScaling, hcoeffs]; rfl
      have hstep : applyScale (false, out) entry.2 = (false, addTextTableEntry entry.2 out) := by
        simp only [applyScale, hcoeffs]
      rw [hstep, List.find?_cons_of_neg (by rw [hlinear]; simp)]
      exact ih _ ((addTextTableEntry_numbers entry.2 out).trans h)
    | some coeffs =>
      have hlinear : linearScaling D entry.2 = applyLinearScale entry.2 coeffs {} := by
        rw [linearScaling, hcoeffs]
        rfl
      have hrel := applyLinearScale_numbers entry.2 coeffs h
      cases hout : applyLinearScale entry.2 coeffs out with
      | none =>
        rw [hout] at hrel
        cases hdefault : applyLinearScale entry.2 coeffs ({} : Scaling D) with
        | some _ => rw [hdefault] at hrel; cases hrel
        | none =>
          have hstep : applyScale (false, out) entry.2 = (false, out) := by
            simp [applyScale, hcoeffs, hout]
          rw [hstep, List.find?_cons_of_neg (by rw [hlinear, hdefault]; simp)]
          exact ih _ h
      | some taken =>
        rw [hout] at hrel
        cases hdefault : applyLinearScale entry.2 coeffs ({} : Scaling D) with
        | none => rw [hdefault] at hrel; cases hrel
        | some scaling =>
          rw [hdefault] at hrel
          have hstep : applyScale (false, out) entry.2 = (true, taken) := by
            simp [applyScale, hcoeffs, hout]
          rw [hstep, List.find?_cons_of_pos (by rw [hlinear, hdefault]; rfl), Option.bind_some,
            hlinear, hdefault]
          cases hrel with
          | some hsame => exact (foldl_applyScale_taken _ taken).trans hsame

/-- The numbers of a method are those of the scale that is taken. -/
theorem applyCompuMethod_numbers (method : RawNode) :
    SameNumbers (applyCompuMethod method ({} : Scaling D))
      (((takenScale D method).bind fun entry => linearScaling D entry.2).getD {}) := by
  rw [applyCompuMethod, ← map_directedScales method false]
  exact foldl_applyScale _ _ ⟨rfl, rfl, rfl, rfl⟩

/-! ## What a scale says -/

variable [ExactDouble D]

variable (D) in
/-- The number a text stands for. -/
def rational (text : String) : Option ℚ := (parseDouble text : Option D).map ExactDouble.val

variable (D) in
def coefficients (nodes : List RawNode) : Option (List ℚ) :=
  nodes.mapM fun node => rational D node.text

variable (D) in
/-- The numerator of a scale, the constant first. -/
def numerators (scale : RawNode) : Option (List ℚ) :=
  (findChild scale "COMPU-RATIONAL-COEFFS").bind fun coeffs =>
    coefficients D (childNodes (findChild coeffs "COMPU-NUMERATOR"))

variable (D) in
/-- The denominator of a scale, one without coefficients. -/
def denominators (scale : RawNode) : Option (List ℚ) :=
  (findChild scale "COMPU-RATIONAL-COEFFS").bind fun coeffs =>
    match childNodes (findChild coeffs "COMPU-DENOMINATOR") with
    | [] => some [1]
    | nodes => coefficients D nodes

variable (D) in
def lowerLimit (scale : RawNode) : Option ℚ := rational D (childText scale "LOWER-LIMIT")

variable (D) in
def upperLimit (scale : RawNode) : Option ℚ := rational D (childText scale "UPPER-LIMIT")

/-- The value lies inside the limits that there are. -/
def InLimits (lower upper : Option ℚ) (x : ℚ) : Prop :=
  (∀ low ∈ lower, low ≤ x) ∧ ∀ high ∈ upper, x ≤ high

/-- `y` is the physical value of the raw value `x`. -/
def PhysicalValue (inverse : Bool) (num den : List ℚ) (x y : ℚ) : Prop :=
  if inverse then eval y den ≠ 0 ∧ x = eval y num / eval y den
  else eval x den ≠ 0 ∧ y = eval x num / eval x den

instance (inverse : Bool) (num den : List ℚ) (x y : ℚ) :
    Decidable (PhysicalValue inverse num den x y) :=
  inferInstanceAs (Decidable (if inverse = true then _ else _))

/-- The values are the physical images of the limits, in either order. -/
def LimitImages (inverse : Bool) (num den : List ℚ) (low high a b : ℚ) : Prop :=
  (PhysicalValue inverse num den low a ∧ PhysicalValue inverse num den high b) ∨
    (PhysicalValue inverse num den low b ∧ PhysicalValue inverse num den high a)

/-- The scaling converts as the scale does. -/
structure Converts (inverse : Bool) (scale : RawNode) (num den : List ℚ) (out : Scaling D) :
    Prop where
  num_eq : numerators D scale = some num
  den_eq : denominators D scale = some den
  line : ∀ x, InLimits (lowerLimit D scale) (upperLimit D scale) x → PhysicalValue inverse num den x
    (ExactDouble.val out.factor * x + ExactDouble.val out.offset)
  limits : ∀ low high, lowerLimit D scale = some low → upperLimit D scale = some high →
    ∃ min max, out.min = some min ∧ out.max = some max ∧
      LimitImages inverse num den low high (ExactDouble.val min) (ExactDouble.val max) ∧
      (low ≤ high → ExactDouble.val min ≤ ExactDouble.val max)

variable (D) in
/-- The scaling of a method converts as the scale it is taken from, and is the
identity without one. -/
def ScalingFaithful (method : RawNode) : Prop :=
  let out := applyCompuMethod method ({} : Scaling D)
  match takenScale D method with
  | some (inverse, scale) => ∃ num den, Converts inverse scale num den out
  | none => ExactDouble.val out.factor = 1 ∧ ExactDouble.val out.offset = 0

/-- The line through the numerators over the first denominator. -/
def lineValue (n₀ n₁ d x : ℚ) : ℚ := n₁ / d * x + n₀ / d

variable (D) in
/-- The coefficients of a scale whose rational function is the line over its
first denominator, as far as its limits show. -/
structure TrulyLinear (inverse : Bool) (scale : RawNode) (n₀ n₁ d : ℚ) (ds : List ℚ) : Prop where
  num_eq : numerators D scale = some [n₀, n₁]
  den_eq : denominators D scale = some (d :: ds)
  shape :
    -- one denominator, in the right direction or its own inverse
    (∀ c ∈ ds, c = 0) ∧ (inverse = false ∨ n₁ = d ∧ n₀ = 0 ∨ n₁ = -d) ∨
    -- no numerator, and no root of the denominator
    (inverse = false ∧ n₀ = 0 ∧ n₁ = 0 ∧ ∀ x, InLimits (lowerLimit D scale) (upperLimit D scale) x ∨
      lowerLimit D scale = some x ∨ upperLimit D scale = some x → eval x (d :: ds) ≠ 0) ∨
    -- one place between the limits, or none
    ∃ low high, lowerLimit D scale = some low ∧ upperLimit D scale = some high ∧ high ≤ low ∧
      LimitImages inverse [n₀, n₁] (d :: ds) low high (lineValue n₀ n₁ d low) (lineValue n₀ n₁ d high)

/-! ## What is taken -/

/-- The line of a linear scale and its limits. -/
structure TakesLine (scale : RawNode) (n₀ n₁ d : ℚ) (out : Scaling D) : Prop where
  num_eq : numerators D scale = some [n₀, n₁]
  divisor : d ≠ 0
  den_eq : ∀ den, denominators D scale = some den → ∃ ds, den = d :: ds
  line : ∀ x, ExactDouble.val out.factor * x + ExactDouble.val out.offset = lineValue n₀ n₁ d x
  limits : ∀ low high, lowerLimit D scale = some low → upperLimit D scale = some high →
    ∃ min max, out.min = some min ∧ out.max = some max ∧
      (n₁ / d < 0 → ExactDouble.val min = lineValue n₀ n₁ d high ∧
        ExactDouble.val max = lineValue n₀ n₁ d low) ∧
      (0 ≤ n₁ / d → ExactDouble.val min = lineValue n₀ n₁ d low ∧
        ExactDouble.val max = lineValue n₀ n₁ d high)

theorem applyLimits_line {scale : RawNode} {n₀ n₁ d : ℚ} {out : Scaling D}
    (hline : ∀ x, ExactDouble.val out.factor * x + ExactDouble.val out.offset = lineValue n₀ n₁ d x)
    (hfactor : ExactDouble.val out.factor = n₁ / d) :
    (applyLimits scale out).factor = out.factor ∧ (applyLimits scale out).offset = out.offset ∧
    ∀ low high, lowerLimit D scale = some low → upperLimit D scale = some high →
      ∃ min max, (applyLimits scale out).min = some min ∧ (applyLimits scale out).max = some max ∧
        (n₁ / d < 0 → ExactDouble.val min = lineValue n₀ n₁ d high ∧
          ExactDouble.val max = lineValue n₀ n₁ d low) ∧
        (0 ≤ n₁ / d → ExactDouble.val min = lineValue n₀ n₁ d low ∧
          ExactDouble.val max = lineValue n₀ n₁ d high) := by
  have himage (limit : D) : ExactDouble.val
      (Double.add (Double.mul limit out.factor) out.offset) =
        lineValue n₀ n₁ d (ExactDouble.val limit) := by
    rw [ExactDouble.val_add, ExactDouble.val_mul, ← hline, mul_comm]
  have hsign : Double.lt out.factor (Double.ofNat 0) = true ↔ n₁ / d < 0 := by
    rw [ExactDouble.lt_iff, ExactDouble.val_ofNat, hfactor, Nat.cast_zero]
  unfold applyLimits lowerLimit upperLimit rational
  cases (parseDouble (childText scale "LOWER-LIMIT") : Option D) with
  | none => exact ⟨rfl, rfl, fun low _ h => by cases h⟩
  | some lower =>
    cases (parseDouble (childText scale "UPPER-LIMIT") : Option D) with
    | none => exact ⟨rfl, rfl, fun _ high _ h => by cases h⟩
    | some upper =>
      dsimp only
      by_cases hneg : n₁ / d < 0
      · rw [if_pos (hsign.mpr hneg)]
        refine ⟨rfl, rfl, fun low high hlow hhigh => ⟨_, _, rfl, rfl, fun _ => ?_, fun h => ?_⟩⟩
        · rw [himage, himage, ← Option.some.inj hlow, ← Option.some.inj hhigh]
          exact ⟨rfl, rfl⟩
        · exact absurd hneg (not_lt.mpr h)
      · rw [if_neg (mt hsign.mp hneg)]
        refine ⟨rfl, rfl, fun low high hlow hhigh => ⟨_, _, rfl, rfl, fun h => ?_, fun _ => ?_⟩⟩
        · exact absurd h hneg
        · rw [himage, himage, ← Option.some.inj hlow, ← Option.some.inj hhigh]
          exact ⟨rfl, rfl⟩

/-- A scale that counts as linear has two numerators and a first denominator
that is not zero. -/
theorem takesLine_of_linearScaling {scale : RawNode} {out : Scaling D}
    (h : linearScaling D scale = some out) : ∃ n₀ n₁ d, TakesLine scale n₀ n₁ d out := by
  obtain ⟨coeffs, hcoeffs, h⟩ := Option.bind_eq_some_iff.mp h
  unfold applyLinearScale at h
  dsimp only at h
  split at h
  · rename_i first second divisor hnum hdivisor
    split at h
    · cases h
    · rename_i hzero
      split at h
      · rename_i constant slope hconstant hslope
        obtain rfl := Option.some.inj h
        have hd : ExactDouble.val divisor ≠ 0 := by
          intro hd
          apply hzero
          rw [ExactDouble.same_iff, ExactDouble.val_ofNat, hd, Nat.cast_zero]
        have hfactor : ExactDouble.val (Double.div slope divisor) =
            ExactDouble.val slope / ExactDouble.val divisor := ExactDouble.val_div _ _
        obtain ⟨hf, ho, hlimits⟩ := @applyLimits_line _ _ _ scale (ExactDouble.val constant)
          (ExactDouble.val slope) (ExactDouble.val divisor)
          { ({} : Scaling D) with
            offset := Double.div constant divisor
            factor := Double.div slope divisor }
          (fun x => by rw [ExactDouble.val_div, ExactDouble.val_div]; rfl) hfactor
        refine ⟨ExactDouble.val constant, ExactDouble.val slope, ExactDouble.val divisor,
          ?_, hd, ?_, ?_, hlimits⟩
        · simp [numerators, hcoeffs, hnum, coefficients, rational, hconstant, hslope]
        · intro den hden
          rw [denominators, hcoeffs, Option.bind_some] at hden
          cases hnodes : childNodes (findChild coeffs "COMPU-DENOMINATOR") with
          | nil =>
            rw [hnodes] at hden hdivisor
            rw [← Option.some.inj hdivisor, ExactDouble.val_ofNat, Nat.cast_one]
            exact ⟨[], (Option.some.inj hden).symm⟩
          | cons node nodes =>
            rw [hnodes] at hden hdivisor
            simp only at hdivisor hden
            rw [coefficients, List.mapM_cons, rational, hdivisor] at hden
            obtain ⟨d, hd, hrest⟩ := Option.bind_eq_some_iff.mp hden
            obtain ⟨ds, -, hds⟩ := Option.bind_eq_some_iff.mp hrest
            rw [← Option.some.inj hds, ← Option.some.inj hd]
            exact ⟨ds, rfl⟩
        · intro x
          rw [hf, ho, ExactDouble.val_div, ExactDouble.val_div]
          rfl
      · cases h
  · cases h

/-! ## When the line is the rational function -/

omit [Double D] [ExactDouble D] in
/-- Limits that leave more than one value leave infinitely many. -/
theorem inLimits_infinite {lower upper : Option ℚ}
    (h : ∀ low high, lower = some low → upper = some high → low < high) :
    {x | InLimits lower upper x}.Infinite := by
  cases lower with
  | none =>
    cases upper with
    | none => exact Set.infinite_univ.mono fun x _ => ⟨by simp, by simp⟩
    | some high => exact (Set.Iic_infinite high).mono fun x hx => ⟨by simp, by simpa using hx⟩
  | some low =>
    cases upper with
    | none => exact (Set.Ici_infinite low).mono fun x hx => ⟨by simpa using hx, by simp⟩
    | some high =>
      exact (Set.Icc_infinite (h low high rfl rfl)).mono fun x hx =>
        ⟨by simpa using hx.1, by simpa using hx.2⟩

/-- The order of the two images does not matter. -/
theorem LimitImages.swap {inverse : Bool} {num den : List ℚ} {low high a b : ℚ}
    (h : LimitImages inverse num den low high a b) : LimitImages inverse num den low high b a :=
  Or.symm h

/-- The limits that are taken are the values of the line at the limits. -/
theorem TakesLine.images {scale : RawNode} {n₀ n₁ d : ℚ} {out : Scaling D} {inverse : Bool}
    {num den : List ℚ} (h : TakesLine scale n₀ n₁ d out) {low high : ℚ}
    (hlow : lowerLimit D scale = some low) (hhigh : upperLimit D scale = some high) :
    (∃ min max, out.min = some min ∧ out.max = some max ∧
      LimitImages inverse num den low high (ExactDouble.val min) (ExactDouble.val max) ∧
      (low ≤ high → ExactDouble.val min ≤ ExactDouble.val max)) ↔
    LimitImages inverse num den low high (lineValue n₀ n₁ d low) (lineValue n₀ n₁ d high) := by
  obtain ⟨min, max, hmin, hmax, hneg, hpos⟩ := h.limits low high hlow hhigh
  simp only [hmin, hmax, Option.some.injEq, exists_and_left, exists_eq_left']
  rcases lt_or_ge (n₁ / d) 0 with hsign | hsign
  · obtain ⟨hvmin, hvmax⟩ := hneg hsign
    rw [hvmin, hvmax]
    refine ⟨fun h => h.1.swap, fun h => ⟨h.swap, fun hle => ?_⟩⟩
    exact add_le_add_left (mul_le_mul_of_nonpos_left hle hsign.le) _
  · obtain ⟨hvmin, hvmax⟩ := hpos hsign
    rw [hvmin, hvmax]
    refine ⟨fun h => h.1, fun h => ⟨h, fun hle => ?_⟩⟩
    exact add_le_add_left (mul_le_mul_of_nonneg_left hle hsign) _

section
variable {inverse : Bool} {scale : RawNode} {n₀ n₁ d : ℚ} {ds : List ℚ} {out : Scaling D}

/-- A line that converts as the scale shows its shape. -/
theorem TakesLine.trulyLinear (h : TakesLine scale n₀ n₁ d out)
    (hconverts : Converts inverse scale [n₀, n₁] (d :: ds) out) :
    TrulyLinear D inverse scale n₀ n₁ d ds := by
  obtain ⟨hnum, hden, hline, hlimits⟩ := hconverts
  refine ⟨hnum, hden, ?_⟩
  by_cases hwide : ∀ low high, lowerLimit D scale = some low → upperLimit D scale = some high →
      low < high
  · have hplaces := inLimits_infinite hwide
    have hinside {x : ℚ} (hx : InLimits (lowerLimit D scale) (upperLimit D scale) x ∨
        lowerLimit D scale = some x ∨ upperLimit D scale = some x) :
        InLimits (lowerLimit D scale) (upperLimit D scale) x := by
      rcases hx with hx | hx | hx
      · exact hx
      · refine ⟨fun low hlow => ?_, fun high hhigh => (hwide x high hx hhigh).le⟩
        rw [Option.mem_def, hx, Option.some.injEq] at hlow
        exact hlow.ge
      · refine ⟨fun low hlow => (hwide low x hlow hx).le, fun high hhigh => ?_⟩
        rw [Option.mem_def, hx, Option.some.injEq] at hhigh
        exact hhigh.le
    cases inverse with
    | false =>
      have hall : ∀ x ∈ {x | InLimits (lowerLimit D scale) (upperLimit D scale) x},
          eval x (d :: ds) ≠ 0 ∧ n₁ / d * x + n₀ / d = eval x [n₀, n₁] / eval x (d :: ds) := by
        intro x hx
        have hvalue := hline x hx
        rwa [h.line, PhysicalValue, if_neg Bool.false_ne_true] at hvalue
      rcases zeros_of_line_agrees hplaces h.divisor hall with hds | ⟨hn₀, hn₁⟩
      · exact .inl ⟨hds, .inl rfl⟩
      · exact .inr (.inl ⟨rfl, hn₀, hn₁, fun x hx => (hall x (hinside hx)).1⟩)
    | true =>
      have hall : ∀ x ∈ {x | InLimits (lowerLimit D scale) (upperLimit D scale) x},
          eval (n₁ / d * x + n₀ / d) (d :: ds) ≠ 0 ∧
            x = eval (n₁ / d * x + n₀ / d) [n₀, n₁] / eval (n₁ / d * x + n₀ / d) (d :: ds) := by
        intro x hx
        have hvalue := hline x hx
        rwa [h.line, PhysicalValue, if_pos rfl] at hvalue
      obtain ⟨hds, hself⟩ := zeros_of_inverse_agrees hplaces h.divisor hall
      exact .inl ⟨hds, .inr hself⟩
  · simp only [not_forall, not_lt] at hwide
    obtain ⟨low, high, hlow, hhigh, hle⟩ := hwide
    exact .inr (.inr ⟨low, high, hlow, hhigh, hle, (h.images hlow hhigh).mp (hlimits low high hlow hhigh)⟩)

/-- A truly linear scale is converted by its line. -/
theorem TakesLine.converts (h : TakesLine scale n₀ n₁ d out)
    (hlinear : TrulyLinear D inverse scale n₀ n₁ d ds) :
    Converts inverse scale [n₀, n₁] (d :: ds) out := by
  obtain ⟨hnum, hden, hshape⟩ := hlinear
  -- at all places of interest the line is the value, or the limits leave one place
  have hcases : (∀ x, InLimits (lowerLimit D scale) (upperLimit D scale) x ∨
      lowerLimit D scale = some x ∨ upperLimit D scale = some x →
        PhysicalValue inverse [n₀, n₁] (d :: ds) x (lineValue n₀ n₁ d x)) ∨
      ∃ low high, lowerLimit D scale = some low ∧ upperLimit D scale = some high ∧ high ≤ low ∧
        LimitImages inverse [n₀, n₁] (d :: ds) low high (lineValue n₀ n₁ d low)
          (lineValue n₀ n₁ d high) := by
    rcases hshape with ⟨hds, hdirection⟩ | ⟨rfl, rfl, rfl, hroots⟩ | hplace
    · refine .inl fun x _ => ?_
      cases inverse with
      | false => exact line_agrees_of_zeros h.divisor hds x
      | true => exact inverse_agrees_of_zeros h.divisor hds (hdirection.resolve_left (by simp)) x
    · refine .inl fun x hx => ⟨hroots x hx, ?_⟩
      simp [lineValue]
    · exact .inr hplace
  refine ⟨hnum, hden, fun x hx => ?_, fun low high hlow hhigh => (h.images hlow hhigh).mpr ?_⟩
  · rw [h.line]
    rcases hcases with hall | ⟨low, high, hlow, hhigh, hle, himages⟩
    · exact hall x (.inl hx)
    · have hxlow : low ≤ x := hx.1 low hlow
      have hxhigh : x ≤ high := hx.2 high hhigh
      obtain rfl : x = low := le_antisymm (hxhigh.trans hle) hxlow
      obtain rfl : x = high := le_antisymm hxhigh hle
      rcases himages with himages | himages
      · exact himages.1
      · exact himages.1
  · rcases hcases with hall | ⟨low', high', hlow', hhigh', -, himages⟩
    · exact .inl ⟨hall low (.inr (.inl hlow)), hall high (.inr (.inr hhigh))⟩
    · rw [hlow, Option.some.injEq] at hlow'
      rw [hhigh, Option.some.injEq] at hhigh'
      rwa [hlow', hhigh']

/-- Only the numbers of a scaling matter. -/
theorem Converts.congr {num den : List ℚ} {out' : Scaling D} (h : Converts inverse scale num den out)
    (hsame : SameNumbers out' out) : Converts inverse scale num den out' := by
  obtain ⟨hfactor, hoffset, hmin, hmax⟩ := hsame
  obtain ⟨hnum, hden, hline, hlimits⟩ := h
  exact ⟨hnum, hden, by rwa [hfactor, hoffset], by rwa [hmin, hmax]⟩

end

/-- The exported scaling is the COMPU-METHOD's exactly when the scale it is
taken from, if any, is truly linear. -/
theorem linear_scaling_iff (method : RawNode) : ScalingFaithful D method ↔
    ∀ inverse scale, takenScale D method = some (inverse, scale) →
      ∃ n₀ n₁ d ds, TrulyLinear D inverse scale n₀ n₁ d ds := by
  have hnumbers : SameNumbers (applyCompuMethod method ({} : Scaling D)) _ :=
    applyCompuMethod_numbers method
  unfold ScalingFaithful
  cases htaken : takenScale D method with
  | none =>
    rw [htaken] at hnumbers
    simp only [Option.bind_none, Option.getD_none] at hnumbers
    refine iff_of_true ⟨?_, ?_⟩ fun _ _ h => by cases h
    · rw [hnumbers.1, ExactDouble.val_ofNat, Nat.cast_one]
    · rw [hnumbers.2.1, ExactDouble.val_ofNat, Nat.cast_zero]
  | some entry =>
    obtain ⟨inverse, scale⟩ := entry
    have hlinear := @List.find?_some (Bool × RawNode)
      (fun entry => (linearScaling D entry.2).isSome) _ _ htaken
    obtain ⟨scaling, hscaling⟩ := Option.isSome_iff_exists.mp hlinear
    rw [htaken, Option.bind_some, hscaling, Option.getD_some] at hnumbers
    obtain ⟨n₀, n₁, d, hline⟩ := takesLine_of_linearScaling hscaling
    constructor
    · rintro ⟨num, den, hconverts⟩ inverse' scale' htaken'
      obtain ⟨rfl, rfl⟩ := Prod.mk.inj (Option.some.inj htaken')
      obtain rfl : num = [n₀, n₁] := Option.some.inj (hconverts.num_eq.symm.trans hline.num_eq)
      obtain ⟨ds, rfl⟩ := hline.den_eq den hconverts.den_eq
      exact ⟨n₀, n₁, d, ds, hline.trulyLinear (hconverts.congr hnumbers.symm)⟩
    · intro h
      obtain ⟨m₀, m₁, e, ds, htruly⟩ := h inverse scale rfl
      obtain ⟨rfl, rfl⟩ : m₀ = n₀ ∧ m₁ = n₁ := by
        simpa using htruly.num_eq.symm.trans hline.num_eq
      obtain ⟨ds', hds⟩ := hline.den_eq _ htruly.den_eq
      obtain ⟨rfl, rfl⟩ := List.cons.inj hds
      exact ⟨_, _, (hline.converts htruly).congr hnumbers⟩

end

/-! ## An instance -/

/-- A node with one child `V` for each text. -/
def nodeOfValues (tagName : String) (texts : List String) : RawNode :=
  { tagName := tagName, children := texts.map fun text => { tagName := "V", text := text } }

/-- A scale with the coefficients and no limits. -/
def scaleOfCoeffs (num den : List String) : RawNode :=
  { tagName := "COMPU-SCALE"
    children := [{ tagName := "COMPU-RATIONAL-COEFFS"
                   children := [nodeOfValues "COMPU-NUMERATOR" num,
                     nodeOfValues "COMPU-DENOMINATOR" den] }] }

/-- A method with one scale in the direction. -/
def methodOfScale (direction : String) (scale : RawNode) : RawNode :=
  { tagName := "COMPU-METHOD"
    children := [{ tagName := direction
                   children := [{ tagName := "COMPU-SCALES", children := [scale] }] }] }

/-- The quotient `x / (1 + x)` is exported as the identity, and the function from
physical to raw values `2 x` as one from raw to physical values. -/
theorem scalings_misread :
    ¬ ScalingFaithful RationalDouble
        (methodOfScale "COMPU-INTERNAL-TO-PHYS" (scaleOfCoeffs ["0", "1"] ["1", "1"])) ∧
      ¬ ScalingFaithful RationalDouble
        (methodOfScale "COMPU-PHYS-TO-INTERNAL" (scaleOfCoeffs ["0", "2"] ["1"])) := by
  have hwrong (inverse : Bool) (num den : List ℚ) {method scale : RawNode}
      (htaken : takenScale RationalDouble method = some (inverse, scale))
      (hnum : numerators RationalDouble scale = some num)
      (hden : denominators RationalDouble scale = some den)
      (hlower : lowerLimit RationalDouble scale = none)
      (hupper : upperLimit RationalDouble scale = none)
      (hvalue : ¬ PhysicalValue inverse num den 1
        (ExactDouble.val (applyCompuMethod method ({} : Scaling RationalDouble)).factor * 1 +
          ExactDouble.val (applyCompuMethod method ({} : Scaling RationalDouble)).offset)) :
      ¬ ScalingFaithful RationalDouble method := by
    intro h
    rw [ScalingFaithful, htaken] at h
    obtain ⟨num', den', hconverts⟩ := h
    obtain rfl := Option.some.inj (hconverts.num_eq.symm.trans hnum)
    obtain rfl := Option.some.inj (hconverts.den_eq.symm.trans hden)
    exact hvalue (hconverts.line 1 ⟨by simp [hlower], by simp [hupper]⟩)
  constructor
  · exact hwrong false [0, 1] [1, 1] (List.find?_cons_of_pos (by decide +kernel))
      (by decide +kernel) (by decide +kernel) (by decide +kernel) (by decide +kernel)
      (by decide +kernel)
  · exact hwrong true [0, 2] [1] (List.find?_cons_of_pos (by decide +kernel)) (by decide +kernel)
      (by decide +kernel) (by decide +kernel) (by decide +kernel) (by decide +kernel)

end ParseX.CanDb

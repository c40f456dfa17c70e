import Mathlib.Data.List.Basic
import Mathlib.Tactic.Ring

/-! # Integer text in the C++ standard library

`std::stoll`, `std::stoull` and `std::to_string` as the standard documents
them: leading white space, one sign, an optional `0x` in base 16, then the
longest run of digits; `none` stands for the exceptions `invalid_argument`
(no digit) and `out_of_range`. Both readers also report how many characters
they used, which a caller may ignore. -/
namespace ParseX.Cpp

/-- `isspace` in the C locale. -/
def isSpace (c : Char) : Bool :=
  c == ' ' || c == '\t' || c == '\n' || c == '\r' || c.toNat == 11 || c.toNat == 12

/-- The value of `c` as a digit in `base`, letters counting from ten. -/
def digitVal (base : Nat) (c : Char) : Option Nat :=
  let v := if '0' ≤ c ∧ c ≤ '9' then c.toNat - 48
    else if 'a' ≤ c ∧ c ≤ 'z' then c.toNat - 87
    else if 'A' ≤ c ∧ c ≤ 'Z' then c.toNat - 55
    else base
  if v < base then some v else none

/-- The longest run of digits at the front. -/
def digitRun (base : Nat) : List Char → List Nat
  | [] => []
  | c :: cs => match digitVal base c with
    | some d => d :: digitRun base cs
    | none => []

/-- The number a run of digits denotes, most significant first. -/
def digitsValue (base : Nat) (ds : List Nat) : Nat := ds.foldl (fun acc d => acc * base + d) 0

/-- What `strtoll` and `strtoull` read: the sign, the magnitude and the
number of characters used. -/
structure Literal where
  negative : Bool
  magnitude : Nat
  used : Nat
  deriving DecidableEq, Repr

/-- The sign of a literal and the characters after it. -/
def splitSign : List Char → Bool × Nat × List Char
  | '-' :: cs => (true, 1, cs)
  | '+' :: cs => (false, 1, cs)
  | cs => (false, 0, cs)

/-- In base 16 a `0x` counts as a prefix when a digit follows it. -/
def hexPrefixLength (base : Nat) : List Char → Nat
  | '0' :: x :: c :: _ =>
    if base = 16 ∧ (x = 'x' ∨ x = 'X') ∧ (digitVal 16 c).isSome then 2 else 0
  | _ => 0

def readLiteral (base : Nat) (cs : List Char) : Option Literal :=
  let blanks := (cs.takeWhile isSpace).length
  let (negative, signLength, body) := splitSign (cs.drop blanks)
  let hex := hexPrefixLength base body
  let ds := digitRun base (body.drop hex)
  if ds.isEmpty then none
  else some ⟨negative, digitsValue base ds, blanks + signLength + hex + ds.length⟩

/-- The range of `long long`. -/
def inLongLong (v : Int) : Bool := decide (-2 ^ 63 ≤ v) && decide (v < 2 ^ 63)

/-- The range of `unsigned long long`. -/
def inULongLong (n : Nat) : Bool := decide (n < 2 ^ 64)

/-- `std::stoll(text, &used)`. -/
def stoll (text : String) : Option (Int × Nat) :=
  match readLiteral 10 text.toList with
  | some l =>
    let v : Int := if l.negative then -(l.magnitude : Int) else l.magnitude
    if inLongLong v then some (v, l.used) else none
  | none => none

/-- `std::stoull(text, &used, base)`: a minus sign negates modulo 2^64. -/
def stoull (text : String) (base : Nat) : Option (Nat × Nat) :=
  match readLiteral base text.toList with
  | some l =>
    if inULongLong l.magnitude then
      some (if l.negative then (2 ^ 64 - l.magnitude) % 2 ^ 64 else l.magnitude, l.used)
    else none
  | none => none

/-! ## Reading back what `std::to_string` writes -/

theorem digitVal_digitChar {base d : Nat} (hb : base ≤ 10) (hd : d < base) :
    digitVal base d.digitChar = some d := by
  have h : d = 0 ∨ d = 1 ∨ d = 2 ∨ d = 3 ∨ d = 4 ∨ d = 5 ∨ d = 6 ∨ d = 7 ∨ d = 8 ∨ d = 9 := by
    omega
  rcases h with rfl | rfl | rfl | rfl | rfl | rfl | rfl | rfl | rfl | rfl <;>
    (have hv : ∀ v, v < base → (if v < base then some v else none) = some v :=
      fun v hv => if_pos hv
     exact hv _ hd)

theorem foldl_digits (base : Nat) (ds : List Nat) : ∀ acc : Nat,
    ds.foldl (fun acc d => acc * base + d) acc = acc * base ^ ds.length + digitsValue base ds := by
  induction ds with
  | nil => simp [digitsValue]
  | cons d ds ih =>
    intro acc
    simp only [digitsValue, List.foldl_cons, List.length_cons] at ih ⊢
    rw [ih, ih (0 * base + d)]
    ring

theorem digitsValue_append (base : Nat) (ds es : List Nat) :
    digitsValue base (ds ++ es) = digitsValue base ds * base ^ es.length + digitsValue base es := by
  rw [digitsValue, List.foldl_append, foldl_digits]
  rfl

theorem digitRun_snoc {base d : Nat} {cs : List Char} (hb : base ≤ 10) (hd : d < base)
    (h : ∀ c ∈ cs, (digitVal base c).isSome) :
    digitRun base (cs ++ [d.digitChar]) = digitRun base cs ++ [d] := by
  induction cs with
  | nil => simp [digitRun, digitVal_digitChar hb hd]
  | cons c cs ih =>
    obtain ⟨e, he⟩ := Option.isSome_iff_exists.mp (h c (by simp))
    have := ih (fun c hc => h c (by simp [hc]))
    simp [digitRun, he, this]

/-- A text of digits is one run. -/
theorem length_digitRun {base : Nat} {cs : List Char} (h : ∀ c ∈ cs, (digitVal base c).isSome) :
    (digitRun base cs).length = cs.length := by
  induction cs with
  | nil => rfl
  | cons c cs ih =>
    obtain ⟨d, hd⟩ := Option.isSome_iff_exists.mp (h c (by simp))
    simp [digitRun, hd, ih fun c hc => h c (by simp [hc])]

/-- The digits of `n` in base ten read back as `n`. -/
theorem toDigits_read (n : Nat) :
    (∀ c ∈ Nat.toDigits 10 n, (digitVal 10 c).isSome) ∧
      (digitRun 10 (Nat.toDigits 10 n)).length = (Nat.toDigits 10 n).length ∧
      digitsValue 10 (digitRun 10 (Nat.toDigits 10 n)) = n := by
  induction n using Nat.strongRecOn with
  | ind n ih =>
    by_cases hn : n < 10
    · rw [Nat.toDigits_of_lt_base hn]
      simp [digitRun, digitVal_digitChar (by omega : 10 ≤ 10) hn, digitsValue]
    · have hq : n / 10 < n := by omega
      have hr : n % 10 < 10 := by omega
      rw [Nat.toDigits_of_base_le (by omega) (by omega)]
      obtain ⟨ha, hl, hv⟩ := ih (n / 10) hq
      refine ⟨?_, ?_, ?_⟩
      · intro c hc
        rcases List.mem_append.mp hc with hc | hc
        · exact ha c hc
        · rw [List.mem_singleton.mp hc, digitVal_digitChar (by omega) hr]; rfl
      · rw [digitRun_snoc (by omega) hr ha]
        simp [hl]
      · rw [digitRun_snoc (by omega) hr ha, digitsValue_append, hv]
        simp [digitsValue]
        omega

theorem digitVal_none_of_isSpace {base : Nat} {c : Char} (h : isSpace c = true) :
    digitVal base c = none := by
  have hc : c.toNat = 32 ∨ c.toNat = 9 ∨ c.toNat = 10 ∨ c.toNat = 13 ∨ c.toNat = 11 ∨
      c.toNat = 12 := by
    simp only [isSpace, Bool.or_eq_true, beq_iff_eq] at h
    rcases h with ((((rfl | rfl) | rfl) | rfl) | h) | h
    · exact Or.inl rfl
    · exact Or.inr (Or.inl rfl)
    · exact Or.inr (Or.inr (Or.inl rfl))
    · exact Or.inr (Or.inr (Or.inr (Or.inl rfl)))
    · exact Or.inr (Or.inr (Or.inr (Or.inr (Or.inl h))))
    · exact Or.inr (Or.inr (Or.inr (Or.inr (Or.inr h))))
  have he : c = Char.ofNat c.toNat := (Char.ofNat_toNat c).symm
  rcases hc with hc | hc | hc | hc | hc | hc <;>
    (rw [he, hc]; exact if_neg (Nat.lt_irrefl base))

/-- A text that starts with a digit has no blank and no sign to skip. -/
theorem readLiteral_of_head {base : Nat} {c : Char} {cs : List Char}
    (hc : (digitVal base c).isSome) (hhex : hexPrefixLength base (c :: cs) = 0) :
    readLiteral base (c :: cs) = some ⟨false, digitsValue base (digitRun base (c :: cs)),
      (digitRun base (c :: cs)).length⟩ := by
  have hsp : isSpace c = false := by
    cases hs : isSpace c with
    | false => rfl
    | true => rw [digitVal_none_of_isSpace hs] at hc; cases hc
  have hsignless {d : Char} (hd : digitVal base d = none) : c ≠ d := by
    rintro rfl
    rw [hd] at hc
    cases hc
  have hsign : splitSign (c :: cs) = (false, 0, c :: cs) := by
    unfold splitSign
    split
    · rename_i heq; cases heq; exact absurd rfl (hsignless (if_neg (Nat.lt_irrefl base)))
    · rename_i heq; cases heq; exact absurd rfl (hsignless (if_neg (Nat.lt_irrefl base)))
    · rfl
  have hnil : (digitRun base (c :: cs)).isEmpty = false := by
    obtain ⟨d, hd⟩ := Option.isSome_iff_exists.mp hc
    simp [digitRun, hd]
  simp only [readLiteral, List.takeWhile_cons, hsp, Bool.false_eq_true, if_false,
    List.length_nil, List.drop_zero, hsign, hhex, hnil, Nat.zero_add]

theorem hexPrefixLength_of_base {base : Nat} (h : base ≠ 16) (cs : List Char) :
    hexPrefixLength base cs = 0 := by
  unfold hexPrefixLength
  split <;> simp [h]

theorem readLiteral_of_digits {cs : List Char} (hne : cs ≠ [])
    (h : ∀ c ∈ cs, (digitVal 10 c).isSome) :
    readLiteral 10 cs = some ⟨false, digitsValue 10 (digitRun 10 cs), cs.length⟩ := by
  cases cs with
  | nil => exact absurd rfl hne
  | cons c cs =>
    rw [readLiteral_of_head (h c (by simp)) (hexPrefixLength_of_base (by decide) _),
      length_digitRun h]

theorem readLiteral_toDigits (n : Nat) : readLiteral 10 (Nat.toDigits 10 n) =
    some ⟨false, n, (Nat.toDigits 10 n).length⟩ := by
  obtain ⟨ha, -, hv⟩ := toDigits_read n
  rw [readLiteral_of_digits Nat.toDigits_ne_nil ha, hv]

theorem readLiteral_neg_of_digits {cs : List Char} (hne : cs ≠ [])
    (h : ∀ c ∈ cs, (digitVal 10 c).isSome) :
    readLiteral 10 ('-' :: cs) = some ⟨true, digitsValue 10 (digitRun 10 cs), cs.length + 1⟩ := by
  have hl := length_digitRun h
  have hsp : isSpace '-' = false := by decide
  have hhex : hexPrefixLength 10 cs = 0 := hexPrefixLength_of_base (by decide) _
  have hnil : (digitRun 10 cs).isEmpty = false := by
    cases hr : digitRun 10 cs with
    | nil => rw [hr] at hl; exact absurd (List.length_eq_zero_iff.mp hl.symm) hne
    | cons _ _ => rfl
  simp only [readLiteral, List.takeWhile_cons, hsp, Bool.false_eq_true, if_false,
    List.length_nil, List.drop_zero, splitSign, hhex, hnil, hl, Nat.zero_add, Nat.add_comm 1]

theorem readLiteral_neg_toDigits (n : Nat) : readLiteral 10 ('-' :: Nat.toDigits 10 n) =
    some ⟨true, n, (Nat.toDigits 10 n).length + 1⟩ := by
  obtain ⟨ha, -, hv⟩ := toDigits_read n
  rw [readLiteral_neg_of_digits Nat.toDigits_ne_nil ha, hv]

theorem toList_toString_nat (n : Nat) : (toString n).toList = Nat.toDigits 10 n := by
  rw [Nat.toString_eq_ofList_toDigits, String.toList_ofList]

theorem length_toString_nat (n : Nat) : (toString n).length = (Nat.toDigits 10 n).length := by
  rw [← String.length_toList, toList_toString_nat]

theorem toString_nat_inj {m n : Nat} (h : toString m = toString n) : m = n := by
  have := congrArg (fun s => readLiteral 10 s.toList) h
  simp only [toList_toString_nat, readLiteral_toDigits] at this
  exact (Literal.mk.inj (Option.some.inj this)).2.1

/-- A text with a character that is no digit is not a decimal number. -/
theorem toString_nat_ne {text : String} {c : Char} (hc : c ∈ text.toList)
    (hd : digitVal 10 c = none) (n : Nat) : toString n ≠ text := by
  rintro rfl
  rw [toList_toString_nat] at hc
  have := (toDigits_read n).1 c hc
  rw [hd] at this
  cases this

theorem toList_toString_neg (n : Nat) :
    (toString (Int.negSucc n)).toList = '-' :: Nat.toDigits 10 (n + 1) := by
  have : toString (Int.negSucc n) = "-" ++ toString (n + 1) := rfl
  rw [this, String.toList_append, toList_toString_nat]
  rfl

/-- A letter that is no digit is in no printed number. -/
theorem not_mem_toDigits {c : Char} (hc : c.isDigit = false) (n : Nat) :
    c ∉ Nat.toDigits 10 n := by
  intro hmem
  rw [Nat.isDigit_of_mem_toDigits (by omega) (by omega) hmem] at hc
  cases hc

/-- One that is no minus either is in no printed integer. -/
theorem not_mem_toString_int {c : Char} (hc : c.isDigit = false) (hminus : c ≠ '-') (value : Int) :
    c ∉ (toString value).toList := by
  cases value with
  | ofNat n =>
    have hstring : toString (Int.ofNat n) = toString n := rfl
    rw [hstring, toList_toString_nat]
    exact not_mem_toDigits hc n
  | negSucc n =>
    rw [toList_toString_neg, List.mem_cons, not_or]
    exact ⟨hminus, not_mem_toDigits hc _⟩

theorem toString_int_inj {a b : Int} (h : toString a = toString b) : a = b := by
  have hl := congrArg (fun s => readLiteral 10 s.toList) h
  cases a with
  | ofNat m =>
    have hm : toString (Int.ofNat m) = toString m := rfl
    cases b with
    | ofNat n => rw [toString_nat_inj (h : toString m = toString n)]
    | negSucc n =>
      simp only [hm, toList_toString_nat, toList_toString_neg, readLiteral_toDigits,
        readLiteral_neg_toDigits] at hl
      cases Option.some.inj hl
  | negSucc m =>
    cases b with
    | ofNat n =>
      have hn : toString (Int.ofNat n) = toString n := rfl
      simp only [hn, toList_toString_nat, toList_toString_neg, readLiteral_toDigits,
        readLiteral_neg_toDigits] at hl
      cases Option.some.inj hl
    | negSucc n =>
      simp only [toList_toString_neg, readLiteral_neg_toDigits] at hl
      have := (Literal.mk.inj (Option.some.inj hl)).2.1
      rw [show m = n by omega]

/-- `std::stoll` reads back what `std::to_string` writes. -/
theorem stoll_toString {n : Nat} (hn : n < 2 ^ 63) :
    stoll (toString n) = some ((n : Int), (toString n).length) := by
  have hr : inLongLong (n : Int) = true := by
    simp only [inLongLong, Bool.and_eq_true, decide_eq_true_eq]
    omega
  simp only [stoll, toList_toString_nat, readLiteral_toDigits, Bool.false_eq_true, if_false, hr,
    if_true, length_toString_nat]

end ParseX.Cpp

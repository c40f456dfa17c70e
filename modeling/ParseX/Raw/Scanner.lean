import ParseX.Raw.Encoding

/-! # Skipping declarations

How the loader's scanner passes a declaration: `'>'` ends it where no quote and no bracket
is open. Where it throws there is no position. -/
namespace ParseX.Loader
open Cpp

def quoteMark : UInt8 := '"'.toUInt8
def apostrophe : UInt8 := '\''.toUInt8
def openBracket : UInt8 := '['.toUInt8
def closeBracket : UInt8 := ']'.toUInt8
def greaterThan : UInt8 := '>'.toUInt8

/-- The loop of `skipQuoted`. -/
def quotedEnd (bytes : Bytes) (encoding : RawEncodingClass) (quote : Option UInt8) (scanPos : Nat) :
    Option Nat :=
  if scanPos < bytes.length then
    if unitAscii bytes encoding scanPos = quote then some (scanPos + unitWidth encoding)
    else quotedEnd bytes encoding quote (scanPos + unitWidth encoding)
  else none
termination_by bytes.length - scanPos
decreasing_by
  have := unitWidth_pos encoding
  omega

/-- `skipQuoted`: past the value whose opening quote stands at a place. -/
def skipQuoted (bytes : Bytes) (encoding : RawEncodingClass) (quotePos : Nat) : Option Nat :=
  quotedEnd bytes encoding (unitAscii bytes encoding quotePos) (quotePos + unitWidth encoding)

theorem lt_quotedEnd {bytes : Bytes} {encoding : RawEncodingClass} {quote : Option UInt8}
    {scanPos next : Nat} (h : quotedEnd bytes encoding quote scanPos = some next) :
    scanPos < next := by
  have hwidth := unitWidth_pos encoding
  fun_induction quotedEnd bytes encoding quote scanPos with
  | case1 scanPos _ _ =>
    have := Option.some.inj h
    omega
  | case2 scanPos _ _ ih =>
    have := ih h
    omega
  | case3 => cases h

/-- The loop of `skipDeclaration`. -/
def declarationEnd (bytes : Bytes) (encoding : RawEncodingClass) (depth : Int) (scanPos : Nat) :
    Option Nat :=
  if scanPos < bytes.length then
    let code := unitAscii bytes encoding scanPos
    if code = some quoteMark ∨ code = some apostrophe then
      match _hnext : skipQuoted bytes encoding scanPos with
      | some next => declarationEnd bytes encoding depth next
      | none => none
    else if code = some openBracket then
      declarationEnd bytes encoding (depth + 1) (scanPos + unitWidth encoding)
    else if code = some closeBracket then
      declarationEnd bytes encoding (depth - 1) (scanPos + unitWidth encoding)
    else if code = some greaterThan ∧ depth = 0 then some (scanPos + unitWidth encoding)
    else declarationEnd bytes encoding depth (scanPos + unitWidth encoding)
  else none
termination_by bytes.length - scanPos
decreasing_by
  · have := lt_quotedEnd _hnext
    omega
  all_goals
    have := unitWidth_pos encoding
    omega

/-- `skipDeclaration`: past the declaration that opens at a place. -/
def skipDeclaration (bytes : Bytes) (encoding : RawEncodingClass) (openPos : Nat) : Option Nat :=
  declarationEnd bytes encoding 0 (openPos + unitWidth encoding)

/-! ## The scan over codes -/

/-- How many units a declaration still has, from the codes of those to come: with the quote
that is open, if one is, and the number of brackets. -/
def declarationUnits : Option UInt8 → Int → List (Option UInt8) → Option Nat
  | _, _, [] => none
  | some quote, depth, code :: codes =>
    (declarationUnits (if code = some quote then none else some quote) depth codes).map (· + 1)
  | none, depth, code :: codes =>
    if code = some quoteMark ∨ code = some apostrophe then
      (declarationUnits code depth codes).map (· + 1)
    else if code = some openBracket then (declarationUnits none (depth + 1) codes).map (· + 1)
    else if code = some closeBracket then (declarationUnits none (depth - 1) codes).map (· + 1)
    else if code = some greaterThan ∧ depth = 0 then some 1
    else (declarationUnits none depth codes).map (· + 1)

theorem declarationUnits_pos {quote : Option UInt8} {depth : Int} {codes : List (Option UInt8)}
    {units : Nat} (h : declarationUnits quote depth codes = some units) : 0 < units := by
  cases codes with
  | nil => cases quote <;> cases h
  | cons code codes =>
    have hmap {later : Option Nat} (h : later.map (· + 1) = some units) : 0 < units := by
      obtain ⟨count, -, rfl⟩ := Option.map_eq_some_iff.mp h
      exact Nat.succ_pos count
    cases quote with
    | some quote => exact hmap h
    | none =>
      rw [declarationUnits] at h
      split at h
      · exact hmap h
      · split at h
        · exact hmap h
        · split at h
          · exact hmap h
          · split at h
            · rw [← Option.some.inj h]
              exact Nat.one_pos
            · exact hmap h

section
variable {bytes : Bytes} {encoding : RawEncodingClass}

/-- The place after so many units. -/
def placeAfter (encoding : RawEncodingClass) (scanPos units : Nat) : Nat :=
  scanPos + units * unitWidth encoding

theorem map_placeAfter_succ (scanPos : Nat) (units : Option Nat) :
    (units.map (· + 1)).map (placeAfter encoding scanPos) =
      units.map (placeAfter encoding (scanPos + unitWidth encoding)) := by
  rw [Option.map_map]
  congr 1
  funext count
  rw [Function.comp_apply, placeAfter, placeAfter, Nat.succ_mul]
  omega

/-- A quoted value is passed as a whole. -/
theorem declarationEnd_quoted {depth : Int} {scanPos : Nat} (hlt : scanPos < bytes.length)
    (hcode : unitAscii bytes encoding scanPos = some quoteMark ∨
      unitAscii bytes encoding scanPos = some apostrophe) :
    declarationEnd bytes encoding depth scanPos =
      (skipQuoted bytes encoding scanPos).bind (declarationEnd bytes encoding depth) := by
  rw [declarationEnd, if_pos hlt]
  dsimp only
  rw [if_pos hcode]
  split
  · rename_i hnext
    rw [hnext, Option.bind_some]
  · rename_i hnext
    rw [hnext, Option.bind_none]

/-- The loops end where the codes from their place on say. -/
theorem loops_codes (bound : Nat) : ∀ scanPos, bytes.length - scanPos ≤ bound →
    (∀ depth, declarationEnd bytes encoding depth scanPos =
      (declarationUnits none depth (codes encoding (bytes.drop scanPos))).map
        (placeAfter encoding scanPos)) ∧
    ∀ quote depth, (quotedEnd bytes encoding (some quote) scanPos).bind
        (declarationEnd bytes encoding depth) =
      (declarationUnits (some quote) depth (codes encoding (bytes.drop scanPos))).map
        (placeAfter encoding scanPos) := by
  have hwidth := unitWidth_pos encoding
  induction bound with
  | zero =>
    intro scanPos hbound
    rw [codes_drop_of_le (by omega)]
    refine ⟨fun depth => ?_, fun quote depth => ?_⟩
    · rw [declarationEnd, if_neg (by omega)]
      rfl
    · rw [quotedEnd, if_neg (by omega)]
      rfl
  | succ bound ih =>
    intro scanPos hbound
    by_cases hlt : scanPos < bytes.length
    · obtain ⟨hplain, hquoted⟩ := ih (scanPos + unitWidth encoding) (by omega)
      rw [codes_drop hlt]
      refine ⟨fun depth => ?_, fun quote depth => ?_⟩
      · rw [declarationUnits]
        by_cases hquote : unitAscii bytes encoding scanPos = some quoteMark ∨
            unitAscii bytes encoding scanPos = some apostrophe
        · obtain ⟨quote, hcode⟩ : ∃ quote, unitAscii bytes encoding scanPos = some quote := by
            rcases hquote with h | h
            · exact ⟨_, h⟩
            · exact ⟨_, h⟩
          rw [declarationEnd_quoted hlt hquote, if_pos hquote, skipQuoted, hcode, hquoted,
            map_placeAfter_succ]
        · rw [declarationEnd, if_pos hlt, if_neg hquote, if_neg hquote]
          split
          · rw [map_placeAfter_succ, hplain]
          · split
            · rw [map_placeAfter_succ, hplain]
            · split
              · simp [placeAfter]
              · rw [map_placeAfter_succ, hplain]
      · rw [quotedEnd, if_pos hlt, declarationUnits, map_placeAfter_succ]
        split
        · exact hplain depth
        · exact hquoted quote depth
    · rw [codes_drop_of_le (by omega)]
      refine ⟨fun depth => ?_, fun quote depth => ?_⟩
      · rw [declarationEnd, if_neg hlt]
        rfl
      · rw [quotedEnd, if_neg hlt]
        rfl

theorem skipDeclaration_codes (openPos : Nat) : skipDeclaration bytes encoding openPos =
    (declarationUnits none 0 (codes encoding (bytes.drop (openPos + unitWidth encoding)))).map
      (placeAfter encoding (openPos + unitWidth encoding)) :=
  (loops_codes _ _ (Nat.le_refl _)).1 0

end

end ParseX.Loader

import ParseX.Raw.Scanner

/-! # Scanning for tags

How the loader's scanner finds the next tag in the raw bytes: it passes text, comments,
processing instructions, CDATA sections and declarations. Where it throws there is no position. -/
namespace ParseX.Loader
open Cpp

def unitIs (bytes : Bytes) (encoding : RawEncodingClass) (scanPos : Nat) (expected : Char) : Bool :=
  unitAscii bytes encoding scanPos == some expected.toUInt8

def unitIsSpace (bytes : Bytes) (encoding : RawEncodingClass) (scanPos : Nat) : Bool :=
  unitIs bytes encoding scanPos ' ' || unitIs bytes encoding scanPos '\t' ||
    unitIs bytes encoding scanPos '\r' || unitIs bytes encoding scanPos '\n'

def matchLiteral (bytes : Bytes) (encoding : RawEncodingClass) (scanPos : Nat) : List Char → Bool
  | [] => true
  | expected :: literal => unitIs bytes encoding scanPos expected &&
      matchLiteral bytes encoding (scanPos + unitWidth encoding) literal

/-- `requireAsciiName`, false where it throws. A name that passes has a byte for each letter. -/
def requireAsciiName (tagName : String) : Bool := tagName.toList.all fun letter => letter.toNat < 0x80

/-- `skipDelimited`: past the first terminator from a place on. -/
def skipDelimited (bytes : Bytes) (encoding : RawEncodingClass) (terminator : List Char)
    (scanPos : Nat) : Option Nat :=
  if scanPos < bytes.length then
    if matchLiteral bytes encoding scanPos terminator then
      some (scanPos + terminator.length * unitWidth encoding)
    else skipDelimited bytes encoding terminator (scanPos + unitWidth encoding)
  else none
termination_by bytes.length - scanPos
decreasing_by
  have := unitWidth_pos encoding
  omega

/-- `skipSpecialUnit`: past a comment, a processing instruction, a CDATA section or a declaration;
`some none` where none of these opens. -/
def skipSpecialUnit (bytes : Bytes) (encoding : RawEncodingClass) (openPos : Nat) :
    Option (Option Nat) :=
  if unitIs bytes encoding (openPos + unitWidth encoding) '?' then
    (skipDelimited bytes encoding ['?', '>'] openPos).map some
  else if !unitIs bytes encoding (openPos + unitWidth encoding) '!' then some none
  else if matchLiteral bytes encoding openPos ['<', '!', '-', '-'] then
    (skipDelimited bytes encoding ['-', '-', '>'] openPos).map some
  else if matchLiteral bytes encoding openPos ['<', '!', '[', 'C', 'D', 'A', 'T', 'A', '['] then
    (skipDelimited bytes encoding [']', ']', '>'] openPos).map some
  else (skipDeclaration bytes encoding openPos).map some

section
variable {bytes : Bytes} {encoding : RawEncodingClass}

theorem lt_skipDelimited {terminator : List Char} {scanPos next : Nat} (hne : terminator ≠ [])
    (h : skipDelimited bytes encoding terminator scanPos = some next) : scanPos < next := by
  have hwidth := unitWidth_pos encoding
  fun_induction skipDelimited bytes encoding terminator scanPos with
  | case1 scanPos _ _ =>
    have hpos : 0 < terminator.length * unitWidth encoding :=
      Nat.mul_pos (List.length_pos_of_ne_nil hne) hwidth
    have := Option.some.inj h
    omega
  | case2 scanPos _ _ ih =>
    have := ih h
    omega
  | case3 => cases h

theorem lt_skipDeclaration {openPos next : Nat}
    (h : skipDeclaration bytes encoding openPos = some next) : openPos < next := by
  rw [skipDeclaration_codes] at h
  obtain ⟨units, -, rfl⟩ := Option.map_eq_some_iff.mp h
  have hwidth := unitWidth_pos encoding
  have : placeAfter encoding (openPos + unitWidth encoding) units =
      openPos + unitWidth encoding + units * unitWidth encoding := rfl
  omega

theorem map_some_iff {found : Option Nat} {next : Nat} :
    found.map some = some (some next) ↔ found = some next := by
  cases found with
  | none => exact iff_of_false (fun h => by cases h) (fun h => by cases h)
  | some place => rw [Option.map_some, Option.some_inj]

theorem lt_skipSpecialUnit {openPos next : Nat}
    (h : skipSpecialUnit bytes encoding openPos = some (some next)) : openPos < next := by
  rw [skipSpecialUnit] at h
  split at h
  · exact lt_skipDelimited (List.cons_ne_nil _ _) (map_some_iff.mp h)
  · split at h
    · cases Option.some.inj h
    · split at h
      · exact lt_skipDelimited (List.cons_ne_nil _ _) (map_some_iff.mp h)
      · split at h
        · exact lt_skipDelimited (List.cons_ne_nil _ _) (map_some_iff.mp h)
        · exact lt_skipDeclaration (map_some_iff.mp h)

end

/-- The loop that `scanStartTag` and `scanEndTag` open with: the next `'<'` of a tag. -/
def nextMarkup (bytes : Bytes) (encoding : RawEncodingClass) (scanPos : Nat) : Option Nat :=
  if scanPos < bytes.length then
    if !unitIs bytes encoding scanPos '<' then
      nextMarkup bytes encoding (scanPos + unitWidth encoding)
    else
      match _hskipped : skipSpecialUnit bytes encoding scanPos with
      | none => none
      | some none => some scanPos
      | some (some skippedPos) => nextMarkup bytes encoding skippedPos
  else none
termination_by bytes.length - scanPos
decreasing_by
  · have := unitWidth_pos encoding
    omega
  · have := lt_skipSpecialUnit _hskipped
    omega

/-! ## Start tags -/

structure StartTagBounds where
  openPos : Nat
  tagEndPos : Nat
  selfClosed : Bool
  deriving DecidableEq, Repr

/-- The inner loop of `scanStartTag`: past the first `'>'` outside quotes, and whether a `'/'`
stands before it. -/
def tagEnd (bytes : Bytes) (encoding : RawEncodingClass) (tagPos : Nat) : Option (Nat × Bool) :=
  if tagPos < bytes.length then
    if unitIs bytes encoding tagPos '"' || unitIs bytes encoding tagPos '\'' then
      match _hnext : skipQuoted bytes encoding tagPos with
      | some next => tagEnd bytes encoding next
      | none => none
    else if unitIs bytes encoding tagPos '>' then some (tagPos + unitWidth encoding, false)
    else if unitIs bytes encoding tagPos '/' && unitIs bytes encoding (tagPos + unitWidth encoding) '>' then
      some (tagPos + 2 * unitWidth encoding, true)
    else tagEnd bytes encoding (tagPos + unitWidth encoding)
  else none
termination_by bytes.length - tagPos
decreasing_by
  · have := lt_quotedEnd _hnext
    omega
  · have := unitWidth_pos encoding
    omega

def scanStartTag (bytes : Bytes) (encoding : RawEncodingClass) (cursor : Nat) (tagName : String) :
    Option StartTagBounds := do
  guard (requireAsciiName tagName)
  let scanPos ← nextMarkup bytes encoding cursor
  guard (!unitIs bytes encoding (scanPos + unitWidth encoding) '/')
  let namePos := scanPos + unitWidth encoding
  guard (matchLiteral bytes encoding namePos tagName.toList)
  let afterName := namePos + tagName.toList.length * unitWidth encoding
  guard (unitIsSpace bytes encoding afterName || unitIs bytes encoding afterName '/' ||
    unitIs bytes encoding afterName '>')
  let (tagEndPos, selfClosed) ← tagEnd bytes encoding afterName
  return ⟨scanPos, tagEndPos, selfClosed⟩

/-! ## End tags -/

/-- The inner loop of `scanEndTag`: past white space. -/
def pastSpace (bytes : Bytes) (encoding : RawEncodingClass) (tagPos : Nat) : Nat :=
  if tagPos < bytes.length && unitIsSpace bytes encoding tagPos then
    pastSpace bytes encoding (tagPos + unitWidth encoding)
  else tagPos
termination_by bytes.length - tagPos
decreasing_by
  have := unitWidth_pos encoding
  simp only [Bool.and_eq_true, decide_eq_true_eq] at *
  omega

def scanEndTag (bytes : Bytes) (encoding : RawEncodingClass) (cursor : Nat) (tagName : String) :
    Option Nat := do
  guard (requireAsciiName tagName)
  let scanPos ← nextMarkup bytes encoding cursor
  let namePos := scanPos + unitWidth encoding
  guard (unitIs bytes encoding namePos '/')
  let afterSlash := namePos + unitWidth encoding
  guard (matchLiteral bytes encoding afterSlash tagName.toList)
  let tagPos := pastSpace bytes encoding (afterSlash + tagName.toList.length * unitWidth encoding)
  guard (unitIs bytes encoding tagPos '>')
  return tagPos + unitWidth encoding

/-- One more than the line feeds among the units before an offset. -/
def lineNumberAt (bytes : Bytes) (encoding : RawEncodingClass) (offset : Nat) : Nat :=
  (codes encoding (bytes.take offset)).count (some 0x0A) + 1

end ParseX.Loader

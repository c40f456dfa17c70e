import Mathlib.Data.List.Basic
import Mathlib.Data.String.Basic

/-! # Tokens of a DBC text

Words, string literals with backslash escapes and single marks, line by line. A
string literal may hold any character, line breaks included. -/
namespace ParseX.Dbc

inductive Token where
  | word (letters : String)
  | text (content : String)
  | mark (symbol : Char)
  deriving DecidableEq, Repr

/-- Where the lexer is; the characters of the token so far. -/
inductive Place where
  | blank
  | word (letters : List Char)
  | text (content : List Char)
  /-- After a backslash in a string literal. -/
  | escape (content : List Char)
  deriving DecidableEq, Repr

structure Lexer where
  place : Place := .blank
  /-- The tokens of the line so far. -/
  line : List Token := []
  /-- The lines that ended. -/
  lines : List (List Token) := []
  deriving DecidableEq, Repr

/-- Names and numbers are words. -/
def isWordChar (c : Char) : Bool := c.isAlphanum || c == '_' || c == '.' || c == '+' || c == '-'

/-- A character outside words and literals. -/
def between (line : List Token) (lines : List (List Token)) (c : Char) : Lexer :=
  if isWordChar c then ⟨.word [c], line, lines⟩
  else if c = '"' then ⟨.text [], line, lines⟩
  else if c = '\n' then ⟨.blank, [], lines ++ [line]⟩
  else if c = ' ' ∨ c = '\t' ∨ c = '\r' then ⟨.blank, line, lines⟩
  else ⟨.blank, line ++ [.mark c], lines⟩

def step (lexer : Lexer) (c : Char) : Lexer :=
  match lexer.place with
  | .blank => between lexer.line lexer.lines c
  | .word letters =>
    if isWordChar c then { lexer with
      place := .word (letters ++ [c]) }
    else between (lexer.line ++ [.word (String.ofList letters)]) lexer.lines c
  | .text content =>
    if c = '\\' then { lexer with
      place := .escape content }
    else if c = '"' then ⟨.blank, lexer.line ++ [.text (String.ofList content)], lexer.lines⟩
    else { lexer with
      place := .text (content ++ [c]) }
  | .escape content => { lexer with
      place := .text (content ++ [c]) }

/-- The lines at the end of the text; the last one may lack its line break. -/
def finish (lexer : Lexer) : Option (List (List Token)) :=
  match lexer.place with
  | .blank => some (if lexer.line = [] then lexer.lines else lexer.lines ++ [lexer.line])
  | .word letters => some (lexer.lines ++ [lexer.line ++ [.word (String.ofList letters)]])
  | .text _ => none
  | .escape _ => none

/-- The lines of a text; `none` when a literal does not end. -/
def lex (text : String) : Option (List (List Token)) := finish (text.toList.foldl step {})

/-! ## Pieces of a line -/

/-- What a line is written of. -/
inductive Piece where
  | word (letters : String)
  | text (content : String)
  | mark (symbol : Char)
  | gap
  | tab
  deriving DecidableEq, Repr

/-- The characters of a string literal between its quotes. -/
def escaped (content : List Char) : List Char :=
  content.flatMap fun c => if c = '"' ∨ c = '\\' then ['\\', c] else [c]

def Piece.letters : Piece → List Char
  | .word letters => letters.toList
  | .text content => '"' :: escaped content.toList ++ ['"']
  | .mark symbol => [symbol]
  | .gap => [' ']
  | .tab => ['\t']

def Piece.token : Piece → Option Token
  | .word letters => some (.word letters)
  | .text content => some (.text content)
  | .mark symbol => some (.mark symbol)
  | .gap => none
  | .tab => none

/-- The characters of a line. -/
def lettersOf (pieces : List Piece) : List Char := pieces.flatMap Piece.letters

/-- The tokens of a line. -/
def tokensOf (pieces : List Piece) : List Token := pieces.filterMap Piece.token

@[simp] theorem tokensOf_append (front back : List Piece) :
    tokensOf (front ++ back) = tokensOf front ++ tokensOf back := List.filterMap_append

@[simp] theorem lettersOf_append (front back : List Piece) :
    lettersOf (front ++ back) = lettersOf front ++ lettersOf back := List.flatMap_append

theorem lettersOf_cons (piece : Piece) (pieces : List Piece) :
    lettersOf (piece :: pieces) = piece.letters ++ lettersOf pieces := List.flatMap_cons

/-- A nonempty run of word characters. -/
def IsWord (letters : String) : Prop := letters ≠ "" ∧ ∀ c ∈ letters.toList, isWordChar c = true

/-- A character that is a token of its own. -/
def isMark (c : Char) : Bool :=
  !isWordChar c && c != '"' && c != '\n' && c != ' ' && c != '\t' && c != '\r'

def startsWord : List Piece → Bool
  | .word _ :: _ => true
  | _ => false

/-- No two words stand side by side. -/
def WellSpaced : List Piece → Prop
  | [] => True
  | .word letters :: rest => IsWord letters ∧ startsWord rest = false ∧ WellSpaced rest
  | .mark symbol :: rest => isMark symbol = true ∧ WellSpaced rest
  | _ :: rest => WellSpaced rest

section
variable {line : List Token} {lines : List (List Token)}

theorem step_gap : step ⟨.blank, line, lines⟩ ' ' = ⟨.blank, line, lines⟩ := rfl

theorem step_tab : step ⟨.blank, line, lines⟩ '\t' = ⟨.blank, line, lines⟩ := rfl

theorem step_newline : step ⟨.blank, line, lines⟩ '\n' = ⟨.blank, [], lines ++ [line]⟩ := rfl

theorem step_mark {c : Char} (h : isMark c = true) :
    step ⟨.blank, line, lines⟩ c = ⟨.blank, line ++ [.mark c], lines⟩ := by
  simp only [isMark, Bool.and_eq_true, Bool.not_eq_true', bne_iff_ne] at h
  obtain ⟨⟨⟨⟨⟨hword, hquote⟩, hbreak⟩, hgap⟩, htab⟩, hreturn⟩ := h
  simp [step, between, hword, hquote, hbreak, hgap, htab, hreturn]

theorem foldl_word (letters : List Char) (h : ∀ c ∈ letters, isWordChar c = true) :
    ∀ front : List Char, letters.foldl step ⟨.word front, line, lines⟩ =
      ⟨.word (front ++ letters), line, lines⟩ := by
  induction letters with
  | nil => intro front; simp
  | cons c letters ih =>
    obtain ⟨hc, hletters⟩ := List.forall_mem_cons.mp h
    intro front
    have hstep : step ⟨.word front, line, lines⟩ c = ⟨.word (front ++ [c]), line, lines⟩ := by
      simp [step, hc]
    rw [List.foldl_cons, hstep, ih hletters, List.append_assoc]
    rfl

/-- A word ends where another character follows. -/
theorem foldl_isWord {letters : String} (h : IsWord letters) {c : Char}
    (hc : isWordChar c = false) (rest : List Char) :
    (letters.toList ++ c :: rest).foldl step ⟨.blank, line, lines⟩ =
      (c :: rest).foldl step ⟨.blank, line ++ [.word letters], lines⟩ := by
  obtain ⟨hne, hall⟩ := h
  cases hletters : letters.toList with
  | nil => exact absurd (String.toList_inj.mp hletters) hne
  | cons d ds =>
    rw [hletters] at hall
    obtain ⟨hd, hds⟩ := List.forall_mem_cons.mp hall
    have hfirst : step ⟨.blank, line, lines⟩ d = ⟨.word [d], line, lines⟩ := by
      simp [step, between, hd]
    have hlast : step ⟨.word (d :: ds), line, lines⟩ c =
        step ⟨.blank, line ++ [.word letters], lines⟩ c := by
      have hword : String.ofList (d :: ds) = letters := by
        rw [← hletters, String.ofList_toList]
      simp [step, hc, hword]
    have hrun : (d :: ds).foldl step ⟨.blank, line, lines⟩ = ⟨.word (d :: ds), line, lines⟩ := by
      rw [List.foldl_cons, hfirst, foldl_word ds hds, List.singleton_append]
    rw [List.foldl_append, hrun, List.foldl_cons, hlast, List.foldl_cons]

theorem foldl_escaped (content : List Char) : ∀ front : List Char,
    (escaped content).foldl step ⟨.text front, line, lines⟩ =
      ⟨.text (front ++ content), line, lines⟩ := by
  induction content with
  | nil => intro front; simp [escaped]
  | cons c content ih =>
    intro front
    have hone : (if c = '"' ∨ c = '\\' then ['\\', c] else [c]).foldl step
        ⟨.text front, line, lines⟩ = ⟨.text (front ++ [c]), line, lines⟩ := by
      by_cases hc : c = '"' ∨ c = '\\'
      · rw [if_pos hc]
        rfl
      · obtain ⟨hquote, hslash⟩ := not_or.mp hc
        simp [step, hquote, hslash]
    rw [escaped, List.flatMap_cons, List.foldl_append, hone, ← escaped, ih, List.append_assoc]
    rfl

theorem foldl_text (content : String) :
    (Piece.text content).letters.foldl step ⟨.blank, line, lines⟩ =
      ⟨.blank, line ++ [.text content], lines⟩ := by
  have hopen : step ⟨.blank, line, lines⟩ '"' = ⟨.text [], line, lines⟩ := rfl
  rw [Piece.letters, List.cons_append, List.foldl_cons, hopen, List.foldl_append, foldl_escaped]
  simp [step]

theorem head_letters {piece : Piece} {pieces : List Piece}
    (h : startsWord (piece :: pieces) = false) (hspaced : WellSpaced (piece :: pieces)) :
    ∃ c rest, piece.letters = c :: rest ∧ isWordChar c = false := by
  cases piece with
  | word letters => cases h
  | text content => exact ⟨'"', _, rfl, rfl⟩
  | mark symbol =>
    refine ⟨symbol, [], rfl, ?_⟩
    obtain ⟨hmark, -⟩ := hspaced
    simp only [isMark, Bool.and_eq_true, Bool.not_eq_true'] at hmark
    exact hmark.1.1.1.1.1
  | gap => exact ⟨' ', [], rfl, rfl⟩
  | tab => exact ⟨'\t', [], rfl, rfl⟩

/-- A well spaced line reads as its tokens. -/
theorem foldl_pieces {pieces : List Piece} (h : WellSpaced pieces) (rest : List Char) :
    ∀ line : List Token, (lettersOf pieces ++ '\n' :: rest).foldl step ⟨.blank, line, lines⟩ =
      rest.foldl step ⟨.blank, [], lines ++ [line ++ tokensOf pieces]⟩ := by
  induction pieces with
  | nil => intro line; simp [lettersOf, tokensOf, step_newline]
  | cons piece pieces ih =>
    intro line
    have hcons : lettersOf (piece :: pieces) ++ '\n' :: rest =
        piece.letters ++ (lettersOf pieces ++ '\n' :: rest) := by
      rw [lettersOf, List.flatMap_cons, List.append_assoc, ← lettersOf]
    rw [hcons]
    cases piece with
    | word letters =>
      obtain ⟨hword, hnext, hrest⟩ := h
      have hmore : ∃ c more, lettersOf pieces ++ '\n' :: rest = c :: more ∧
          isWordChar c = false := by
        cases pieces with
        | nil => exact ⟨'\n', rest, rfl, rfl⟩
        | cons next pieces =>
          obtain ⟨c, more, hletters, hc⟩ := head_letters hnext hrest
          refine ⟨c, more ++ (lettersOf pieces ++ '\n' :: rest), ?_, hc⟩
          rw [lettersOf, List.flatMap_cons, hletters, ← lettersOf]
          simp
      obtain ⟨c, more, hmore, hc⟩ := hmore
      rw [hmore, Piece.letters, foldl_isWord hword hc, ← hmore, ih hrest]
      simp [tokensOf, Piece.token]
    | text content =>
      rw [List.foldl_append, foldl_text, ih h]
      simp [tokensOf, Piece.token]
    | mark symbol =>
      obtain ⟨hmark, hrest⟩ := h
      rw [List.foldl_append, Piece.letters, List.foldl_cons, step_mark hmark, List.foldl_nil,
        ih hrest]
      simp [tokensOf, Piece.token]
    | gap =>
      rw [List.foldl_append, Piece.letters, List.foldl_cons, step_gap, List.foldl_nil, ih h]
      rfl
    | tab =>
      rw [List.foldl_append, Piece.letters, List.foldl_cons, step_tab, List.foldl_nil, ih h]
      rfl

end

/-- The characters of lines, a line break after each. -/
def lettersOfLines (lines : List (List Piece)) : List Char :=
  lines.flatMap fun pieces => lettersOf pieces ++ ['\n']

/-- Well spaced lines read as their tokens. -/
theorem lex_lines {lines : List (List Piece)} {text : String}
    (htext : text.toList = lettersOfLines lines) (h : ∀ pieces ∈ lines, WellSpaced pieces) :
    lex text = some (lines.map tokensOf) := by
  have hfold : ∀ done : List (List Token), (lettersOfLines lines).foldl step ⟨.blank, [], done⟩ =
      ⟨.blank, [], done ++ lines.map tokensOf⟩ := by
    clear htext
    induction lines with
    | nil => intro done; simp [lettersOfLines]
    | cons pieces lines ih =>
      obtain ⟨hpieces, hlines⟩ := List.forall_mem_cons.mp h
      intro done
      have hcons : lettersOfLines (pieces :: lines) =
          lettersOf pieces ++ '\n' :: lettersOfLines lines := by
        rw [lettersOfLines, List.flatMap_cons, List.append_assoc, ← lettersOfLines]
        rfl
      rw [hcons, foldl_pieces hpieces, ih hlines]
      simp
  rw [lex, htext, hfold []]
  simp [finish]

end ParseX.Dbc

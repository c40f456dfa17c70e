import ParseX.Raw.RawNode
import ParseX.Raw.Scanner

/-! # Document type declarations

A declaration's internal subset may hold comments and processing instructions, whose quotes
and brackets pair with nothing. The scanner pairs them all the same. -/
namespace ParseX.Loader
open Cpp

/-! ## Well-formed declarations -/

def isQuote (c : Char) : Bool := c == '"' || c == '\''

/-- Characters other than some, and literals that may hold any. -/
inductive Literals (barred : List Char) : List Char → Prop where
  | nil : Literals barred []
  | plain {c : Char} {text : List Char} : c ∉ barred → Literals barred text →
      Literals barred (c :: text)
  | literal {quote : Char} {content text : List Char} : isQuote quote = true → quote ∉ content →
      Literals barred text → Literals barred (quote :: (content ++ quote :: text))

/-- The name and the external identifier. -/
abbrev Header : List Char → Prop := Literals ['"', '\'', '[', ']', '>']

/-- An internal subset: comments, processing instructions, and the characters and literals
of the declarations between them. -/
inductive Subset : List Char → Prop where
  | nil : Subset []
  | comment {content text : List Char} : ¬ ['-', '-'] <:+: content → content.getLast? ≠ some '-' →
      Subset text → Subset ("<!--".toList ++ (content ++ ("-->".toList ++ text)))
  | instruction {content text : List Char} : ¬ ['?', '>'] <:+: content → Subset text →
      Subset ("<?".toList ++ (content ++ ("?>".toList ++ text)))
  | plain {c : Char} {text : List Char} : c ∉ ['"', '\'', '[', ']'] → Subset text →
      Subset (c :: text)
  | literal {quote : Char} {content text : List Char} : isQuote quote = true → quote ∉ content →
      Subset text → Subset (quote :: (content ++ quote :: text))

structure Doctype where
  header : List Char
  /-- What stands between the brackets, and the white space after them. -/
  subset : Option (List Char × List Char)

structure Doctype.WellFormed (doctype : Doctype) : Prop where
  header : Header doctype.header
  subset : ∀ subset space, doctype.subset = some (subset, space) → Subset subset
  space : ∀ subset space, doctype.subset = some (subset, space) → ∀ c ∈ space, isBlank c = true

def Doctype.text (doctype : Doctype) : List Char :=
  "<!DOCTYPE".toList ++ (doctype.header ++
    match doctype.subset with
    | some (subset, space) => '[' :: (subset ++ ']' :: (space ++ ['>']))
    | none => ['>'])

/-! ## What pairs -/

/-- The text outside the runs from a quote to the next of its kind, none when one stays open. -/
def outsideQuotes : Option Char → List Char → Option (List Char)
  | none, [] => some []
  | some _, [] => none
  | some quote, c :: text => outsideQuotes (if c = quote then none else some quote) text
  | none, c :: text =>
    if isQuote c then outsideQuotes (some c) text else (outsideQuotes none text).map (c :: ·)

/-- How many more brackets a text opens than it closes. -/
def surplus (text : List Char) : Int := text.count '[' - text.count ']'

/-- No `'>'` stands where so many brackets and those of the text are closed again. -/
def StaysOpen (depth : Int) (text : List Char) : Prop :=
  ∀ before after, text = before ++ '>' :: after → depth + surplus before ≠ 0

/-- The quotes of a text pair up from left to right, and among the characters outside them the
brackets: as many close as open, and no `'>'` stands where one more has closed. -/
def PairsUp (text : List Char) : Prop :=
  ∃ outside, outsideQuotes none text = some outside ∧ surplus outside = 0 ∧ StaysOpen 1 outside

def Doctype.PairsUp (doctype : Doctype) : Prop :=
  ∀ subset space, doctype.subset = some (subset, space) → Loader.PairsUp subset

/-! ## Reading a text -/

/-- The open quote and the depth after a text, none when a `'>'` in it ends the declaration. -/
def readOn : Option Char → Int → List Char → Option (Option Char × Int)
  | quote, depth, [] => some (quote, depth)
  | some quote, depth, c :: text => readOn (if c = quote then none else some quote) depth text
  | none, depth, c :: text =>
    if isQuote c then readOn (some c) depth text
    else if c = '>' ∧ depth = 0 then none
    else readOn none (depth + surplus [c]) text

theorem surplus_cons (c : Char) (text : List Char) : surplus (c :: text) = surplus [c] + surplus text := by
  simp only [surplus, List.count_cons, List.count_nil]
  omega

theorem staysOpen_cons {depth : Int} {c : Char} {text : List Char} : StaysOpen depth (c :: text) ↔
    ¬ (c = '>' ∧ depth = 0) ∧ StaysOpen (depth + surplus [c]) text := by
  constructor
  · intro h
    refine ⟨fun ⟨hc, hdepth⟩ => h [] text (by rw [hc]; rfl) (by rw [hdepth]; rfl), ?_⟩
    intro before after htext hzero
    refine h (c :: before) after (by rw [htext]; rfl) ?_
    rw [surplus_cons]
    omega
  · rintro ⟨hfirst, hrest⟩ before after htext hzero
    cases before with
    | nil =>
      obtain ⟨hc, -⟩ := List.cons.inj htext
      exact hfirst ⟨hc, by simpa [surplus] using hzero⟩
    | cons first before =>
      obtain ⟨rfl, htail⟩ := List.cons.inj htext
      rw [surplus_cons] at hzero
      exact hrest before after htail (by omega)

/-- A text is left outside quotes where they pair up and nothing ends the declaration. -/
theorem readOn_iff (text : List Char) : ∀ (quote : Option Char) (depth final : Int),
    readOn quote depth text = some (none, final) ↔ ∃ outside, outsideQuotes quote text = some outside ∧
      final = depth + surplus outside ∧ StaysOpen depth outside := by
  induction text with
  | nil =>
    intro quote depth final
    cases quote with
    | none =>
      have hnil : StaysOpen depth [] := fun before after h =>
        absurd h.symm (List.append_ne_nil_of_right_ne_nil _ (List.cons_ne_nil _ _))
      simp [readOn, outsideQuotes, surplus, hnil, eq_comm]
    | some quote => simp [readOn, outsideQuotes]
  | cons c text ih =>
    intro quote depth final
    cases quote with
    | some quote => exact ih _ depth final
    | none =>
      rw [readOn, outsideQuotes]
      split
      · exact ih _ depth final
      · split
        · rename_i hends
          refine ⟨nofun, fun ⟨outside, houtside, _, hopen⟩ => ?_⟩
          obtain ⟨rest, -, rfl⟩ := Option.map_eq_some_iff.mp houtside
          exact absurd hends (staysOpen_cons.mp hopen).1
        · rename_i hgoes
          rw [ih none]
          constructor
          · rintro ⟨outside, houtside, rfl, hopen⟩
            refine ⟨c :: outside, by rw [houtside]; rfl, ?_, staysOpen_cons.mpr ⟨hgoes, hopen⟩⟩
            rw [surplus_cons c outside]
            omega
          · rintro ⟨outside, houtside, rfl, hopen⟩
            obtain ⟨rest, hrest, rfl⟩ := Option.map_eq_some_iff.mp houtside
            refine ⟨rest, hrest, ?_, (staysOpen_cons.mp hopen).2⟩
            rw [surplus_cons c rest]
            omega

theorem readOn_append (text more : List Char) : ∀ (quote : Option Char) (depth : Int),
    readOn quote depth (text ++ more) =
      (readOn quote depth text).bind fun state => readOn state.1 state.2 more := by
  induction text with
  | nil =>
    intro quote depth
    cases quote <;> rfl
  | cons c text ih =>
    intro quote depth
    cases quote with
    | some quote => exact ih _ depth
    | none =>
      rw [List.cons_append, readOn, readOn]
      split
      · exact ih _ depth
      · split
        · rfl
        · exact ih none _

/-! ## The scan reads the text -/

/-- A quote that is open. -/
def IsOpen (quote : Option Char) : Prop := ∀ c, quote = some c → isQuote c = true

/-- Codes of no mark are passed one by one. -/
theorem declarationUnits_plain {quote : Option UInt8} {depth : Int} {plain : List (Option UInt8)}
    (hquote : ∀ mark, quote = some mark → ∀ code ∈ plain, code ≠ some mark)
    (hplain : quote = none → ∀ code ∈ plain, code ≠ some quoteMark ∧ code ≠ some apostrophe ∧
      code ≠ some openBracket ∧ code ≠ some closeBracket ∧ ¬ (code = some greaterThan ∧ depth = 0))
    (rest : List (Option UInt8)) : declarationUnits quote depth (plain ++ rest) =
      (declarationUnits quote depth rest).map (· + plain.length) := by
  induction plain with
  | nil => simp
  | cons code plain ih =>
    have hlater := ih (fun mark hmark code hcode => hquote mark hmark code (List.mem_cons_of_mem _ hcode))
      fun hnone code hcode => hplain hnone code (List.mem_cons_of_mem _ hcode)
    have hstep : declarationUnits quote depth (code :: (plain ++ rest)) =
        (declarationUnits quote depth (plain ++ rest)).map (· + 1) := by
      cases quote with
      | some mark => rw [declarationUnits, if_neg (hquote mark rfl code (List.mem_cons_self ..))]
      | none =>
        obtain ⟨hdouble, hsingle, hopen, hclose, hend⟩ := hplain rfl code (List.mem_cons_self ..)
        rw [declarationUnits, if_neg (not_or.mpr ⟨hdouble, hsingle⟩), if_neg hopen, if_neg hclose,
          if_neg hend]
    rw [List.cons_append, hstep, hlater, Option.map_map]
    rfl

theorem isQuote_iff {c : Char} : isQuote c = true ↔ c = '"' ∨ c = '\'' := by
  rw [isQuote, Bool.or_eq_true, beq_iff_eq, beq_iff_eq]

theorem ascii_of_isQuote {c : Char} (h : isQuote c = true) : c.toNat < 128 := by
  rcases isQuote_iff.mp h with rfl | rfl <;> decide

theorem surplus_plain {c : Char} (hopen : c ≠ '[') (hclose : c ≠ ']') : surplus [c] = 0 := by
  rw [surplus, List.count_singleton, List.count_singleton, beq_false_of_ne hopen,
    beq_false_of_ne hclose]
  rfl

/-- Inside quotes only the quote itself changes anything. -/
theorem scan_quoted (encoding : RawEncodingClass) {c quote : Char} (depth : Int)
    (hquote : isQuote quote = true) (rest : List (Option UInt8)) :
    declarationUnits (some quote.toUInt8) depth (charCodes encoding c ++ rest) =
      (declarationUnits ((if c = quote then none else some quote).map Char.toUInt8) depth rest).map
        (· + (charCodes encoding c).length) := by
  have hascii := ascii_of_isQuote hquote
  by_cases hc : c = quote
  · rw [if_pos hc, hc, charCodes_ascii encoding hascii, List.singleton_append, declarationUnits,
      if_pos rfl]
    rfl
  · rw [if_neg hc, Option.map_some]
    refine declarationUnits_plain (fun mark hmark => ?_) (fun h => by cases h) rest
    rw [← Option.some.inj hmark]
    exact charCodes_ne encoding hascii hc

/-- Outside quotes a character is passed as it is read, unless it ends the declaration. -/
theorem scan_outside (encoding : RawEncodingClass) {c : Char} {depth : Int}
    (hquote : ¬ isQuote c = true) (hends : ¬ (c = '>' ∧ depth = 0)) (rest : List (Option UInt8)) :
    declarationUnits none depth (charCodes encoding c ++ rest) =
      (declarationUnits none (depth + surplus [c]) rest).map (· + (charCodes encoding c).length) := by
  by_cases hopen : c = '['
  · rw [hopen, charCodes_ascii encoding (by decide)]
    rfl
  by_cases hclose : c = ']'
  · rw [hclose, charCodes_ascii encoding (by decide)]
    rfl
  rw [surplus_plain hopen hclose, Int.add_zero]
  rw [isQuote_iff, not_or] at hquote
  refine declarationUnits_plain (fun mark h => by cases h) (fun _ code hcode => ⟨?_, ?_, ?_, ?_, ?_⟩) rest
  · exact charCodes_ne encoding (by decide) hquote.1 code hcode
  · exact charCodes_ne encoding (by decide) hquote.2 code hcode
  · exact charCodes_ne encoding (by decide) hopen code hcode
  · exact charCodes_ne encoding (by decide) hclose code hcode
  · rintro ⟨hgreater, hzero⟩
    have hne : c ≠ '>' := fun hc => hends ⟨hc, hzero⟩
    exact charCodes_ne encoding (by decide) hne code hcode hgreater

theorem scan_end (encoding : RawEncodingClass) (rest : List (Option UInt8)) :
    declarationUnits none 0 (charCodes encoding '>' ++ rest) = some 1 := by
  rw [charCodes_ascii encoding (by decide)]
  rfl

/-- A character ends the declaration, or the scan passes it into the state that it is read to. -/
theorem scan_step (encoding : RawEncodingClass) (c : Char) {quote : Option Char} (depth : Int)
    (hquote : IsOpen quote) : (quote = none ∧ c = '>' ∧ depth = 0) ∨
      ∃ quote' depth', IsOpen quote' ∧
        (∀ text, readOn quote depth (c :: text) = readOn quote' depth' text) ∧
        ∀ rest, declarationUnits (quote.map Char.toUInt8) depth (charCodes encoding c ++ rest) =
          (declarationUnits (quote'.map Char.toUInt8) depth' rest).map
            (· + (charCodes encoding c).length) := by
  cases quote with
  | some quote =>
    refine .inr ⟨if c = quote then none else some quote, depth, ?_, fun text => rfl,
      scan_quoted encoding depth (hquote quote rfl)⟩
    split
    · nofun
    · exact hquote
  | none =>
    by_cases hc : isQuote c = true
    · refine .inr ⟨some c, depth, fun _ h => Option.some.inj h ▸ hc, fun text => if_pos hc, fun rest => ?_⟩
      have hcode : some c.toUInt8 = some quoteMark ∨ some c.toUInt8 = some apostrophe := by
        rcases isQuote_iff.mp hc with rfl | rfl
        · exact .inl rfl
        · exact .inr rfl
      rw [charCodes_ascii encoding (ascii_of_isQuote hc), List.singleton_append]
      exact if_pos hcode
    · by_cases hends : c = '>' ∧ depth = 0
      · exact .inl ⟨rfl, hends⟩
      · exact .inr ⟨none, depth + surplus [c], nofun,
          fun text => (if_neg hc).trans (if_neg hends), scan_outside encoding hc hends⟩

/-- **A text is scanned as it is read.** -/
theorem scan_text (encoding : RawEncodingClass) (rest : List (Option UInt8)) (text : List Char) :
    ∀ (quote : Option Char) (depth : Int), IsOpen quote →
      (∀ state, readOn quote depth text = some state → IsOpen state.1 ∧
        declarationUnits (quote.map Char.toUInt8) depth (textCodes encoding text ++ rest) =
          (declarationUnits (state.1.map Char.toUInt8) state.2 rest).map
            (· + (textCodes encoding text).length)) ∧
      (readOn quote depth text = none →
        ∃ units ≤ (textCodes encoding text).length,
          declarationUnits (quote.map Char.toUInt8) depth (textCodes encoding text ++ rest) =
            some units) := by
  induction text with
  | nil =>
    intro quote depth hquote
    have hread : readOn quote depth [] = some (quote, depth) := by cases quote <;> rfl
    refine ⟨fun state hstate => ?_, fun hnone => ?_⟩
    · rw [← Option.some.inj (hread.symm.trans hstate)]
      exact ⟨hquote, by simp [textCodes]⟩
    · rw [hread] at hnone
      cases hnone
  | cons c text ih =>
    intro quote depth hquote
    rw [textCodes_cons, List.append_assoc]
    rcases scan_step encoding c depth hquote with ⟨rfl, rfl, rfl⟩ | ⟨quote', depth', hopen, hread, hscan⟩
    · refine ⟨fun state hstate => ?_, fun _ => ⟨1, ?_, scan_end encoding _⟩⟩
      · cases hstate
      · rw [charCodes_ascii encoding (by decide), List.length_append, List.length_singleton]
        omega
    · obtain ⟨hsome, hnone⟩ := ih quote' depth' hopen
      refine ⟨fun state hstate => ?_, fun hstate => ?_⟩
      · obtain ⟨hfinal, hunits⟩ := hsome state ((hread text).symm.trans hstate)
        refine ⟨hfinal, ?_⟩
        rw [hscan, hunits, Option.map_map, List.length_append]
        congr 1
        funext units
        rw [Function.comp_apply]
        omega
      · obtain ⟨units, hle, hunits⟩ := hnone ((hread text).symm.trans hstate)
        refine ⟨units + (charCodes encoding c).length, ?_, by rw [hscan, hunits]; rfl⟩
        rw [List.length_append]
        omega

/-- The `'>'` after a text ends the declaration there, where nothing is open after the text. -/
theorem scan_exact (encoding : RawEncodingClass) (text : List Char) (rest : List (Option UInt8)) :
    declarationUnits none 0 (textCodes encoding (text ++ ['>']) ++ rest) =
        some (textCodes encoding (text ++ ['>'])).length ↔
      readOn none 0 text = some (none, 0) := by
  have hcodes : textCodes encoding (text ++ ['>']) =
      textCodes encoding text ++ charCodes encoding '>' := by
    rw [textCodes, List.flatMap_append, List.flatMap_singleton]
    rfl
  have hone : (charCodes encoding '>').length = 1 := by rw [charCodes_ascii encoding (by decide)]; rfl
  obtain ⟨hsome, hnone⟩ := scan_text encoding (charCodes encoding '>' ++ rest) text none 0
    fun _ h => by cases h
  rw [hcodes, List.append_assoc, List.length_append, hone]
  cases hread : readOn none 0 text with
  | none =>
    obtain ⟨units, hle, hunits⟩ := hnone hread
    refine ⟨fun h => ?_, fun h => by cases h⟩
    have := Option.some.inj (hunits.symm.trans h)
    omega
  | some state =>
    obtain ⟨hopen, hunits⟩ := hsome state hread
    obtain ⟨quote, depth⟩ := state
    refine ⟨fun h => ?_, fun h => ?_⟩
    · obtain ⟨last, hlast, hcount⟩ := Option.map_eq_some_iff.mp (hunits.symm.trans h)
      rcases scan_step encoding '>' depth hopen with ⟨rfl, -, rfl⟩ | ⟨quote', depth', -, -, hscan⟩
      · rfl
      · rw [hscan] at hlast
        obtain ⟨later, hlater, rfl⟩ := Option.map_eq_some_iff.mp hlast
        have := declarationUnits_pos hlater
        omega
    · obtain ⟨rfl, rfl⟩ := Prod.mk.inj (Option.some.inj h)
      refine hunits.trans ?_
      rw [Option.map_none, scan_end, Option.map_some, Nat.add_comm]

/-! ## The parts of a declaration -/

theorem readOn_literal {quote : Char} {content text : List Char} {depth : Int}
    (hquote : isQuote quote = true) (hcontent : quote ∉ content) :
    readOn none depth (quote :: (content ++ quote :: text)) = readOn none depth text := by
  rw [readOn, if_pos hquote]
  induction content with
  | nil =>
    rw [List.nil_append, readOn, if_pos rfl]
  | cons c content ih =>
    rw [List.mem_cons, not_or] at hcontent
    rw [List.cons_append, readOn, if_neg (Ne.symm hcontent.1)]
    exact ih hcontent.2

theorem readOn_plain {c : Char} {text : List Char} {depth : Int} (hquote : ¬ isQuote c = true)
    (hopen : c ≠ '[') (hclose : c ≠ ']') (hends : ¬ (c = '>' ∧ depth = 0)) :
    readOn none depth (c :: text) = readOn none depth text := by
  rw [readOn, if_neg hquote, if_neg hends, surplus_plain hopen hclose, Int.add_zero]

theorem Literals.readOn {barred text : List Char} {depth : Int} (h : Literals barred text)
    (hbarred : ∀ c ∈ ['"', '\'', '[', ']'], c ∈ barred) (hends : '>' ∈ barred ∨ depth ≠ 0) :
    readOn none depth text = some (none, depth) := by
  induction h with
  | nil => rfl
  | @plain c _ hc _ ih =>
    have hother {mark : Char} (hmark : mark ∈ ['"', '\'', '[', ']']) : c ≠ mark := by
      rintro rfl
      exact hc (hbarred c hmark)
    rw [readOn_plain (by rw [isQuote_iff, not_or]; exact ⟨hother (by decide), hother (by decide)⟩)
      (hother (by decide)) (hother (by decide)) ?_, ih]
    rintro ⟨rfl, hzero⟩
    exact hends.elim hc fun hne => hne hzero
  | literal hquote hcontent _ ih => rw [readOn_literal hquote hcontent, ih]

/-- White space is passed as it stands. -/
theorem readOn_space {space : List Char} (hspace : ∀ c ∈ space, isBlank c = true) (depth : Int) :
    readOn none depth space = some (none, depth) := by
  induction space with
  | nil => rfl
  | cons c space ih =>
    have hblank := hspace c (List.mem_cons_self ..)
    have hother {mark : Char} (hmark : isBlank mark = false) : c ≠ mark := by
      rintro rfl
      rw [hblank] at hmark
      cases hmark
    rw [readOn_plain (by rw [isQuote_iff, not_or]; exact ⟨hother (by decide), hother (by decide)⟩)
      (hother (by decide)) (hother (by decide)) fun h => hother (by decide) h.1]
    exact ih fun c hc => hspace c (List.mem_cons_of_mem _ hc)

/-- Other characters leave a quote open. -/
theorem readOn_quoted {quote : Char} {text : List Char} (h : quote ∉ text) (depth : Int) :
    readOn (some quote) depth text = some (some quote, depth) := by
  induction text with
  | nil => rfl
  | cons c text ih =>
    rw [List.mem_cons, not_or] at h
    rw [readOn, if_neg (Ne.symm h.1)]
    exact ih h.2

/-- The closing bracket and the white space after it leave quotes as they are. -/
theorem readOn_closing {space : List Char} (hspace : ∀ c ∈ space, isBlank c = true)
    (quote : Option Char) (hquote : IsOpen quote) (depth : Int) :
    readOn quote depth (']' :: space) = some (none, 0) ↔ quote = none ∧ depth = 1 := by
  cases quote with
  | some quote =>
    have hmark := isQuote_iff.mp (hquote quote rfl)
    have hnot : quote ∉ ']' :: space := by
      rw [List.mem_cons, not_or]
      refine ⟨by rcases hmark with rfl | rfl <;> decide, fun hmem => ?_⟩
      have hblank := hspace quote hmem
      rcases hmark with rfl | rfl
      · exact absurd hblank (by decide)
      · exact absurd hblank (by decide)
    rw [readOn_quoted hnot]
    simp
  | none =>
    rw [readOn, if_neg (by decide), if_neg (fun h => absurd h.1 (by decide)),
      readOn_space hspace, Option.some_inj, Prod.mk.injEq]
    have hsurplus : surplus [']'] = -1 := rfl
    refine ⟨fun h => ⟨rfl, ?_⟩, fun h => ⟨rfl, ?_⟩⟩
    · omega
    · omega

/-! ## Whole declarations -/

/-- The characters between `'<'` and the last `'>'`. -/
def Doctype.inner (doctype : Doctype) : List Char :=
  "!DOCTYPE".toList ++ (doctype.header ++
    match doctype.subset with
    | some (subset, space) => '[' :: (subset ++ ']' :: space)
    | none => [])

theorem Doctype.text_inner (doctype : Doctype) :
    doctype.text = '<' :: (doctype.inner ++ ['>']) := by
  have hkeyword : "<!DOCTYPE".toList = '<' :: "!DOCTYPE".toList := by simp
  unfold Doctype.text Doctype.inner
  rw [hkeyword]
  generalize "!DOCTYPE".toList = keyword
  cases doctype.subset with
  | none => simp
  | some parts => simp

/-- A subset is left where it is entered exactly where its quotes and brackets pair up. -/
theorem readOn_subset {subset space : List Char} (hspace : ∀ c ∈ space, isBlank c = true) :
    readOn none 1 (subset ++ ']' :: space) = some (none, 0) ↔ PairsUp subset := by
  have hopen : readOn none 1 subset = some (none, 1) ↔ PairsUp subset := by
    rw [readOn_iff, PairsUp]
    refine exists_congr fun outside => and_congr_right fun _ => and_congr_left fun _ => ?_
    omega
  rw [← hopen, readOn_append]
  cases hread : readOn none 1 subset with
  | none => simp
  | some state =>
    have hstate := (scan_text .singleByte [] subset none 1 nofun).1 state hread
    rw [Option.bind_some, readOn_closing hspace _ hstate.1, Option.some_inj, Prod.ext_iff]

theorem Literals.subset {text : List Char} (h : Literals ['"', '\'', '[', ']'] text) :
    Subset text := by
  induction h with
  | nil => exact .nil
  | plain hc _ ih => exact .plain hc ih
  | literal hquote hcontent _ ih => exact .literal hquote hcontent ih

/-- Declarations alone pair up: what upsets the pairing stands in a comment or an instruction. -/
theorem Literals.pairsUp {subset : List Char} (h : Literals ['"', '\'', '[', ']'] subset) :
    PairsUp subset :=
  (@readOn_subset subset [] nofun).mp (by
    rw [readOn_append, h.readOn (fun _ hc => hc) (.inr (by decide))]
    rfl)

theorem Doctype.readOn_inner {doctype : Doctype} (h : doctype.WellFormed) :
    Loader.readOn none 0 doctype.inner = some (none, 0) ↔ doctype.PairsUp := by
  have hletters : "!DOCTYPE".toList = ['!', 'D', 'O', 'C', 'T', 'Y', 'P', 'E'] := by simp
  have hkeyword : Loader.readOn none 0 "!DOCTYPE".toList = some (none, 0) := by
    rw [hletters]
    decide
  unfold Doctype.inner
  rw [readOn_append, hkeyword, Option.bind_some, readOn_append,
    h.header.readOn (by decide) (.inl (by decide)), Option.bind_some,
    Doctype.PairsUp]
  cases hsubset : doctype.subset with
  | none => exact ⟨fun _ => nofun, fun _ => rfl⟩
  | some parts =>
    obtain ⟨subset, space⟩ := parts
    refine (readOn_subset (h.space subset space hsubset)).trans ⟨fun hpairs => ?_, fun hpairs => ?_⟩
    · rintro _ _ ⟨⟩
      exact hpairs
    · exact hpairs subset space rfl

/-- **A declaration is skipped to its end exactly where its internal subset pairs up.** -/
theorem doctype_skipped_iff (encoding : RawEncodingClass) (doctype : Doctype)
    (hdoctype : doctype.WellFormed) (before rest : Bytes) :
    skipDeclaration (before ++ (encode encoding doctype.text ++ rest)) encoding before.length =
        some (before.length + (encode encoding doctype.text).length) ↔ doctype.PairsUp := by
  have hfirst : (encode encoding ['<']).length = unitWidth encoding := by
    rw [length_encode, textCodes, List.flatMap_singleton, charCodes_ascii encoding (by decide)]
    exact Nat.one_mul _
  have htext : encode encoding doctype.text =
      encode encoding ['<'] ++ encode encoding (doctype.inner ++ ['>']) := by
    rw [doctype.text_inner, encode, encode, encode, ← List.flatMap_append]
    rfl
  have hdrop : (before ++ (encode encoding doctype.text ++ rest)).drop
      (before.length + unitWidth encoding) = encode encoding (doctype.inner ++ ['>']) ++ rest := by
    rw [htext, List.append_assoc, ← List.append_assoc, ← hfirst, ← List.length_append,
      List.drop_left]
  rw [skipDeclaration_codes, hdrop, codes_encode, ← doctype.readOn_inner hdoctype,
    ← scan_exact encoding doctype.inner (codes encoding rest), htext, List.length_append, hfirst,
    length_encode]
  have hplaces (units : Nat) : placeAfter encoding (before.length + unitWidth encoding) units =
      before.length + (unitWidth encoding +
        (textCodes encoding (doctype.inner ++ ['>'])).length * unitWidth encoding) ↔
      units = (textCodes encoding (doctype.inner ++ ['>'])).length := by
    rw [placeAfter, Nat.add_assoc, Nat.add_left_cancel_iff, Nat.add_left_cancel_iff]
    exact Nat.mul_left_inj (Nat.pos_iff_ne_zero.mp (unitWidth_pos encoding))
  cases declarationUnits none 0
      (textCodes encoding (doctype.inner ++ ['>']) ++ codes encoding rest) with
  | none => simp
  | some units => rw [Option.map_some, Option.some_inj, Option.some_inj, hplaces]

theorem Literals.of_forall {barred text : List Char} (h : ∀ c ∈ text, c ∉ barred) :
    Literals barred text := by
  induction text with
  | nil => exact .nil
  | cons c text ih =>
    exact .plain (h c (List.mem_cons_self ..)) (ih fun other hother => h other (List.mem_cons_of_mem _ hother))

/-- An element declaration in the subset. -/
def declaringDoctype : Doctype :=
  ⟨[' ', 'a'], some (['<', '!', 'E', 'L', 'E', 'M', 'E', 'N', 'T', ' ', 'a', ' ', 'A', 'N', 'Y', '>'], [' '])⟩

theorem doctype_skipped_iff_declaring :
    skipDeclaration ([] ++ (encode .utf16Le declaringDoctype.text ++ [])) .utf16Le ([] : Bytes).length =
      some (([] : Bytes).length + (encode .utf16Le declaringDoctype.text).length) := by
  refine (doctype_skipped_iff .utf16Le declaringDoctype
    ⟨Literals.of_forall (by decide), ?_, ?_⟩ [] []).mpr ?_
  · rintro _ _ ⟨⟩
    exact (Literals.of_forall (by decide)).subset
  · rintro _ _ ⟨⟩
    decide
  · rintro _ _ ⟨⟩
    exact (Literals.of_forall (by decide)).pairsUp

/-- An apostrophe in a comment. -/
def commentedDoctype : Doctype :=
  ⟨[' ', 'a', ' '], some ("<!--".toList ++ (['d', 'o', 'n', '\'', 't'] ++ ("-->".toList ++ [])), [])⟩

/-- The apostrophe is taken for a quote that never closes. -/
theorem commentedDoctype_throws : commentedDoctype.WellFormed ∧
    skipDeclaration (encode .singleByte commentedDoctype.text) .singleByte 0 = none := by
  refine ⟨⟨Literals.of_forall (by decide), ?_, ?_⟩, ?_⟩
  · rintro _ _ ⟨⟩
    exact .comment (by decide) (by decide) .nil
  · rintro _ _ ⟨⟩
    nofun
  · rw [skipDeclaration_codes]
    decide

end ParseX.Loader

import Mathlib.Data.List.Chain
import ParseX.Raw.Scanner

/-! # Detecting the encoding

The loader looks for a byte order mark, and where there is none for the first `encoding` among
the first 300 bytes, whatever it belongs to. -/
namespace ParseX.Loader
open Cpp

/-! ## Detection -/

def bomEncodingClass (bytes : Bytes) : Except String (Option RawEncodingClass) :=
  if [0xFF, 0xFE, 0x00, 0x00] <+: bytes ∨ [0x00, 0x00, 0xFE, 0xFF] <+: bytes then
    throw "parsex: UTF-32 input is not supported"
  else if [0xFF, 0xFE] <+: bytes then return some .utf16Le
  else if [0xFE, 0xFF] <+: bytes then return some .utf16Be
  else return none

def isSpaceByte (byte : UInt8) : Bool := byte == 0x20 || byte == 0x09 || byte == 0x0D || byte == 0x0A

def sniffLessThanEndianness (bytes : Bytes) : RawEncodingClass :=
  match bytes.dropWhile isSpaceByte with
  | first :: second :: _ =>
    if first = 0x3C ∧ second = 0x00 then .utf16Le
    else if first = 0x00 ∧ second = 0x3C then .utf16Be
    else .singleByte
  | _ => .singleByte

def asciiUpper (bytes : Bytes) : Bytes :=
  bytes.map fun letter => if 0x61 ≤ letter ∧ letter ≤ 0x7A then letter - 0x20 else letter

/-- What `declarationEncodingClass` reads from a quote on. -/
def quotedValue (head : Bytes) (quotePos : Nat) : Bytes :=
  match find head ((head.drop quotePos).take 1) (quotePos + 1) with
  | some endQuote => (head.drop (quotePos + 1)).take (endQuote - quotePos - 1)
  | none => head.drop (quotePos + 1)

/-- What `declarationEncodingClass` makes of the value. -/
def declaredClass (bytes declared : Bytes) : RawEncodingClass :=
  if find declared (utf8 "UTF-16") 0 = none then .singleByte
  else if find declared (utf8 "LE") 0 ≠ none then .utf16Le
  else if find declared (utf8 "BE") 0 ≠ none then .utf16Be
  else sniffLessThanEndianness bytes

def declarationEncodingClass (bytes : Bytes) : RawEncodingClass :=
  let head := bytes.take 300
  match find head (utf8 "encoding") 0 with
  | none => .singleByte
  | some keyPos =>
    match findFirstOf head [quoteMark, apostrophe] keyPos with
    | none => .singleByte
    | some quotePos =>
      if head.length ≤ quotePos + 1 then .singleByte
      else declaredClass bytes (asciiUpper (quotedValue head quotePos))

def detectEncodingClass (bytes : Bytes) : Except String RawEncodingClass := do
  match ← bomEncodingClass bytes with
  | some bomResult => return bomResult
  | none => return declarationEncodingClass bytes

/-! ## What the first bytes spell -/

/-- The bytes spell a value: from the first quote after the first `encoding` to the next quote of
its kind, or to the last byte. -/
def Spells (head value : Bytes) : Prop :=
  ∃ before between quote rest,
    head = before ++ (utf8 "encoding" ++ (between ++ quote :: (value ++ rest))) ∧
    (∀ place < before.length, ¬ utf8 "encoding" <+: head.drop place) ∧
    (∀ byte ∈ between, byte ∉ [quoteMark, apostrophe]) ∧ quote ∈ [quoteMark, apostrophe] ∧
    quote ∉ value ∧ (rest = [] ∨ rest.head? = some quote)

/-- A value names an encoding, in letters of any case. -/
def Names (value : Bytes) (name : String) : Prop := utf8 name <:+: asciiUpper value

instance (value : Bytes) (name : String) : Decidable (Names value name) :=
  inferInstanceAs (Decidable (utf8 name <:+: asciiUpper value))

/-- The value after a quote goes to the next one of its kind, or to the end. -/
theorem quotedValue_of {before value rest : Bytes} {quote : UInt8} (hvalue : quote ∉ value)
    (hrest : rest = [] ∨ rest.head? = some quote) :
    quotedValue (before ++ quote :: (value ++ rest)) before.length = value := by
  have hquote : ((before ++ quote :: (value ++ rest)).drop before.length).take 1 = [quote] := by
    rw [List.drop_left]
    rfl
  have hdrop : (before ++ quote :: (value ++ rest)).drop (before.length + 1) = value ++ rest := by
    rw [← List.drop_drop, List.drop_left]
    rfl
  have hvalue' {place : Nat} (hplace : before.length + 1 ≤ place)
      (hlt : place < before.length + 1 + value.length) :
      ¬ [quote] <+: (before ++ quote :: (value ++ rest)).drop place := by
    intro hstands
    obtain ⟨i, rfl⟩ := Nat.exists_eq_add_of_le hplace
    rw [← List.drop_drop, hdrop] at hstands
    have hget := singleton_prefix_drop hstands
    rw [List.getElem?_append_left (by omega)] at hget
    exact hvalue (List.mem_of_getElem? hget)
  rw [quotedValue, hquote]
  cases rest with
  | nil =>
    have hnone : find (before ++ quote :: (value ++ [])) [quote] (before.length + 1) = none := by
      cases hfind : find (before ++ quote :: (value ++ [])) [quote] (before.length + 1) with
      | none => rfl
      | some place =>
        obtain ⟨hpos, hstands, -⟩ := find_eq_some hfind
        have hlength := (List.getElem?_eq_some_iff.mp (singleton_prefix_drop hstands)).1
        simp only [List.append_nil, List.length_append, List.length_cons] at hlength
        exact absurd hstands (hvalue' hpos (by omega))
    rw [hnone]
    dsimp only
    rw [hdrop, List.append_nil]
  | cons next rest =>
    obtain rfl : next = quote := by simpa using hrest
    have hsome : find (before ++ next :: (value ++ next :: rest)) [next] (before.length + 1) =
        some (before.length + 1 + value.length) := by
      refine find_eq_some_of (List.cons_ne_nil _ _) (by omega) ?_ fun place => hvalue'
      rw [← List.drop_drop, hdrop, List.drop_left]
      exact ⟨rest, rfl⟩
    rw [hsome]
    dsimp only
    rw [hdrop, show before.length + 1 + value.length - before.length - 1 = value.length by omega,
      List.take_left]

theorem encoding_no_quote : ∀ byte ∈ utf8 "encoding", byte ∉ [quoteMark, apostrophe] := by decide

/-- The declaration is sniffed by the value that the first bytes spell. -/
theorem declarationEncodingClass_spells {bytes value : Bytes} (h : Spells (bytes.take 300) value) :
    declarationEncodingClass bytes = declaredClass bytes (asciiUpper value) := by
  obtain ⟨before, between, quote, rest, hhead, hfirst, hbetween, hquote, hvalue, hrest⟩ := h
  have hkey : find (bytes.take 300) (utf8 "encoding") 0 = some before.length := by
    refine find_eq_some_of (by decide) (Nat.zero_le _) ?_ fun place _ => hfirst place
    rw [hhead, List.drop_left]
    exact List.prefix_append _ _
  have hmark : findFirstOf (bytes.take 300) [quoteMark, apostrophe] before.length =
      some (before ++ (utf8 "encoding" ++ between)).length := by
    have hplain : ∀ byte ∈ utf8 "encoding" ++ between, byte ∉ [quoteMark, apostrophe] := by
      intro byte hbyte
      rcases List.mem_append.mp hbyte with hmem | hmem
      · exact encoding_no_quote byte hmem
      · exact hbetween byte hmem
    rw [hhead, ← List.append_assoc (utf8 "encoding"), findFirstOf_append hplain hquote,
      ← List.length_append]
  have hassoc : bytes.take 300 =
      (before ++ (utf8 "encoding" ++ between)) ++ quote :: (value ++ rest) := by
    rw [hhead, List.append_assoc, List.append_assoc]
  have hread : quotedValue (bytes.take 300) (before ++ (utf8 "encoding" ++ between)).length = value := by
    rw [hassoc]
    exact quotedValue_of hvalue hrest
  rw [declarationEncodingClass]
  simp only [hkey, hmark, hread]
  split
  · rename_i hlast
    simp only [hassoc, List.length_append, List.length_cons] at hlast
    obtain rfl : value = [] := List.length_eq_zero_iff.mp (by omega)
    rfl
  · rfl

/-- Where the first bytes spell no value the units are bytes. -/
theorem declarationEncodingClass_silent {bytes : Bytes} (h : ∀ value, ¬ Spells (bytes.take 300) value) :
    declarationEncodingClass bytes = .singleByte := by
  rw [declarationEncodingClass]
  cases hkey : find (bytes.take 300) (utf8 "encoding") 0 with
  | none => rfl
  | some keyPos =>
    obtain ⟨-, ⟨more, hmore⟩, hfirst⟩ := find_eq_some hkey
    have hhead : bytes.take 300 = (bytes.take 300).take keyPos ++ (utf8 "encoding" ++ more) := by
      rw [hmore, List.take_append_drop]
    have hplace : ((bytes.take 300).take keyPos).length ≤ keyPos := List.length_take_le _ _
    dsimp only
    cases hmark : findFirstOf (bytes.take 300) [quoteMark, apostrophe] keyPos with
    | none => rfl
    | some quotePos =>
      -- the quote stands after the keyword, and so there is a first one
      obtain ⟨i, hi, -⟩ := Option.map_eq_some_iff.mp hmark
      obtain ⟨hlt, hquote, -⟩ := List.findIdx?_eq_some_iff_getElem.mp hi
      rw [List.contains_eq_mem, decide_eq_true_eq] at hquote
      have hmem : ∃ byte ∈ more, [quoteMark, apostrophe].contains byte = true := by
        have hin : ((bytes.take 300).drop keyPos)[i] ∈ utf8 "encoding" ++ more := by
          rw [hmore]
          exact List.getElem_mem hlt
        refine ⟨_, (List.mem_append.mp hin).resolve_left fun hkeyword => ?_, ?_⟩
        · exact encoding_no_quote _ hkeyword hquote
        · rw [List.contains_eq_mem]
          exact decide_eq_true hquote
      obtain ⟨quote, hquote⟩ := Option.isSome_iff_exists.mp (List.find?_isSome.mpr hmem)
      obtain ⟨hmarks, between, tail, htail, hbetween⟩ := List.find?_eq_some_iff_append.mp hquote
      rw [List.contains_eq_mem, decide_eq_true_eq] at hmarks
      have hplain : ∀ byte ∈ between, byte ∉ [quoteMark, apostrophe] := by
        intro byte hbyte hmark
        have := hbetween byte hbyte
        rw [List.contains_eq_mem, decide_eq_true hmark] at this
        cases this
      have hspells {value rest : Bytes} (hsplit : tail = value ++ rest) (hvalue : quote ∉ value)
          (hrest : rest = [] ∨ rest.head? = some quote) : Spells (bytes.take 300) value := by
        refine ⟨(bytes.take 300).take keyPos, between, quote, rest, ?_, fun place hlt => ?_, hplain,
          hmarks, hvalue, hrest⟩
        · rw [← hsplit, ← htail]
          exact hhead
        · exact hfirst place (Nat.zero_le _) (by omega)
      by_cases hcloses : quote ∈ tail
      · obtain ⟨value, rest, hsplit, hvalue⟩ := List.eq_append_cons_of_mem hcloses
        exact absurd (hspells hsplit hvalue (.inr rfl)) (h value)
      · exact absurd (hspells (List.append_nil tail).symm hcloses (.inl rfl)) (h tail)

/-! ## Documents -/

/-- A character that XML allows. -/
def isXmlChar (c : Char) : Bool :=
  c == '\t' || c == '\n' || c == '\r' || (0x20 ≤ c.toNat && c.toNat != 0xFFFE && c.toNat != 0xFFFF)

/-- An XML declaration opens the text, and names an encoding that starts with UTF-16. -/
def DeclaresUtf16 (text : List Char) : Prop :=
  ∃ version equals quote name rest, text = "<?xml".toList ++ (version ++ ("encoding".toList ++
      (equals ++ quote :: (name ++ quote :: rest)))) ∧
    quote ∈ ['"', '\''] ∧ "UTF-16".toList <+: name.map Char.toUpper

def byteOrderMark : RawEncodingClass → Bytes
  | .singleByte => [0xEF, 0xBB, 0xBF]
  | .utf16Le => [0xFF, 0xFE]
  | .utf16Be => [0xFE, 0xFF]

/-- A text in an encoding, after a byte order mark or without one. -/
structure Document where
  encoding : RawEncodingClass
  marked : Bool
  text : List Char

def Document.bytes (document : Document) : Bytes :=
  (if document.marked then byteOrderMark document.encoding else []) ++
    encode document.encoding document.text

structure Document.WellFormed (document : Document) : Prop where
  allowed : ∀ c ∈ document.text, isXmlChar c = true
  declared : document.encoding ≠ .singleByte → document.marked = false → DeclaresUtf16 document.text

theorem toNat_pos_of_isXmlChar {c : Char} (h : isXmlChar c = true) : 0 < c.toNat := by
  by_contra hzero
  obtain rfl : c = '\x00' := Char.toNat_inj.mp (by
    rw [Nat.eq_zero_of_not_pos hzero]
    rfl)
  exact absurd h (by decide)

theorem utf8_bounds {text : List Char} (h : ∀ c ∈ text, isXmlChar c = true) :
    ∀ byte ∈ encode .singleByte text, 0 < byte.toNat ∧ byte.toNat < 248 := by
  intro byte hbyte
  obtain ⟨c, hc, hmem⟩ := List.mem_flatMap.mp hbyte
  by_cases hascii : c.toNat < 128
  · rw [encodeChar, utf8EncodeChar_ascii hascii, List.mem_singleton] at hmem
    have hvalue : c.toUInt8.toNat = c.toNat := UInt8.toNat_ofNat_of_lt' (Nat.lt_trans hascii (by decide))
    have hpos := toNat_pos_of_isXmlChar (h c hc)
    rw [hmem, hvalue]
    omega
  · have := utf8EncodeChar_other hascii byte hmem
    omega

/-- No text opens with a unit of two zeros. -/
theorem utf16_no_zeros {text : List Char} (h : ∀ c ∈ text, isXmlChar c = true) :
    ¬ [0x00, 0x00] <+: encode .utf16Le text := by
  cases text with
  | nil => decide
  | cons c text =>
    have hpos := toNat_pos_of_isXmlChar (h c (List.mem_cons_self ..))
    have hbounds := @utf16_bounds c
    rw [encode_cons, encodeChar]
    cases hunits : utf16 c with
    | nil =>
      rw [utf16] at hunits
      split at hunits
      · cases hunits
      · cases hunits
    | cons unit units =>
      obtain ⟨hlow, hhigh⟩ := hbounds unit (by rw [hunits]; exact List.mem_cons_self ..)
      rw [List.flatMap_cons, List.append_assoc, List.cons_append, List.cons_append,
        List.cons_prefix_cons, List.cons_prefix_cons]
      rintro ⟨hfirst, hsecond, -⟩
      have hremainder := toNat_lowByte unit
      have hquotient := toNat_highByte hhigh
      rw [← hfirst] at hremainder
      rw [← hsecond] at hquotient
      have hzero : (0x00 : UInt8).toNat = 0 := rfl
      omega

/-- A declared text opens with `'<'`. -/
theorem DeclaresUtf16.head {text : List Char} (h : DeclaresUtf16 text) : ∃ rest, text = '<' :: rest := by
  obtain ⟨version, equals, quote, name, rest, rfl, -⟩ := h
  have hopen : "<?xml".toList = '<' :: "?xml".toList := by simp
  rw [hopen]
  exact ⟨_, List.cons_append⟩

/-! ## The sniffs -/

section
variable {bytes : Bytes}

theorem bomEncodingClass_utf8 (h : ∀ byte ∈ bytes, 0 < byte.toNat ∧ byte.toNat < 248) :
    bomEncodingClass bytes = .ok none := by
  have hfirst {first : UInt8} {more : Bytes} (hbad : first.toNat = 0 ∨ 248 ≤ first.toNat) :
      ¬ first :: more <+: bytes := by
    intro hstands
    have := h first (hstands.subset (List.mem_cons_self ..))
    omega
  rw [bomEncodingClass, if_neg (not_or.mpr ⟨hfirst (.inr (by decide)), hfirst (.inl (by decide))⟩),
    if_neg (hfirst (.inr (by decide))), if_neg (hfirst (.inr (by decide)))]
  rfl

theorem sniffLessThanEndianness_utf8 (h : ∀ byte ∈ bytes, 0 < byte.toNat ∧ byte.toNat < 248) :
    sniffLessThanEndianness bytes = .singleByte := by
  have hzero : (0x00 : UInt8) ∉ bytes := fun hmem => absurd (h _ hmem).1 (by decide)
  rw [sniffLessThanEndianness]
  split
  · rename_i first second rest hdrop
    have hmem {byte : UInt8} (hin : byte ∈ first :: second :: rest) : byte ≠ 0x00 := by
      rintro rfl
      rw [← hdrop] at hin
      exact hzero ((List.dropWhile_sublist _).subset hin)
    rw [if_neg fun hle => hmem (by simp) hle.2, if_neg fun hbe => hmem (by simp) hbe.1]
  · rfl

/-- What is made of a value, by the names in it. -/
theorem declaredClass_iff {value : Bytes} (encoding : RawEncodingClass) :
    declaredClass bytes (asciiUpper value) = encoding ↔
      if Names value "UTF-16" then
        if Names value "LE" then encoding = .utf16Le
        else if Names value "BE" then encoding = .utf16Be
        else sniffLessThanEndianness bytes = encoding
      else encoding = .singleByte := by
  have hnames {name : String} (hne : utf8 name ≠ []) :
      find (asciiUpper value) (utf8 name) 0 = none ↔ ¬ Names value name := find_eq_none_iff hne
  have hutf : utf8 "UTF-16" ≠ [] := by decide
  have hle : utf8 "LE" ≠ [] := by decide
  have hbe : utf8 "BE" ≠ [] := by decide
  simp only [declaredClass, ne_eq, hnames hutf, hnames hle, hnames hbe]
  by_cases hutf : Names value "UTF-16"
  · by_cases hle : Names value "LE"
    · simp [hutf, hle, eq_comm]
    · by_cases hbe : Names value "BE"
      · simp [hutf, hle, hbe, eq_comm]
      · simp [hutf, hle, hbe]
  · simp [hutf, eq_comm]

theorem detectEncodingClass_unmarked (h : bomEncodingClass bytes = .ok none) :
    detectEncodingClass bytes = .ok (declarationEncodingClass bytes) := by
  rw [detectEncodingClass, h]
  rfl

theorem detectEncodingClass_marked {encoding : RawEncodingClass}
    (h : bomEncodingClass bytes = .ok (some encoding)) : detectEncodingClass bytes = .ok encoding := by
  rw [detectEncodingClass, h]
  rfl

/-- Bytes are taken for bytes where no value names a UTF-16 with a byte order. -/
theorem declarationEncodingClass_singleByte (hsniff : sniffLessThanEndianness bytes = .singleByte) :
    declarationEncodingClass bytes = .singleByte ↔ ∀ value, Spells (bytes.take 300) value →
      ¬ (Names value "UTF-16" ∧ (Names value "LE" ∨ Names value "BE")) := by
  have hclass (value : Bytes) : declaredClass bytes (asciiUpper value) = .singleByte ↔
      ¬ (Names value "UTF-16" ∧ (Names value "LE" ∨ Names value "BE")) := by
    rw [declaredClass_iff, hsniff]
    by_cases hle : Names value "LE"
    · simp [hle]
    · simp [hle]
  refine ⟨fun h value hvalue => ?_, fun h => ?_⟩
  · rwa [declarationEncodingClass_spells hvalue, hclass] at h
  · by_cases hspells : ∃ value, Spells (bytes.take 300) value
    · obtain ⟨value, hvalue⟩ := hspells
      rw [declarationEncodingClass_spells hvalue, hclass]
      exact h value hvalue
    · exact declarationEncodingClass_silent (not_exists.mp hspells)

/-- Bytes are taken for units of two bytes where a value says so. -/
theorem declarationEncodingClass_wide {encoding : RawEncodingClass} (hwide : encoding ≠ .singleByte)
    {hint : Bytes → Prop}
    (hclass : ∀ value, declaredClass bytes (asciiUpper value) = encoding ↔ hint value) :
    declarationEncodingClass bytes = encoding ↔ ∃ value, Spells (bytes.take 300) value ∧ hint value := by
  refine ⟨fun h => ?_, fun ⟨value, hvalue, hhint⟩ => ?_⟩
  · by_cases hspells : ∃ value, Spells (bytes.take 300) value
    · obtain ⟨value, hvalue⟩ := hspells
      rw [declarationEncodingClass_spells hvalue, hclass] at h
      exact ⟨value, hvalue, h⟩
    · rw [declarationEncodingClass_silent (not_exists.mp hspells)] at h
      exact absurd h.symm hwide
  · rw [declarationEncodingClass_spells hvalue, hclass]
    exact hhint

end

/-! ## When the encoding is detected -/

/-- The first bytes of a document say its encoding, or do not gainsay it. -/
def Document.Recognised (document : Document) : Prop :=
  match document.encoding, document.marked with
  | .singleByte, _ => ∀ value, Spells (document.bytes.take 300) value →
      ¬ (Names value "UTF-16" ∧ (Names value "LE" ∨ Names value "BE"))
  | .utf16Le, false => ∃ value, Spells (document.bytes.take 300) value ∧
      Names value "UTF-16" ∧ (Names value "LE" ∨ ¬ Names value "BE")
  | .utf16Be, false => ∃ value, Spells (document.bytes.take 300) value ∧
      Names value "UTF-16" ∧ ¬ Names value "LE"
  | _, true => True

/-- A byte order mark of two bytes is trusted. -/
theorem bomEncodingClass_marked {encoding : RawEncodingClass} (hwide : encoding ≠ .singleByte)
    {text : List Char} (h : ∀ c ∈ text, isXmlChar c = true) :
    bomEncodingClass (byteOrderMark encoding ++ encode encoding text) = .ok (some encoding) := by
  cases encoding with
  | singleByte => exact absurd rfl hwide
  | utf16Le =>
    have hzeros := utf16_no_zeros h
    simp [bomEncodingClass, byteOrderMark, hzeros]
    rfl
  | utf16Be =>
    simp [bomEncodingClass, byteOrderMark]
    rfl

/-- The bytes of a document in UTF-8 are no zeros, and none that opens another byte order mark. -/
theorem Document.WellFormed.bounds {document : Document} (h : document.WellFormed)
    (hsingle : document.encoding = .singleByte) :
    ∀ byte ∈ document.bytes, 0 < byte.toNat ∧ byte.toNat < 248 := by
  obtain ⟨encoding, marked, text⟩ := document
  obtain rfl : encoding = .singleByte := hsingle
  intro byte hbyte
  rcases List.mem_append.mp hbyte with hmark | htext
  · have hmem : byte ∈ byteOrderMark .singleByte := by
      cases marked with
      | false => cases hmark
      | true => exact hmark
    exact (by decide : ∀ byte ∈ byteOrderMark .singleByte, 0 < byte.toNat ∧ byte.toNat < 248) byte hmem
  · exact utf8_bounds h.allowed byte htext

/-- In UTF-8 some encoding is detected, the right one where the document is recognised. -/
theorem detected_singleByte {document : Document} (h : document.WellFormed)
    (hsingle : document.encoding = .singleByte) :
    detectEncodingClass document.bytes = .ok (declarationEncodingClass document.bytes) ∧
      (declarationEncodingClass document.bytes = .singleByte ↔ document.Recognised) := by
  have hbytes := h.bounds hsingle
  refine ⟨detectEncodingClass_unmarked (bomEncodingClass_utf8 hbytes), ?_⟩
  rw [declarationEncodingClass_singleByte (sniffLessThanEndianness_utf8 hbytes)]
  obtain ⟨encoding, marked, text⟩ := document
  obtain rfl : encoding = .singleByte := hsingle
  rfl

/-- In UTF-16 with a byte order mark the encoding is detected. -/
theorem detected_marked {document : Document} (h : document.WellFormed)
    (hwide : document.encoding ≠ .singleByte) (hmarked : document.marked = true) :
    detectEncodingClass document.bytes = .ok document.encoding ∧ document.Recognised := by
  obtain ⟨encoding, marked, text⟩ := document
  obtain rfl : marked = true := hmarked
  have hbom := bomEncodingClass_marked hwide h.allowed
  cases encoding with
  | singleByte => exact absurd rfl hwide
  | utf16Le => exact ⟨detectEncodingClass_marked hbom, trivial⟩
  | utf16Be => exact ⟨detectEncodingClass_marked hbom, trivial⟩

/-- **The encoding is detected exactly where the document is recognised.** -/
theorem encoding_detected_iff (document : Document) (hdocument : document.WellFormed) :
    detectEncodingClass document.bytes = .ok document.encoding ↔ document.Recognised := by
  by_cases hsingle : document.encoding = .singleByte
  · obtain ⟨hdetected, hrecognised⟩ := detected_singleByte hdocument hsingle
    rw [hdetected, hsingle, Except.ok.injEq, hrecognised]
  · obtain ⟨encoding, marked, text⟩ := document
    obtain ⟨hallowed, hdeclared⟩ := hdocument
    cases marked with
    | true =>
      obtain ⟨hdetected, hrecognised⟩ := detected_marked ⟨hallowed, hdeclared⟩ hsingle rfl
      exact iff_of_true hdetected hrecognised
    | false =>
      obtain ⟨rest, rfl⟩ := (hdeclared hsingle rfl).head
      cases encoding with
      | singleByte => exact absurd rfl hsingle
      | utf16Le =>
        have hbom : bomEncodingClass (0x3C :: 0x00 :: encode .utf16Le rest) = .ok none := by
          simp [bomEncodingClass]
          rfl
        have hsniff : sniffLessThanEndianness (0x3C :: 0x00 :: encode .utf16Le rest) = .utf16Le := rfl
        have hbytes : Document.bytes ⟨.utf16Le, false, '<' :: rest⟩ =
            0x3C :: 0x00 :: encode .utf16Le rest := rfl
        rw [hbytes, detectEncodingClass_unmarked hbom, Except.ok.injEq]
        refine declarationEncodingClass_wide hsingle fun value => ?_
        rw [declaredClass_iff, hsniff]
        by_cases hle : Names value "LE"
        · simp [hle]
        · simp [hle]
      | utf16Be =>
        have hbom : bomEncodingClass (0x00 :: 0x3C :: encode .utf16Be rest) = .ok none := by
          simp [bomEncodingClass]
          rfl
        have hsniff : sniffLessThanEndianness (0x00 :: 0x3C :: encode .utf16Be rest) = .utf16Be := rfl
        have hbytes : Document.bytes ⟨.utf16Be, false, '<' :: rest⟩ =
            0x00 :: 0x3C :: encode .utf16Be rest := rfl
        rw [hbytes, detectEncodingClass_unmarked hbom, Except.ok.injEq]
        refine declarationEncodingClass_wide hsingle fun value => ?_
        rw [declaredClass_iff, hsniff]
        by_cases hle : Names value "LE"
        · simp [hle]
        · simp [hle]

def markedDocument : Document :=
  ⟨.singleByte, true, "<?xml version=\"1.0\" encoding=\"UTF-8\"?><a/>".toList⟩

theorem encoding_detected_iff_marked : markedDocument.Recognised :=
  (encoding_detected_iff markedDocument ⟨by decide, nofun⟩).mp rfl

/-- The keyword in an attribute. -/
def attributeDocument : Document :=
  ⟨.singleByte, false, "<?xml version=\"1.0\"?><a encoding=\"UTF-16LE\"/>".toList⟩

/-- The keyword in units of two bytes. -/
def declaredDocument : Document :=
  ⟨.utf16Le, false, "<?xml version=\"1.0\" encoding=\"UTF-16\"?><a/>".toList⟩

theorem encoding_misjudged : attributeDocument.WellFormed ∧
    detectEncodingClass attributeDocument.bytes = .ok .utf16Le ∧ declaredDocument.WellFormed ∧
    detectEncodingClass declaredDocument.bytes = .ok .singleByte := by
  refine ⟨⟨by decide, nofun⟩, rfl, ⟨by decide, fun _ _ => ?_⟩, rfl⟩
  exact ⟨" version=\"1.0\" ".toList, ['='], '"', "UTF-16".toList, "?><a/>".toList, by decide,
    by decide, by decide⟩

/-! ## Narrow characters -/

/-- Of two bytes in a row one is zero. -/
def Sparse (bytes : Bytes) : Prop := bytes.IsChain fun first second => first = 0 ∨ second = 0

theorem sparse_encode {encoding : RawEncodingClass} (hwide : encoding ≠ .singleByte) {text : List Char}
    (h : ∀ c ∈ text, c.toNat < 256) : Sparse (encode encoding text) := by
  induction text with
  | nil => exact .nil
  | cons c text ih =>
    obtain ⟨hc, htext⟩ := List.forall_mem_cons.mp h
    have hrest := ih htext
    have hunits : utf16 c = [c.toNat] := if_pos (by omega)
    have hhigh : highByte c.toNat = 0 := by
      rw [highByte, Nat.div_eq_of_lt hc]
      rfl
    rw [Sparse, encode_cons]
    cases encoding with
    | singleByte => exact absurd rfl hwide
    | utf16Le =>
      rw [encodeChar, hunits, List.flatMap_singleton, hhigh]
      refine List.isChain_cons_cons.mpr ⟨.inr rfl, List.isChain_cons.mpr ⟨fun _ _ => .inl rfl, hrest⟩⟩
    | utf16Be =>
      rw [encodeChar, hunits, List.flatMap_singleton, hhigh]
      refine List.isChain_cons_cons.mpr ⟨.inl rfl, List.isChain_cons.mpr ⟨fun next hnext => ?_, hrest⟩⟩
      cases text with
      | nil => cases hnext
      | cons other text =>
        obtain ⟨hother, -⟩ := List.forall_mem_cons.mp htext
        have hunits' : utf16 other = [other.toNat] := if_pos (by omega)
        rw [encode_cons, encodeChar, hunits', List.flatMap_singleton] at hnext
        obtain rfl := Option.some.inj hnext
        rw [highByte, Nat.div_eq_of_lt hother]
        exact .inr rfl

/-- In units of two bytes narrow characters spell nothing. -/
theorem narrow_missed {document : Document} (hmarked : document.marked = false)
    (hwide : document.encoding ≠ .singleByte) (h : ∀ c ∈ document.text, c.toNat < 256) :
    ¬ document.Recognised := by
  have hsilent : ∀ value, ¬ Spells (document.bytes.take 300) value := by
    rintro value ⟨before, between, quote, rest, hhead, -⟩
    have hsparse : Sparse document.bytes := by
      rw [Document.bytes, hmarked]
      exact sparse_encode hwide h
    have hkey : utf8 "encoding" <:+: document.bytes :=
      List.IsInfix.trans ⟨before, _, (List.append_assoc ..).trans hhead.symm⟩
        (List.take_prefix 300 document.bytes).isInfix
    have hchain := hsparse.infix hkey
    revert hchain
    decide
  rw [Document.Recognised, hmarked]
  cases hencoding : document.encoding with
  | singleByte => exact absurd hencoding hwide
  | utf16Le => exact fun ⟨value, hvalue, _⟩ => hsilent value hvalue
  | utf16Be => exact fun ⟨value, hvalue, _⟩ => hsilent value hvalue

end ParseX.Loader

import Mathlib.Data.Option.Basic
import ParseX.Raw.MarkupScan

/-! # Tags

The scanner reads a well-formed tag to its `'>'` once it stands at its `'<'`. -/
namespace ParseX.Loader
open Cpp

/-! ## Well-formed tags -/

def isNameStart (c : Char) : Bool :=
  ('A'.toNat ≤ c.toNat && c.toNat ≤ 'Z'.toNat) || ('a'.toNat ≤ c.toNat && c.toNat ≤ 'z'.toNat) ||
    c == '_' || c == ':'

def isNameChar (c : Char) : Bool :=
  isNameStart c || ('0'.toNat ≤ c.toNat && c.toNat ≤ '9'.toNat) || c == '-' || c == '.'

/-- A name of ASCII letters. -/
def IsName (name : String) : Prop :=
  ∃ first more, name.toList = first :: more ∧ isNameStart first = true ∧ ∀ c ∈ more, isNameChar c = true

/-- What follows the name: white space first, and no `'<'`, `'>'` or `'/'` outside the values. -/
structure IsAttributes (attributes : List Char) : Prop where
  literals : Literals ['"', '\'', '<', '>', '/'] attributes
  space : ∀ c ∈ attributes.head?, isBlank c = true

def closing (selfClosed : Bool) : List Char := if selfClosed then ['/', '>'] else ['>']

def startTag (name : String) (attributes : List Char) (selfClosed : Bool) : List Char :=
  '<' :: (name.toList ++ (attributes ++ closing selfClosed))

def endTag (name : String) (space : List Char) : List Char :=
  '<' :: '/' :: (name.toList ++ (space ++ ['>']))

section
variable {name : String} {c : Char}

theorem isNameStart_ascii (h : isNameStart c = true) : c.toNat < 128 := by
  have hupper : 'Z'.toNat < 128 := by decide
  have hlower : 'z'.toNat < 128 := by decide
  simp only [isNameStart, Bool.or_eq_true, Bool.and_eq_true, decide_eq_true_eq, beq_iff_eq] at h
  rcases h with ((⟨-, hle⟩ | ⟨-, hle⟩) | rfl) | rfl
  · omega
  · omega
  · decide
  · decide

theorem isNameChar_ascii (h : isNameChar c = true) : c.toNat < 128 := by
  have hdigit : '9'.toNat < 128 := by decide
  rw [isNameChar, Bool.or_eq_true, Bool.or_eq_true, Bool.or_eq_true] at h
  rcases h with ((hstart | hrange) | hmark) | hmark
  · exact isNameStart_ascii hstart
  · rw [Bool.and_eq_true, decide_eq_true_eq, decide_eq_true_eq] at hrange
    omega
  · rw [beq_iff_eq.mp hmark]
    decide
  · rw [beq_iff_eq.mp hmark]
    decide

theorem isNameChar_of_isNameStart (h : isNameStart c = true) : isNameChar c = true := by
  rw [isNameChar, h]
  rfl

theorem IsName.chars (h : IsName name) : ∀ c ∈ name.toList, isNameChar c = true := by
  obtain ⟨first, more, hname, hfirst, hmore⟩ := h
  rw [hname]
  exact List.forall_mem_cons.mpr ⟨isNameChar_of_isNameStart hfirst, hmore⟩

theorem IsName.ascii (h : IsName name) : ∀ c ∈ name.toList, c.toNat < 128 :=
  fun c hc => isNameChar_ascii (h.chars c hc)

theorem IsName.requireAsciiName (h : IsName name) : Loader.requireAsciiName name = true :=
  List.all_eq_true.mpr fun c hc => decide_eq_true (h.ascii c hc)

/-- A name opens with none of the marks that stand behind the `'<'` of other markup. -/
theorem IsName.head (h : IsName name) (rest : List Char) {mark : Char} (hmark : isNameStart mark = false) :
    (name.toList ++ rest).head? ≠ some mark := by
  obtain ⟨first, more, hname, hfirst, -⟩ := h
  rw [hname]
  rintro ⟨rfl⟩
  rw [hfirst] at hmark
  cases hmark

theorem opensTag_startTag (h : IsName name) (attributes rest : List Char) (selfClosed : Bool) :
    OpensTag (startTag name attributes selfClosed ++ rest) := by
  refine ⟨name.toList ++ (attributes ++ closing selfClosed) ++ rest, rfl, ?_, ?_⟩
  · rw [List.append_assoc]
    exact h.head _ (by decide)
  · rw [List.append_assoc]
    exact h.head _ (by decide)

theorem opensTag_endTag (name : String) (space rest : List Char) :
    OpensTag (endTag name space ++ rest) :=
  ⟨'/' :: (name.toList ++ (space ++ ['>'])) ++ rest, rfl, by simp, by simp⟩

end

section
variable {bytes : Bytes} {encoding : RawEncodingClass} {pos next : Nat} {gap rest : List Char}
  {name : String}

/-- The tag behind a text is met where the text is passed. -/
theorem tagAt_iff (hrest : OpensTag rest) :
    TagAt encoding pos (gap ++ rest) (pos + size encoding gap) ↔ Passed gap := by
  constructor
  · rintro ⟨gap', rest', htext, hgap, -, hsize⟩
    rw [size_inj htext (Nat.add_left_cancel hsize)]
    exact hgap
  · intro hgap
    exact ⟨gap, rest, rfl, hgap, hrest, rfl⟩

/-! ## Start tags -/

theorem Reads.quotedEnd {quote : Char} {content : List Char} (hquote : quote.toNat < 128)
    (hcontent : quote ∉ content) : ∀ {pos}, Reads bytes encoding pos (content ++ quote :: rest) →
      quotedEnd bytes encoding (some quote.toUInt8) pos = some (pos + size encoding (content ++ [quote])) := by
  induction content with
  | nil =>
    intro pos h
    have hunit : Loader.unitIs bytes encoding pos quote = true := (h.unitIs_head hquote).mpr rfl
    rw [Loader.quotedEnd, if_pos h.lt, if_pos (beq_iff_eq.mp hunit), List.nil_append,
      size_ascii encoding hquote]
  | cons c content ih =>
    rw [List.mem_cons, not_or] at hcontent
    intro pos h
    have hwalk : Loader.quotedEnd bytes encoding (some quote.toUInt8) pos =
        Loader.quotedEnd bytes encoding (some quote.toUInt8) (pos + size encoding [c]) := by
      refine h.walk fun place hlt hmarks => ?_
      have hunit := hmarks quote hquote (Ne.symm hcontent.1)
      rw [Loader.quotedEnd, if_pos hlt, if_neg (beq_eq_false_iff_ne.mp hunit)]
    rw [hwalk, ih hcontent.2 h.past_char, List.cons_append,
      size_cons encoding c (content ++ [quote]), Nat.add_assoc]

theorem Reads.skipQuoted {quote : Char} {content : List Char} (hquote : quote.toNat < 128)
    (hcontent : quote ∉ content) (h : Reads bytes encoding pos (quote :: (content ++ quote :: rest))) :
    skipQuoted bytes encoding pos = some (pos + size encoding (quote :: (content ++ [quote]))) := by
  have hunit : Loader.unitIs bytes encoding pos quote = true := (h.unitIs_head hquote).mpr rfl
  rw [Loader.skipQuoted, beq_iff_eq.mp hunit, (h.tail hquote).quotedEnd hquote hcontent,
    size_cons encoding quote, size_ascii encoding hquote, Nat.add_assoc]

theorem tagEnd_quoted (hlt : pos < bytes.length)
    (hquote : (unitIs bytes encoding pos '"' || unitIs bytes encoding pos '\'') = true) :
    tagEnd bytes encoding pos = (skipQuoted bytes encoding pos).bind (tagEnd bytes encoding) := by
  rw [tagEnd, if_pos hlt, if_pos hquote]
  split
  · rename_i hnext
    rw [hnext, Option.bind_some]
  · rename_i hnext
    rw [hnext, Option.bind_none]

/-- Attributes are passed, whatever their values hold. -/
theorem Literals.tagEnd {attributes : List Char} (h : Literals ['"', '\'', '<', '>', '/'] attributes) :
    ∀ {pos}, Reads bytes encoding pos (attributes ++ rest) →
      tagEnd bytes encoding pos = tagEnd bytes encoding (pos + size encoding attributes) := by
  induction h with
  | nil =>
    intro pos _
    rw [size_nil, Nat.add_zero]
  | @plain c text hc _ ih =>
    intro pos hread
    have hother {mark : Char} (hmark : mark ∈ ['"', '\'', '<', '>', '/']) : c ≠ mark := by
      rintro rfl
      exact hc hmark
    have hwalk : Loader.tagEnd bytes encoding pos =
        Loader.tagEnd bytes encoding (pos + size encoding [c]) := by
      refine hread.walk fun place hlt hmarks => ?_
      rw [Loader.tagEnd, if_pos hlt, hmarks '"' (by decide) (hother (by decide)),
        hmarks '\'' (by decide) (hother (by decide)), hmarks '>' (by decide) (hother (by decide)),
        hmarks '/' (by decide) (hother (by decide))]
      rfl
    rw [hwalk, ih hread.past_char, size_cons encoding c text, Nat.add_assoc]
  | @literal quote content text hquote hcontent _ ih =>
    intro pos hread
    rw [List.cons_append, List.append_assoc, List.cons_append] at hread
    have hascii := ascii_of_isQuote hquote
    have hopen : (unitIs bytes encoding pos '"' || unitIs bytes encoding pos '\'') = true := by
      rw [Bool.or_eq_true, hread.unitIs_head (by decide), hread.unitIs_head (by decide)]
      exact isQuote_iff.mp hquote
    have hvalue : quote :: (content ++ quote :: text) = (quote :: (content ++ [quote])) ++ text := by simp
    have hrest : Reads bytes encoding (pos + size encoding (quote :: (content ++ [quote]))) (text ++ rest) :=
      Reads.past (by simpa using hread)
    rw [tagEnd_quoted hread.lt hopen, hread.skipQuoted hascii hcontent, Option.bind_some, ih hrest,
      hvalue, size_append, Nat.add_assoc]

theorem tagEnd_closing {selfClosed : Bool} (h : Reads bytes encoding pos (closing selfClosed ++ rest)) :
    tagEnd bytes encoding pos = some (pos + size encoding (closing selfClosed), selfClosed) := by
  cases selfClosed with
  | false =>
    have hfirst : Reads bytes encoding pos ('>' :: rest) := h
    have hsize : size encoding (closing false) = unitWidth encoding := size_ascii encoding (by decide)
    rw [tagEnd, if_pos hfirst.lt, hfirst.unitIs (by decide), hfirst.unitIs (by decide),
      hfirst.unitIs (by decide), hsize]
    rfl
  | true =>
    have hfirst : Reads bytes encoding pos ('/' :: '>' :: rest) := h
    have hsize : size encoding (closing true) = 2 * unitWidth encoding := size_of_ascii encoding (by decide)
    rw [tagEnd, if_pos hfirst.lt, hfirst.unitIs (by decide), hfirst.unitIs (by decide),
      hfirst.unitIs (by decide), hfirst.unitIs (by decide), (hfirst.tail (by decide)).unitIs (by decide),
      hsize]
    rfl

theorem guard_bind {α : Type} (p : Prop) [Decidable p] (next : Unit → Option α) :
    (guard p >>= next) = if p then next () else none := by
  by_cases hp : p
  · rw [if_pos hp, guard, if_pos hp]
    rfl
  · rw [if_neg hp, guard, if_neg hp]
    rfl

theorem scanStartTag_openPos {bounds : StartTagBounds}
    (h : scanStartTag bytes encoding pos name = some bounds) :
    nextMarkup bytes encoding pos = some bounds.openPos := by
  rw [scanStartTag, guard_bind] at h
  split at h
  · obtain ⟨scanPos, hscan, h⟩ := Option.bind_eq_some_iff.mp h
    rw [guard_bind] at h
    split at h
    · dsimp only at h
      rw [guard_bind] at h
      split at h
      · rw [guard_bind] at h
        split at h
        · obtain ⟨bounds', -, h⟩ := Option.bind_eq_some_iff.mp h
          rw [← Option.some.inj h]
          exact hscan
        · cases h
      · cases h
    · cases h
  · cases h

theorem ascii_of_isBlank {c : Char} (h : isBlank c = true) : c.toNat < 128 := by
  simp only [isBlank, Bool.or_eq_true, beq_iff_eq] at h
  rcases h with ((rfl | rfl) | rfl) | rfl
  all_goals decide

theorem Reads.unitIsSpace {c : Char} (h : Reads bytes encoding pos (c :: rest)) :
    unitIsSpace bytes encoding pos = isBlank c := by
  rw [Loader.unitIsSpace, h.unitIs (by decide), h.unitIs (by decide), h.unitIs (by decide),
    h.unitIs (by decide)]
  rfl

/-- At the tag that is sought the scan gives its bounds. -/
theorem scanStartTag_of {cursor : Nat} {attributes : List Char} {selfClosed : Bool} (hname : IsName name)
    (hattributes : IsAttributes attributes)
    (h : Reads bytes encoding pos (startTag name attributes selfClosed ++ rest))
    (hnext : nextMarkup bytes encoding cursor = some pos) :
    scanStartTag bytes encoding cursor name =
      some ⟨pos, pos + size encoding (startTag name attributes selfClosed), selfClosed⟩ := by
  have hopen : Reads bytes encoding pos
      ('<' :: (name.toList ++ (attributes ++ (closing selfClosed ++ rest)))) := by
    simpa [startTag] using h
  have hletters : Reads bytes encoding (pos + unitWidth encoding)
      (name.toList ++ (attributes ++ (closing selfClosed ++ rest))) := hopen.tail (by decide)
  have hafter := hletters.past
  rw [size_of_ascii encoding hname.ascii] at hafter
  have hslash : (!unitIs bytes encoding (pos + unitWidth encoding) '/') = true := by
    rw [hletters.unitIs (by decide), beq_false_of_ne (hname.head _ (by decide))]
    rfl
  have hmatch : matchLiteral bytes encoding (pos + unitWidth encoding) name.toList = true := by
    rw [hletters.matchLiteral hname.ascii]
    exact List.isPrefixOf_iff_prefix.mpr (List.prefix_append _ _)
  have hends : (unitIsSpace bytes encoding (pos + unitWidth encoding + name.toList.length * unitWidth encoding) ||
      unitIs bytes encoding (pos + unitWidth encoding + name.toList.length * unitWidth encoding) '/' ||
      unitIs bytes encoding (pos + unitWidth encoding + name.toList.length * unitWidth encoding) '>') = true := by
    rw [Bool.or_eq_true, Bool.or_eq_true]
    cases hfirst : attributes with
    | nil =>
      rw [hfirst] at hafter
      cases selfClosed with
      | false => exact .inr ((hafter.unitIs_head (by decide)).mpr rfl)
      | true => exact .inl (.inr ((hafter.unitIs_head (by decide)).mpr rfl))
    | cons c more =>
      rw [hfirst] at hafter
      exact .inl (.inl (hafter.unitIsSpace.trans (hattributes.space c (by rw [hfirst]; rfl))))
  have hsize : pos + unitWidth encoding + name.toList.length * unitWidth encoding + size encoding attributes +
      size encoding (closing selfClosed) = pos + size encoding (startTag name attributes selfClosed) := by
    rw [startTag, size_cons, size_append, size_append, size_ascii encoding (by decide),
      size_of_ascii encoding hname.ascii]
    omega
  rw [scanStartTag, guard_bind, if_pos hname.requireAsciiName, hnext]
  show ((guard (!unitIs bytes encoding (pos + unitWidth encoding) '/') : Option Unit) >>= _) = _
  rw [guard_bind, if_pos hslash]
  dsimp only
  rw [guard_bind, if_pos hmatch, guard_bind, if_pos hends, hattributes.literals.tagEnd hafter,
    tagEnd_closing hafter.past, hsize]
  rfl

/-- **A start tag is bounded as it stands exactly where all before it is passed.** -/
theorem scanStartTag_iff (bounds : StartTagBounds) {attributes : List Char} {selfClosed : Bool}
    (hname : IsName name) (hattributes : IsAttributes attributes)
    (h : Reads bytes encoding pos (gap ++ (startTag name attributes selfClosed ++ rest))) :
    scanStartTag bytes encoding pos name = some bounds ∧ bounds.openPos = pos + size encoding gap ↔
      Passed gap ∧ bounds = ⟨pos + size encoding gap,
        pos + size encoding gap + size encoding (startTag name attributes selfClosed), selfClosed⟩ := by
  have hopens := opensTag_startTag hname attributes rest selfClosed
  have hfound : nextMarkup bytes encoding pos = some (pos + size encoding gap) ↔ Passed gap :=
    (nextMarkup_iff h).trans (tagAt_iff hopens)
  constructor
  · rintro ⟨hscan, hplace⟩
    have hnext := scanStartTag_openPos hscan
    rw [hplace] at hnext
    rw [scanStartTag_of hname hattributes h.past hnext] at hscan
    exact ⟨hfound.mp hnext, (Option.some.inj hscan).symm⟩
  · rintro ⟨hgap, rfl⟩
    exact ⟨scanStartTag_of hname hattributes h.past (hfound.mpr hgap), rfl⟩

/-! ## End tags -/

theorem Reads.pastSpace : ∀ {pos}, Reads bytes encoding pos rest →
    pastSpace bytes encoding pos = pos + size encoding (rest.takeWhile isBlank) := by
  induction rest with
  | nil =>
    intro pos h
    rw [Loader.pastSpace, decide_eq_false (Nat.not_lt.mpr h.le)]
    rfl
  | cons c rest ih =>
    intro pos h
    rw [Loader.pastSpace, h.unitIsSpace, List.takeWhile_cons]
    by_cases hc : isBlank c = true
    · have hascii := ascii_of_isBlank hc
      rw [if_pos (by simp [h.lt, hc]), if_pos hc, ih (h.tail hascii),
        size_cons encoding c, size_ascii encoding hascii, Nat.add_assoc]
    · rw [if_neg (by simp [hc]), if_neg hc]
      rfl

theorem Reads.exists_cons {mark : Char} {text : List Char} (hmark : mark.toNat < 128)
    (h : Reads bytes encoding pos text) (hunit : Loader.unitIs bytes encoding pos mark = true) :
    ∃ more, text = mark :: more := by
  rw [h.unitIs hmark, beq_iff_eq] at hunit
  exact List.head?_eq_some_iff.mp hunit

theorem size_endTag (hname : IsName name) (space : List Char) : size encoding (endTag name space) =
    unitWidth encoding + unitWidth encoding + name.toList.length * unitWidth encoding +
      size encoding space + unitWidth encoding := by
  rw [endTag, size_cons, size_cons encoding '/', size_append, size_append, size_ascii encoding (by decide),
    size_ascii encoding (by decide), size_ascii encoding (by decide), size_of_ascii encoding hname.ascii]
  omega

/-- A scan that finds an end tag has met one of the name. -/
theorem scanEndTag_some {text : List Char} (hname : IsName name) (h : Reads bytes encoding pos text)
    (hscan : scanEndTag bytes encoding pos name = some next) :
    ∃ gap space rest, text = gap ++ (endTag name space ++ rest) ∧ Passed gap ∧
      (∀ c ∈ space, isBlank c = true) ∧ next = pos + size encoding (gap ++ endTag name space) := by
  rw [scanEndTag, guard_bind, if_pos hname.requireAsciiName] at hscan
  obtain ⟨place, hplace, hscan⟩ := Option.bind_eq_some_iff.mp hscan
  obtain ⟨gap, opened, rfl, hgap, ⟨tail, rfl, -⟩, rfl⟩ := (nextMarkup_iff h).mp hplace
  have hopen := h.past
  dsimp only at hscan
  rw [guard_bind] at hscan
  split at hscan
  · rename_i hslash
    obtain ⟨letters, rfl⟩ := (hopen.tail (by decide)).exists_cons (by decide) hslash
    have hletters := (hopen.tail (by decide)).tail (by decide)
    rw [guard_bind] at hscan
    split at hscan
    · rename_i hmatch
      rw [hletters.matchLiteral hname.ascii] at hmatch
      obtain ⟨more, rfl⟩ := List.isPrefixOf_iff_prefix.mp hmatch
      have hmore := hletters.past
      rw [size_of_ascii encoding hname.ascii] at hmore
      rw [hmore.pastSpace, guard_bind] at hscan
      split at hscan
      · rename_i hgreater
        have hblank : ∀ c ∈ more.takeWhile isBlank, isBlank c = true :=
          fun c hc => List.mem_takeWhile_imp hc
        have hsplit : more.takeWhile isBlank ++ more.dropWhile isBlank = more :=
          List.takeWhile_append_dropWhile
        obtain ⟨rest, hrest⟩ := (Reads.past (hsplit.symm ▸ hmore)).exists_cons (by decide) hgreater
        rw [hrest] at hsplit
        refine ⟨gap, more.takeWhile isBlank, rest, ?_, hgap, hblank, ?_⟩
        · rw [endTag, List.cons_append, List.cons_append, List.append_assoc, List.append_assoc,
            List.singleton_append, hsplit]
        · rw [← Option.some.inj hscan, size_append, size_endTag hname]
          omega
      · cases hscan
    · cases hscan
  · cases hscan

/-- **An end tag is found where it stands exactly where all before it is passed.** -/
theorem scanEndTag_iff {space : List Char} (hname : IsName name) (hspace : ∀ c ∈ space, isBlank c = true)
    (h : Reads bytes encoding pos (gap ++ (endTag name space ++ rest))) :
    scanEndTag bytes encoding pos name = some (pos + size encoding (gap ++ endTag name space)) ↔
      Passed gap := by
  have hnot {space : List Char} (hspace : ∀ c ∈ space, isBlank c = true) :
      '<' ∉ '/' :: (name.toList ++ (space ++ ['>'])) := by
    intro hmem
    rcases List.mem_append.mp ((List.mem_cons.mp hmem).resolve_left (by decide)) with hletter | hmem
    · exact absurd (hname.chars _ hletter) (by decide)
    · rcases List.mem_append.mp hmem with hblank | hlast
      · exact absurd (hspace _ hblank) (by decide)
      · exact absurd (List.mem_singleton.mp hlast) (by decide)
  constructor
  · intro hscan
    obtain ⟨gap', space', rest', htext, hgap, hspace', hsize⟩ := scanEndTag_some hname h hscan
    rw [← List.append_assoc, ← List.append_assoc] at htext
    have htags := size_inj htext (Nat.add_left_cancel hsize)
    obtain ⟨rfl, -⟩ := Words.split_last_unique (hnot hspace) (hnot hspace') htags
    exact hgap
  · intro hgap
    have hopens := opensTag_endTag name space rest
    have hnext : nextMarkup bytes encoding pos = some (pos + size encoding gap) :=
      (nextMarkup_iff h).mpr ((tagAt_iff hopens).mpr hgap)
    have hopen : Reads bytes encoding (pos + size encoding gap)
        ('<' :: '/' :: (name.toList ++ (space ++ '>' :: rest))) := by
      simpa [endTag] using h.past
    have hletters := (hopen.tail (by decide)).tail (by decide)
    have hslash : unitIs bytes encoding (pos + size encoding gap + unitWidth encoding) '/' = true :=
      ((hopen.tail (by decide)).unitIs_head (by decide)).mpr rfl
    have hmatch : matchLiteral bytes encoding (pos + size encoding gap + unitWidth encoding + unitWidth encoding)
        name.toList = true := by
      rw [hletters.matchLiteral hname.ascii]
      exact List.isPrefixOf_iff_prefix.mpr (List.prefix_append _ _)
    have hafter := hletters.past
    rw [size_of_ascii encoding hname.ascii] at hafter
    have hblank : (space ++ '>' :: rest).takeWhile isBlank = space := by
      rw [List.takeWhile_append_of_pos hspace, List.takeWhile_cons_of_neg (by decide), List.append_nil]
    rw [scanEndTag, guard_bind, if_pos hname.requireAsciiName, hnext, Option.bind_eq_bind, Option.bind_some]
    dsimp only
    rw [guard_bind, if_pos hslash, guard_bind, if_pos hmatch, hafter.pastSpace, hblank, guard_bind,
      if_pos ((hafter.past.unitIs_head (by decide)).mpr rfl), size_append, size_endTag hname]
    show some _ = some _
    congr 1
    omega

end

end ParseX.Loader

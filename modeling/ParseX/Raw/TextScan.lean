import ParseX.Raw.Spans

/-! # Scans of a text

What a scan finds in the bytes of a text, whatever the text is, told by its characters: the same in
every encoding. -/
namespace ParseX.Loader
open Cpp

/-- The characters up to the end of a tag, behind its name, and whether the tag closes itself; a
quote that is open runs to the next of its kind. -/
def tagText : Option Char → List Char → Option (List Char × Bool)
  | _, [] => none
  | some quote, c :: text =>
    (tagText (if c = quote then none else some quote) text).map fun found => (c :: found.1, found.2)
  | none, c :: text =>
    if isQuote c then (tagText (some c) text).map fun found => (c :: found.1, found.2)
    else if c = '>' then some ([c], false)
    else if c = '/' ∧ text.head? = some '>' then some (['/', '>'], true)
    else (tagText none text).map fun found => (c :: found.1, found.2)

section
variable {bytes : Bytes} {encoding : RawEncodingClass} {pos : Nat} {text : List Char}

/-- One character of a tag outside its values. -/
theorem Reads.tagEnd_cons {c : Char} (h : Reads bytes encoding pos (c :: text)) (hopen : ¬ isQuote c = true) :
    tagEnd bytes encoding pos =
      if c = '>' then some (pos + size encoding ['>'], false)
      else if c = '/' ∧ text.head? = some '>' then some (pos + size encoding ['/', '>'], true)
      else tagEnd bytes encoding (pos + size encoding [c]) := by
  rw [isQuote_iff, not_or] at hopen
  by_cases hspecial : c = '>' ∨ c = '/'
  · have hascii : c.toNat < 128 := by
      rcases hspecial with rfl | rfl
      all_goals decide
    have hnext : Loader.unitIs bytes encoding (pos + unitWidth encoding) '>' = (text.head? == some '>') :=
      (h.tail hascii).unitIs (by decide)
    have htag : size encoding ['/', '>'] = 2 * unitWidth encoding := size_of_ascii encoding (by decide)
    rw [Loader.tagEnd, if_pos h.lt, h.unitIs (by decide), h.unitIs (by decide), h.unitIs (by decide),
      h.unitIs (by decide), hnext, size_ascii encoding hascii, htag]
    rcases hspecial with rfl | rfl
    · rw [if_pos rfl, size_ascii encoding (by decide)]
      rfl
    · by_cases hhead : text.head? = some '>'
      · simp [hhead]
      · simp [hhead]
  · obtain ⟨hgreater, hslash⟩ := not_or.mp hspecial
    rw [if_neg hgreater, if_neg fun hboth => hslash hboth.1]
    refine h.walk fun place hlt hmarks => ?_
    rw [Loader.tagEnd, if_pos hlt, hmarks '"' (by decide) hopen.1, hmarks '\'' (by decide) hopen.2,
      hmarks '>' (by decide) hgreater, hmarks '/' (by decide) hslash]
    rfl

/-- One character of a value. -/
theorem Reads.quotedEnd_cons {c quote : Char} (h : Reads bytes encoding pos (c :: text))
    (hquote : isQuote quote = true) : Loader.quotedEnd bytes encoding (some quote.toUInt8) pos =
      if c = quote then some (pos + size encoding [c])
      else Loader.quotedEnd bytes encoding (some quote.toUInt8) (pos + size encoding [c]) := by
  have hascii := ascii_of_isQuote hquote
  by_cases hc : c = quote
  · subst hc
    have hunit : Loader.unitIs bytes encoding pos c = true := (h.unitIs_head hascii).mpr rfl
    rw [Loader.quotedEnd, if_pos h.lt, if_pos (beq_iff_eq.mp hunit), if_pos rfl, size_ascii encoding hascii]
  · rw [if_neg hc]
    refine h.walk fun place hlt hmarks => ?_
    have hunit := hmarks quote hascii hc
    rw [Loader.quotedEnd, if_pos hlt, if_neg (beq_eq_false_iff_ne.mp hunit)]

/-- A value in a tag is passed from its quote on. -/
theorem Reads.tagEnd_quote {c : Char} (h : Reads bytes encoding pos (c :: text)) (hopen : isQuote c = true) :
    tagEnd bytes encoding pos =
      (Loader.quotedEnd bytes encoding (some c.toUInt8) (pos + size encoding [c])).bind (tagEnd bytes encoding) := by
  have hascii := ascii_of_isQuote hopen
  have hquoted : (Loader.unitIs bytes encoding pos '"' || Loader.unitIs bytes encoding pos '\'') = true := by
    rw [Bool.or_eq_true, h.unitIs_head (by decide), h.unitIs_head (by decide)]
    exact isQuote_iff.mp hopen
  have hunit : Loader.unitIs bytes encoding pos c = true := (h.unitIs_head hascii).mpr rfl
  rw [tagEnd_quoted h.lt hquoted, Loader.skipQuoted, beq_iff_eq.mp hunit, size_ascii encoding hascii]

theorem map_tagText (c : Char) (found : Option (List Char × Bool)) (pos : Nat) :
    (found.map fun found => (c :: found.1, found.2)).map
        (fun found => (pos + size encoding found.1, found.2)) =
      found.map fun found => (pos + size encoding [c] + size encoding found.1, found.2) := by
  rw [Option.map_map]
  congr 1
  funext found
  rw [Function.comp_apply, size_cons, Nat.add_assoc]

/-- **Tags end alike in the bytes and in the text**, inside a value and outside. -/
theorem tagEnd_text (text : List Char) : ∀ {pos}, Reads bytes encoding pos text →
    tagEnd bytes encoding pos =
        (tagText none text).map (fun found => (pos + size encoding found.1, found.2)) ∧
      ∀ quote, isQuote quote = true →
        (quotedEnd bytes encoding (some quote.toUInt8) pos).bind (tagEnd bytes encoding) =
          (tagText (some quote) text).map fun found => (pos + size encoding found.1, found.2) := by
  induction text with
  | nil =>
    intro pos h
    have hend : ¬ pos < bytes.length := Nat.not_lt.mpr h.le
    refine ⟨?_, fun quote _ => ?_⟩
    · rw [tagEnd, if_neg hend]
      rfl
    · rw [quotedEnd, if_neg hend]
      rfl
  | cons c text ih =>
    intro pos h
    obtain ⟨houtside, hinside⟩ := ih h.past_char
    refine ⟨?_, fun quote hquote => ?_⟩
    · rw [tagText]
      by_cases hopen : isQuote c = true
      · rw [if_pos hopen, h.tagEnd_quote hopen, hinside c hopen, map_tagText]
      · rw [if_neg hopen, h.tagEnd_cons hopen]
        split
        · rename_i hgreater
          rw [hgreater]
          rfl
        · split
          · rfl
          · rw [houtside, map_tagText]
    · rw [tagText, h.quotedEnd_cons hquote]
      split
      · rw [Option.bind_some, houtside, map_tagText]
      · rw [hinside quote hquote, map_tagText]

/-! ## Tags -/

/-- Behind a text that is passed the text opens with a tag of the name; the characters from its
name's end to its own, and whether it closes itself. -/
structure StartTagIn (text : List Char) (tagName : String) (gap tag : List Char) (selfClosed : Bool) :
    Prop where
  ascii : requireAsciiName tagName = true
  passed : Passed gap
  found : ∃ rest, text = gap ++ ('<' :: (tagName.toList ++ rest)) ∧
    OpensTag ('<' :: (tagName.toList ++ rest)) ∧ (tagName.toList ++ rest).head? ≠ some '/' ∧
    (∃ c, rest.head? = some c ∧ (isBlank c = true ∨ c = '/' ∨ c = '>')) ∧
    tagText none rest = some (tag, selfClosed)

theorem ascii_of_requireAsciiName {tagName : String} (h : requireAsciiName tagName = true) :
    ∀ c ∈ tagName.toList, c.toNat < 128 :=
  fun c hc => of_decide_eq_true (List.all_eq_true.mp h c hc)

/-- What ends a name in a start tag. -/
theorem Reads.endsName {rest : List Char} (h : Reads bytes encoding pos rest) :
    (Loader.unitIsSpace bytes encoding pos || Loader.unitIs bytes encoding pos '/' ||
        Loader.unitIs bytes encoding pos '>') = true ↔
      ∃ c, rest.head? = some c ∧ (isBlank c = true ∨ c = '/' ∨ c = '>') := by
  cases rest with
  | nil =>
    have hmark {mark : Char} (hmark : mark.toNat < 128) : Loader.unitIs bytes encoding pos mark = false := by
      rw [h.unitIs hmark]
      rfl
    simp [Loader.unitIsSpace, hmark]
  | cons c rest =>
    rw [h.unitIsSpace, Bool.or_eq_true, Bool.or_eq_true, h.unitIs_head (by decide), h.unitIs_head (by decide)]
    simp [or_assoc]

/-- **Start tags are found alike in the bytes and in the text.** -/
theorem scanStartTag_text {tagName : String} {bounds : StartTagBounds}
    (h : Reads bytes encoding pos text) :
    scanStartTag bytes encoding pos tagName = some bounds ↔
      ∃ gap tag selfClosed, StartTagIn text tagName gap tag selfClosed ∧
        bounds = ⟨pos + size encoding gap, pos + size encoding (gap ++ '<' :: (tagName.toList ++ tag)),
          selfClosed⟩ := by
  simp only [scanStartTag, guard_bind, Option.ite_none_right_eq_some, Option.bind_eq_bind,
    Option.bind_eq_some_iff]
  constructor
  · rintro ⟨hname, scanPos, hnext, hslash, hmatch, hends, ⟨tagEndPos, selfClosed⟩, hend, hbounds⟩
    obtain ⟨gap, opened, rfl, hgap, hopens, rfl⟩ := (nextMarkup_iff h).mp hnext
    obtain ⟨tail, rfl, hquestion, hbang⟩ := hopens
    have hascii := ascii_of_requireAsciiName hname
    have htail := h.past.tail (by decide)
    rw [htail.matchLiteral hascii] at hmatch
    obtain ⟨rest, rfl⟩ := List.isPrefixOf_iff_prefix.mp hmatch
    have hrest := htail.past
    rw [size_of_ascii encoding hascii] at hrest
    rw [(tagEnd_text rest hrest).1] at hend
    obtain ⟨⟨tag, closed⟩, htag, hpair⟩ := Option.map_eq_some_iff.mp hend
    obtain ⟨rfl, rfl⟩ := Prod.mk.inj hpair
    refine ⟨gap, tag, closed, ⟨hname, hgap, rest, rfl, ⟨_, rfl, hquestion, hbang⟩, ?_,
      hrest.endsName.mp hends, htag⟩, ?_⟩
    · rw [htail.unitIs (by decide)] at hslash
      simpa using hslash
    · rw [← Option.some.inj hbounds, size_append, size_cons, size_append, size_ascii encoding (by decide),
        size_of_ascii encoding hascii]
      dsimp only
      congr 1
      omega
  · rintro ⟨gap, tag, selfClosed, ⟨hname, hgap, rest, rfl, hopens, hslash, hends, htag⟩, rfl⟩
    have hascii := ascii_of_requireAsciiName hname
    have htail := h.past.tail (by decide)
    have hrest := htail.past
    rw [size_of_ascii encoding hascii] at hrest
    refine ⟨hname, _, (nextMarkup_iff h).mpr ⟨gap, _, rfl, hgap, hopens, rfl⟩, ?_, ?_,
      hrest.endsName.mpr hends, _, by rw [(tagEnd_text rest hrest).1, htag]; rfl, ?_⟩
    · rw [htail.unitIs (by decide)]
      simpa using hslash
    · rw [htail.matchLiteral hascii]
      exact List.isPrefixOf_iff_prefix.mpr (List.prefix_append _ _)
    · dsimp only
      rw [size_append, size_cons, size_append, size_ascii encoding (by decide), size_of_ascii encoding hascii]
      congr 2
      omega

/-- Behind a text that is passed the text opens with an end tag of the name, with the white space in it. -/
structure EndTagIn (text : List Char) (tagName : String) (gap space : List Char) : Prop where
  ascii : requireAsciiName tagName = true
  passed : Passed gap
  blank : ∀ c ∈ space, isBlank c = true
  found : ∃ rest, text = gap ++ (endTag tagName space ++ rest)

theorem size_endTag_ascii {tagName : String} (hascii : ∀ c ∈ tagName.toList, c.toNat < 128)
    (space : List Char) : size encoding (endTag tagName space) =
      unitWidth encoding + unitWidth encoding + tagName.toList.length * unitWidth encoding +
        size encoding space + unitWidth encoding := by
  rw [endTag, size_cons, size_cons encoding '/', size_append, size_append, size_ascii encoding (by decide),
    size_ascii encoding (by decide), size_ascii encoding (by decide), size_of_ascii encoding hascii]
  omega

/-- **End tags are found alike in the bytes and in the text.** -/
theorem scanEndTag_text {tagName : String} {next : Nat} (h : Reads bytes encoding pos text) :
    scanEndTag bytes encoding pos tagName = some next ↔
      ∃ gap space, EndTagIn text tagName gap space ∧
        next = pos + size encoding (gap ++ endTag tagName space) := by
  simp only [scanEndTag, guard_bind, Option.ite_none_right_eq_some, Option.bind_eq_bind,
    Option.bind_eq_some_iff]
  constructor
  · rintro ⟨hname, scanPos, hnext, hslash, hmatch, hgreater, hplace⟩
    obtain ⟨gap, opened, rfl, hgap, ⟨tail, rfl, -⟩, rfl⟩ := (nextMarkup_iff h).mp hnext
    have hascii := ascii_of_requireAsciiName hname
    have htail := h.past.tail (by decide)
    obtain ⟨letters, rfl⟩ := htail.exists_cons (by decide) hslash
    have hletters := htail.tail (by decide)
    rw [hletters.matchLiteral hascii] at hmatch
    obtain ⟨more, rfl⟩ := List.isPrefixOf_iff_prefix.mp hmatch
    have hmore := hletters.past
    rw [size_of_ascii encoding hascii] at hmore
    rw [hmore.pastSpace] at hgreater hplace
    have hsplit : more.takeWhile isBlank ++ more.dropWhile isBlank = more :=
      List.takeWhile_append_dropWhile
    obtain ⟨rest, hrest⟩ := (Reads.past (hsplit.symm ▸ hmore)).exists_cons (by decide) hgreater
    rw [hrest] at hsplit
    refine ⟨gap, more.takeWhile isBlank, ⟨hname, hgap, fun c hc => List.mem_takeWhile_imp hc, rest, ?_⟩, ?_⟩
    · rw [endTag, List.cons_append, List.cons_append, List.append_assoc, List.append_assoc,
        List.singleton_append, hsplit]
    · rw [← Option.some.inj hplace, size_append, size_endTag_ascii hascii]
      omega
  · rintro ⟨gap, space, ⟨hname, hgap, hblank, rest, rfl⟩, rfl⟩
    have hascii := ascii_of_requireAsciiName hname
    have hopen : Reads bytes encoding (pos + size encoding gap)
        ('<' :: '/' :: (tagName.toList ++ (space ++ '>' :: rest))) := by
      simpa [endTag] using h.past
    have hletters := (hopen.tail (by decide)).tail (by decide)
    have hafter := hletters.past
    rw [size_of_ascii encoding hascii] at hafter
    have hspace : (space ++ '>' :: rest).takeWhile isBlank = space := by
      rw [List.takeWhile_append_of_pos hblank, List.takeWhile_cons_of_neg (by decide), List.append_nil]
    have hnext : nextMarkup bytes encoding pos = some (pos + size encoding gap) :=
      (nextMarkup_iff h).mpr ((tagAt_iff (opensTag_endTag tagName space rest)).mpr hgap)
    refine ⟨hname, _, hnext, ((hopen.tail (by decide)).unitIs_head (by decide)).mpr rfl, ?_, ?_, ?_⟩
    · rw [hletters.matchLiteral hascii]
      exact List.isPrefixOf_iff_prefix.mpr (List.prefix_append _ _)
    · rw [hafter.pastSpace, hspace]
      exact (hafter.past.unitIs_head (by decide)).mpr rfl
    · rw [hafter.pastSpace, hspace, size_append, size_endTag_ascii hascii]
      congr 1
      omega

end

end ParseX.Loader

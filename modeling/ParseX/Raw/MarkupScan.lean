import ParseX.Raw.Markup
import ParseX.Raw.Reads

/-! # Finding the next tag

The loop of the scanner over what stands before a tag finds the tag exactly where all before it
is passed. -/
namespace ParseX.Loader
open Cpp

section
variable {bytes : Bytes} {encoding : RawEncodingClass} {pos next : Nat} {text tail : List Char}

/-! ## Delimiters -/

/-- A search that has not found the terminator goes on behind the character. -/
theorem Reads.skipDelimited_cons {c : Char} {terminator : List Char} (h : Reads bytes encoding pos (c :: text))
    (hascii : ∀ c ∈ terminator, c.toNat < 128) (hnot : ¬ terminator <+: c :: text) :
    skipDelimited bytes encoding terminator pos =
      skipDelimited bytes encoding terminator (pos + size encoding [c]) := by
  have hstep {place : Nat} (hlt : place < bytes.length)
      (hmatch : Loader.matchLiteral bytes encoding place terminator = false) :
      skipDelimited bytes encoding terminator place =
        skipDelimited bytes encoding terminator (place + unitWidth encoding) := by
    rw [skipDelimited, if_pos hlt, if_neg (by rw [hmatch]; exact Bool.false_ne_true)]
  by_cases hc : c.toNat < 128
  · rw [size_ascii encoding hc]
    refine hstep h.lt ?_
    rw [h.matchLiteral hascii, Bool.eq_false_iff]
    exact fun hprefix => hnot (List.isPrefixOf_iff_prefix.mp hprefix)
  · refine h.walk fun place hlt hmarks => hstep hlt ?_
    cases terminator with
    | nil => exact absurd List.nil_prefix hnot
    | cons expected more =>
      have hexpected := hascii expected (List.mem_cons_self ..)
      rw [Loader.matchLiteral, hmarks expected hexpected (fun heq => hc (heq ▸ hexpected))]
      rfl

/-- A unit is passed to its first terminator. -/
theorem skipDelimited_iff {terminator : List Char} (hne : terminator ≠ [])
    (hascii : ∀ c ∈ terminator, c.toNat < 128) (h : Reads bytes encoding pos text) :
    skipDelimited bytes encoding terminator pos = some next ↔
      ∃ unit rest, text = unit ++ rest ∧ Ends terminator unit ∧ next = pos + size encoding unit := by
  induction text generalizing pos with
  | nil =>
    rw [skipDelimited, if_neg (Nat.not_lt.mpr h.le)]
    constructor
    · intro hnone
      cases hnone
    · rintro ⟨unit, rest, htext, ⟨hsuffix, -⟩, -⟩
      rw [(List.append_eq_nil_iff.mp htext.symm).1] at hsuffix
      exact absurd (List.suffix_nil.mp hsuffix) hne
  | cons c text ih =>
    by_cases hopen : terminator <+: c :: text
    · have hmatch : Loader.matchLiteral bytes encoding pos terminator = true := by
        rw [h.matchLiteral hascii]
        exact List.isPrefixOf_iff_prefix.mpr hopen
      rw [skipDelimited, if_pos h.lt, if_pos hmatch, Option.some_inj, ← size_of_ascii encoding hascii]
      obtain ⟨rest, hrest⟩ := hopen
      constructor
      · rintro rfl
        exact ⟨terminator, rest, hrest.symm, ends_self terminator, rfl⟩
      · rintro ⟨unit, rest', htext, hends, rfl⟩
        rw [hends.unique (ends_self terminator) (htext.symm.trans hrest.symm)]
    · rw [h.skipDelimited_cons hascii hopen, ih h.past_char]
      constructor
      · rintro ⟨unit, rest, htext, hends, rfl⟩
        refine ⟨c :: unit, rest, by rw [htext]; rfl, (ends_cons hopen ⟨rest, htext.symm⟩).mpr hends, ?_⟩
        rw [size_cons encoding c unit]
        omega
      · rintro ⟨unit, rest, htext, hends, rfl⟩
        cases unit with
        | nil => exact absurd (List.suffix_nil.mp hends.1) hne
        | cons first unit =>
          obtain ⟨rfl, hunit⟩ := List.cons.inj htext
          refine ⟨unit, rest, hunit, (ends_cons hopen ⟨rest, hunit.symm⟩).mp hends, ?_⟩
          rw [size_cons encoding c unit]
          omega

/-! ## Declarations -/

theorem textCodes_append (encoding : RawEncodingClass) (text more : List Char) :
    textCodes encoding (text ++ more) = textCodes encoding text ++ textCodes encoding more :=
  List.flatMap_append

/-- A declaration ends with the `'>'` at which all before it reads as closed. -/
theorem declarationUnits_iff {units : Nat} {quote : Option Char} {depth : Int} (hquote : IsOpen quote) :
    declarationUnits (quote.map Char.toUInt8) depth (textCodes encoding text) = some units ↔
      ∃ inner rest, text = inner ++ '>' :: rest ∧ readOn quote depth inner = some (none, 0) ∧
        units = (textCodes encoding (inner ++ ['>'])).length := by
  have hone : (textCodes encoding ['>']).length = 1 := by
    rw [textCodes, List.flatMap_singleton, charCodes_ascii encoding (by decide)]
    rfl
  constructor
  · induction text generalizing quote depth units with
    | nil =>
      intro h
      cases quote <;> cases h
    | cons c text ih =>
      intro h
      rw [textCodes_cons] at h
      rcases scan_step encoding c depth hquote with ⟨rfl, rfl, rfl⟩ | ⟨quote', depth', hopen, hread, hscan⟩
      · rw [Option.map_none, scan_end, Option.some_inj] at h
        exact ⟨[], text, rfl, rfl, by rw [← h, List.nil_append, hone]⟩
      · rw [hscan] at h
        obtain ⟨later, hlater, rfl⟩ := Option.map_eq_some_iff.mp h
        obtain ⟨inner, rest, rfl, hinner, rfl⟩ := ih hopen hlater
        refine ⟨c :: inner, rest, rfl, by rw [hread, hinner], ?_⟩
        rw [List.cons_append, textCodes_cons, List.length_append, Nat.add_comm]
  · rintro ⟨inner, rest, rfl, hinner, rfl⟩
    have hunits := ((scan_text encoding (textCodes encoding ('>' :: rest)) inner quote depth hquote).1
      _ hinner).2
    rw [textCodes_append, textCodes_append, List.length_append, hunits, hone, textCodes_cons,
      Option.map_none, scan_end, Option.map_some, Nat.add_comm]

theorem skipDeclaration_iff (h : Reads bytes encoding pos ('<' :: tail)) :
    skipDeclaration bytes encoding pos = some next ↔
      ∃ inner rest, tail = inner ++ '>' :: rest ∧ readOn none 0 inner = some (none, 0) ∧
        next = pos + size encoding ('<' :: (inner ++ ['>'])) := by
  have hcodes : codes encoding (bytes.drop (pos + unitWidth encoding)) = textCodes encoding tail := by
    rw [h.tail (by decide), codes_encode_all]
  have hplace (inner : List Char) : placeAfter encoding (pos + unitWidth encoding)
      (textCodes encoding (inner ++ ['>'])).length = pos + size encoding ('<' :: (inner ++ ['>'])) := by
    rw [placeAfter, size_cons, size_ascii encoding (by decide), ← length_encode, Nat.add_assoc]
    rfl
  have hnone : IsOpen none := fun _ h => by cases h
  have hunits (units : Nat) : declarationUnits none 0 (textCodes encoding tail) = some units ↔
      ∃ inner rest, tail = inner ++ '>' :: rest ∧ readOn none 0 inner = some (none, 0) ∧
        units = (textCodes encoding (inner ++ ['>'])).length :=
    declarationUnits_iff hnone
  rw [skipDeclaration_codes, hcodes, Option.map_eq_some_iff]
  constructor
  · rintro ⟨units, hscan, rfl⟩
    obtain ⟨inner, rest, htail, hinner, rfl⟩ := (hunits units).mp hscan
    exact ⟨inner, rest, htail, hinner, hplace inner⟩
  · rintro ⟨inner, rest, htail, hinner, rfl⟩
    exact ⟨_, (hunits _).mpr ⟨inner, rest, htail, hinner, rfl⟩, hplace inner⟩

/-! ## Special units -/

/-- An opener in the text sends the scan to its terminator. -/
theorem Reads.skipDelimited_special {opener terminator : List Char} (h : Reads bytes encoding pos text)
    (hmem : (opener, terminator) ∈ delimiters) (hopen : opener <+: text) :
    skipDelimited bytes encoding terminator pos = some next ↔
      ∃ unit rest, text = unit ++ rest ∧ Special unit ∧ next = pos + size encoding unit := by
  obtain ⟨-, -, hne, hascii⟩ := delimiters_greater _ hmem
  rw [skipDelimited_iff hne hascii h]
  refine exists_congr fun unit => exists_congr fun rest => and_congr_right fun htext => ?_
  rw [special_delimited hmem (htext ▸ hopen)]

/-- A `<!` that opens nothing else opens a declaration. -/
theorem Reads.skipDeclaration_special (h : Reads bytes encoding pos ('<' :: '!' :: tail))
    (hcomment : ¬ ['<', '!', '-', '-'] <+: '<' :: '!' :: tail)
    (hcdata : ¬ ['<', '!', '[', 'C', 'D', 'A', 'T', 'A', '['] <+: '<' :: '!' :: tail) :
    skipDeclaration bytes encoding pos = some next ↔
      ∃ unit rest, '<' :: '!' :: tail = unit ++ rest ∧ Special unit ∧ next = pos + size encoding unit := by
  rw [skipDeclaration_iff h]
  constructor
  · rintro ⟨inner, rest, htail, hread, rfl⟩
    have htext : '<' :: '!' :: tail = ('<' :: (inner ++ ['>'])) ++ rest := by simp [htail]
    have hopens : inner ≠ [] := by
      rintro rfl
      cases htail
    obtain ⟨first, more, rfl⟩ := List.exists_cons_of_ne_nil hopens
    obtain ⟨rfl, -⟩ := List.cons.inj htail
    have hlonger {front : List Char} (h : '!' :: front <+: '!' :: more) :
        '<' :: '!' :: front <+: '<' :: '!' :: tail := by
      rw [htext, List.cons_append, List.append_assoc]
      exact List.cons_prefix_cons.mpr ⟨rfl, h.trans (List.prefix_append _ _)⟩
    exact ⟨_, rest, htext, .declaration (List.cons_prefix_cons.mpr ⟨rfl, List.nil_prefix⟩)
      (fun h => hcomment (hlonger h)) (fun h => hcdata (hlonger h)) hread, rfl⟩
  · rintro ⟨unit, rest, htext, hspecial, rfl⟩
    cases hspecial with
    | @delimited opener _ _ hmem hopen hends =>
      have hwhole : opener <+: '<' :: '!' :: tail := by
        rw [htext]
        exact hopen.trans (List.prefix_append _ _)
      simp only [delimiters, List.mem_cons, Prod.mk.injEq, List.not_mem_nil, or_false] at hmem
      rcases hmem with ⟨rfl, -⟩ | ⟨rfl, -⟩ | ⟨rfl, -⟩
      · simp at hwhole
      · exact absurd hwhole hcomment
      · exact absurd hwhole hcdata
    | @declaration inner hbang _ _ hread =>
      refine ⟨inner, rest, ?_, hread, rfl⟩
      simpa using (List.cons.inj htext).2

/-- What opens with `<?` or `<!` is passed where a special unit opens the text. -/
theorem skipSpecialUnit_iff (h : Reads bytes encoding pos ('<' :: tail))
    (hopens : tail.head? = some '?' ∨ tail.head? = some '!') :
    skipSpecialUnit bytes encoding pos ≠ some none ∧
      ∀ next, (skipSpecialUnit bytes encoding pos = some (some next) ↔
        ∃ unit rest, '<' :: tail = unit ++ rest ∧ Special unit ∧ next = pos + size encoding unit) := by
  have hnone {found : Option Nat} : found.map some ≠ some none := by
    cases found with
    | none => exact fun h => by cases h
    | some place => exact fun h => by cases h
  have hmark (mark : Char) (hmark : mark.toNat < 128) :
      unitIs bytes encoding (pos + unitWidth encoding) mark = (tail.head? == some mark) :=
    (h.tail (by decide)).unitIs hmark
  cases tail with
  | nil => exact absurd hopens (by decide)
  | cons second tail =>
    simp only [List.head?_cons, Option.some_inj] at hopens hmark
    rw [skipSpecialUnit, hmark '?' (by decide), hmark '!' (by decide)]
    rcases hopens with rfl | rfl
    · rw [if_pos (by decide)]
      have hmem : (['<', '?'], ['?', '>']) ∈ delimiters := by decide
      exact ⟨hnone, fun next => map_some_iff.trans (h.skipDelimited_special hmem (by simp))⟩
    · rw [if_neg (by decide), if_neg (by decide), h.matchLiteral (by decide), h.matchLiteral (by decide)]
      by_cases hcomment : ['<', '!', '-', '-'] <+: '<' :: '!' :: tail
      · rw [if_pos (List.isPrefixOf_iff_prefix.mpr hcomment)]
        exact ⟨hnone, fun next => map_some_iff.trans (h.skipDelimited_special (by decide) hcomment)⟩
      · rw [if_neg (mt List.isPrefixOf_iff_prefix.mp hcomment)]
        by_cases hcdata : ['<', '!', '[', 'C', 'D', 'A', 'T', 'A', '['] <+: '<' :: '!' :: tail
        · rw [if_pos (List.isPrefixOf_iff_prefix.mpr hcdata)]
          exact ⟨hnone, fun next => map_some_iff.trans (h.skipDelimited_special (by decide) hcdata)⟩
        · rw [if_neg (mt List.isPrefixOf_iff_prefix.mp hcdata)]
          exact ⟨hnone, fun next => map_some_iff.trans (h.skipDeclaration_special hcomment hcdata)⟩

/-- A tag is no special unit. -/
theorem skipSpecialUnit_tag (h : Reads bytes encoding pos ('<' :: tail))
    (hquestion : tail.head? ≠ some '?') (hbang : tail.head? ≠ some '!') :
    skipSpecialUnit bytes encoding pos = some none := by
  have hmark {mark : Char} (hascii : mark.toNat < 128) (hne : tail.head? ≠ some mark) :
      unitIs bytes encoding (pos + unitWidth encoding) mark = false := by
    rw [(h.tail (by decide)).unitIs hascii]
    exact beq_false_of_ne hne
  rw [skipSpecialUnit, hmark (by decide) hquestion, hmark (by decide) hbang]
  rfl

/-! ## The next tag -/

theorem nextMarkup_open (hlt : pos < bytes.length) (hopen : unitIs bytes encoding pos '<' = true) :
    nextMarkup bytes encoding pos = (skipSpecialUnit bytes encoding pos).bind fun skipped =>
      skipped.elim (some pos) (nextMarkup bytes encoding) := by
  rw [nextMarkup, if_pos hlt, hopen, if_neg (by decide)]
  split
  · rename_i hskipped
    rw [hskipped, Option.bind_none]
  · rename_i hskipped
    rw [hskipped, Option.bind_some, Option.elim_none]
  · rename_i hskipped
    rw [hskipped, Option.bind_some, Option.elim_some]

theorem Reads.nextMarkup_plain {c : Char} (h : Reads bytes encoding pos (c :: tail)) (hc : c ≠ '<') :
    nextMarkup bytes encoding pos = nextMarkup bytes encoding (pos + size encoding [c]) := by
  refine h.walk fun place hlt hmarks => ?_
  rw [nextMarkup, if_pos hlt, hmarks '<' (by decide) hc]
  rfl

/-- The places at which a tag opens behind a passed text. -/
def TagAt (encoding : RawEncodingClass) (pos : Nat) (text : List Char) (next : Nat) : Prop :=
  ∃ gap rest, text = gap ++ rest ∧ Passed gap ∧ OpensTag rest ∧ next = pos + size encoding gap

theorem tagAt_nil : ¬ TagAt encoding pos [] next := by
  rintro ⟨gap, rest, htext, -, ⟨tail, rfl, -⟩, -⟩
  exact absurd htext.symm (List.append_ne_nil_of_right_ne_nil _ (List.cons_ne_nil _ _))

theorem tagAt_plain {c : Char} (hc : c ≠ '<') :
    TagAt encoding pos (c :: tail) next ↔ TagAt encoding (pos + size encoding [c]) tail next := by
  constructor
  · rintro ⟨gap, rest, htext, hgap, hrest, rfl⟩
    cases gap with
    | nil =>
      obtain ⟨more, rfl, -⟩ := hrest
      exact absurd (List.cons.inj htext).1 hc
    | cons first gap =>
      obtain ⟨rfl, htail⟩ := List.cons.inj htext
      refine ⟨gap, rest, htail, (passed_cons_iff hc).mp hgap, hrest, ?_⟩
      rw [size_cons encoding c gap, Nat.add_assoc]
  · rintro ⟨gap, rest, rfl, hgap, hrest, rfl⟩
    refine ⟨c :: gap, rest, rfl, .plain hc hgap, hrest, ?_⟩
    rw [size_cons encoding c gap, Nat.add_assoc]

theorem tagAt_special (hopens : tail.head? = some '?' ∨ tail.head? = some '!') :
    TagAt encoding pos ('<' :: tail) next ↔ ∃ unit rest, '<' :: tail = unit ++ rest ∧ Special unit ∧
      TagAt encoding (pos + size encoding unit) rest next := by
  constructor
  · rintro ⟨gap, rest, htext, hgap, hrest, rfl⟩
    cases gap with
    | nil =>
      obtain ⟨more, rfl, hquestion, hbang⟩ := hrest
      obtain ⟨-, rfl⟩ := List.cons.inj htext
      exact absurd hopens (not_or.mpr ⟨hquestion, hbang⟩)
    | cons first gap =>
      obtain ⟨rfl, -⟩ := List.cons.inj htext
      obtain ⟨unit, more, hunit, hspecial, hmore⟩ := hgap.split
      refine ⟨unit, more ++ rest, ?_, hspecial, more, rest, rfl, hmore, hrest, ?_⟩
      · rw [htext, hunit, List.append_assoc]
      · rw [hunit, size_append, Nat.add_assoc]
  · rintro ⟨unit, more, htext, hspecial, gap, rest, rfl, hgap, hrest, rfl⟩
    refine ⟨unit ++ gap, rest, by rw [htext, List.append_assoc], .special hspecial hgap, hrest, ?_⟩
    rw [size_append, Nat.add_assoc]

theorem tagAt_tag (hquestion : tail.head? ≠ some '?') (hbang : tail.head? ≠ some '!') :
    TagAt encoding pos ('<' :: tail) next ↔ next = pos := by
  constructor
  · rintro ⟨gap, rest, htext, hgap, -, rfl⟩
    cases gap with
    | nil => rfl
    | cons first gap =>
      obtain ⟨rfl, htail⟩ := List.cons.inj htext
      obtain ⟨unit, more, hunit, hspecial, -⟩ := hgap.split
      obtain ⟨inner, rfl, hinner⟩ := hspecial.opens
      obtain ⟨-, rfl⟩ := List.cons.inj hunit
      cases inner with
      | nil => exact absurd hinner (by decide)
      | cons mark inner =>
        rw [htail] at hquestion hbang
        exact absurd hinner (not_or.mpr ⟨hquestion, hbang⟩)
  · rintro rfl
    exact ⟨[], _, rfl, .nil, ⟨tail, rfl, hquestion, hbang⟩, rfl⟩

/-- **The next tag is found where all before it is passed.** -/
theorem nextMarkup_iff (h : Reads bytes encoding pos text) :
    nextMarkup bytes encoding pos = some next ↔ TagAt encoding pos text next := by
  induction hn : text.length using Nat.strong_induction_on generalizing text pos with
  | _ length ih =>
    cases text with
    | nil =>
      rw [nextMarkup, if_neg (Nat.not_lt.mpr h.le)]
      exact iff_of_false (fun hnone => by cases hnone) tagAt_nil
    | cons c tail =>
      have hlength : tail.length < length := by
        rw [← hn, List.length_cons]
        exact Nat.lt_succ_self _
      by_cases hc : c = '<'
      · obtain rfl : c = '<' := hc
        rw [nextMarkup_open h.lt ((h.unitIs_head (by decide)).mpr rfl)]
        by_cases hopens : tail.head? = some '?' ∨ tail.head? = some '!'
        · have hlater {unit rest : List Char} (htext : '<' :: tail = unit ++ rest) (hspecial : Special unit) :
              nextMarkup bytes encoding (pos + size encoding unit) = some next ↔
                TagAt encoding (pos + size encoding unit) rest next := by
            obtain ⟨more, rfl, -⟩ := hspecial.opens
            refine ih rest.length ?_ (Reads.past (htext ▸ h)) rfl
            rw [← hn, htext, List.length_append, List.length_cons]
            omega
          rw [tagAt_special hopens, Option.bind_eq_some_iff]
          constructor
          · rintro ⟨skipped, hskipped, hnext⟩
            cases skipped with
            | none => exact absurd hskipped (skipSpecialUnit_iff h hopens).1
            | some place =>
              obtain ⟨unit, rest, htext, hspecial, rfl⟩ := ((skipSpecialUnit_iff h hopens).2 place).mp hskipped
              exact ⟨unit, rest, htext, hspecial, (hlater htext hspecial).mp hnext⟩
          · rintro ⟨unit, rest, htext, hspecial, hrest⟩
            exact ⟨_, ((skipSpecialUnit_iff h hopens).2 _).mpr ⟨unit, rest, htext, hspecial, rfl⟩,
              (hlater htext hspecial).mpr hrest⟩
        · obtain ⟨hquestion, hbang⟩ := not_or.mp hopens
          rw [skipSpecialUnit_tag h hquestion hbang, tagAt_tag hquestion hbang, Option.bind_some,
            Option.elim_none, Option.some_inj, eq_comm]
      · rw [h.nextMarkup_plain hc, tagAt_plain hc]
        exact ih tail.length hlength h.past_char rfl

end

end ParseX.Loader

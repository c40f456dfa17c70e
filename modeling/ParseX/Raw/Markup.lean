import ParseX.Base.Words
import ParseX.Raw.Doctype

/-! # Between tags

What may stand between two tags of a document, and what of it the scanner passes as it should:
it looks for the end of a comment from the comment's `'<'` on, so that the two hyphens that open
the comment may also close it. -/
namespace ParseX.Loader

/-! ## The first terminator -/

/-- A text ends with a terminator, the first in it. -/
def Ends (terminator unit : List Char) : Prop :=
  terminator <:+ unit ∧ ∀ shorter, shorter <+: unit → terminator <:+ shorter → shorter = unit

section
variable {terminator unit unit' rest rest' text front : List Char} {c : Char}

theorem Ends.unique (h : Ends terminator unit) (h' : Ends terminator unit')
    (htext : unit ++ rest = unit' ++ rest') : unit = unit' := by
  have hprefix : unit <+: unit' ++ rest' := ⟨rest, htext⟩
  rcases List.prefix_or_prefix_of_prefix hprefix (List.prefix_append unit' rest') with hle | hle
  · exact h'.2 unit hle h.1
  · exact (h.2 unit' hle h'.1).symm

/-- A text that opens with the terminator has its end there. -/
theorem ends_self (terminator : List Char) : Ends terminator terminator :=
  ⟨List.suffix_refl _, fun _ hprefix hsuffix => hprefix.eq_of_length_le hsuffix.length_le⟩

/-- Otherwise the end is that of the text after its first character. -/
theorem ends_cons (hopen : ¬ terminator <+: c :: text) (hunit : unit <+: text) :
    Ends terminator (c :: unit) ↔ Ends terminator unit := by
  have hnot {shorter : List Char} (hshorter : shorter <+: unit) : terminator ≠ c :: shorter := by
    rintro rfl
    exact hopen (List.cons_prefix_cons.mpr ⟨rfl, hshorter.trans hunit⟩)
  constructor
  · rintro ⟨hsuffix, hfirst⟩
    refine ⟨(List.suffix_cons_iff.mp hsuffix).resolve_left (hnot (List.prefix_refl _)), ?_⟩
    intro shorter hshorter hends
    exact (List.cons.inj (hfirst (c :: shorter) (List.cons_prefix_cons.mpr ⟨rfl, hshorter⟩)
      (hends.trans (List.suffix_cons _ _)))).2
  · rintro ⟨hsuffix, hfirst⟩
    refine ⟨hsuffix.trans (List.suffix_cons _ _), fun shorter hshorter hends => ?_⟩
    rcases List.prefix_cons_iff.mp hshorter with rfl | ⟨more, rfl, hmore⟩
    · rw [List.suffix_nil.mp hends] at hopen
      exact absurd (List.nil_prefix) hopen
    · rw [hfirst more hmore ((List.suffix_cons_iff.mp hends).resolve_left (hnot hmore))]

/-- A terminator whose last letter it has nowhere else ends the text that it stands after, unless
that text has it too. -/
theorem ends_append (init : List Char) {last : Char} (hlast : last ∉ init)
    (h : ¬ init ++ [last] <:+: front) : Ends (init ++ [last]) (front ++ (init ++ [last])) := by
  refine ⟨List.suffix_append _ _, fun shorter hshorter hends => ?_⟩
  rw [← List.append_assoc, List.prefix_concat_iff] at hshorter
  rcases hshorter with rfl | hshorter
  · exact List.append_assoc ..
  · exact absurd (Words.word_infix_front hlast (hends.isInfix.trans hshorter.isInfix)) h

end

/-! ## What the scanner passes -/

/-- How a comment, a processing instruction and a CDATA section open and close. -/
def delimiters : List (List Char × List Char) :=
  [(['<', '?'], ['?', '>']), (['<', '!', '-', '-'], ['-', '-', '>']),
    (['<', '!', '[', 'C', 'D', 'A', 'T', 'A', '['], [']', ']', '>'])]

/-- One unit that the scanner passes as a whole: from an opener to the first terminator, or from
`<!` to the `'>'` outside quotes and brackets. -/
inductive Special : List Char → Prop where
  | delimited {opener terminator unit : List Char} : (opener, terminator) ∈ delimiters →
      opener <+: unit → Ends terminator unit → Special unit
  | declaration {inner : List Char} : ['!'] <+: inner → ¬ ['!', '-', '-'] <+: inner →
      ¬ ['!', '[', 'C', 'D', 'A', 'T', 'A', '['] <+: inner → readOn none 0 inner = some (none, 0) →
      Special ('<' :: (inner ++ ['>']))

/-- A text is special units, and between them characters that open none. -/
inductive Passed : List Char → Prop where
  | nil : Passed []
  | plain {c : Char} {text : List Char} : c ≠ '<' → Passed text → Passed (c :: text)
  | special {unit text : List Char} : Special unit → Passed text → Passed (unit ++ text)

/-- A tag, of any kind. -/
def OpensTag (text : List Char) : Prop :=
  ∃ tail, text = '<' :: tail ∧ tail.head? ≠ some '?' ∧ tail.head? ≠ some '!'

section
variable {unit rest text opener terminator : List Char} {c : Char}

theorem Special.opens (h : Special unit) :
    ∃ more, unit = '<' :: more ∧ (more.head? = some '?' ∨ more.head? = some '!') := by
  cases h with
  | @delimited opener terminator _ hmem hopen hends =>
    have hopeners : ∀ delimiter ∈ delimiters,
        ['<', '?'] <+: delimiter.1 ∨ ['<', '!'] <+: delimiter.1 := by decide
    rcases hopeners _ hmem with hfirst | hfirst
    · obtain ⟨more, rfl⟩ := hfirst.trans hopen
      exact ⟨'?' :: more, rfl, .inl rfl⟩
    · obtain ⟨more, rfl⟩ := hfirst.trans hopen
      exact ⟨'!' :: more, rfl, .inr rfl⟩
  | declaration hopen =>
    obtain ⟨more, rfl⟩ := hopen
    exact ⟨_, rfl, .inr rfl⟩

theorem passed_cons_iff (hc : c ≠ '<') : Passed (c :: text) ↔ Passed text := by
  refine ⟨fun h => ?_, .plain hc⟩
  generalize hall : c :: text = all at h
  cases h with
  | nil => cases hall
  | plain _ htext =>
    obtain ⟨-, rfl⟩ := List.cons.inj hall
    exact htext
  | special hspecial _ =>
    obtain ⟨more, rfl, -⟩ := hspecial.opens
    exact absurd (List.cons.inj hall).1 hc

theorem Passed.split (h : Passed ('<' :: text)) :
    ∃ unit rest, '<' :: text = unit ++ rest ∧ Special unit ∧ Passed rest := by
  generalize hall : '<' :: text = all at h
  cases h with
  | nil => cases hall
  | plain hc _ => exact absurd (List.cons.inj hall).1.symm hc
  | special hspecial hrest => exact ⟨_, _, rfl, hspecial, hrest⟩

/-- What opens a text without a letter opens the part that has the letter. -/
theorem prefix_of_mem (hopen : opener <+: unit ++ rest) (hmem : c ∈ unit) (hnot : c ∉ opener) :
    opener <+: unit := by
  rcases List.prefix_or_prefix_of_prefix hopen (List.prefix_append unit rest) with hle | hle
  · exact hle
  · exact absurd (hle.subset hmem) hnot

theorem delimiters_exclusive : ∀ delimiter ∈ delimiters, ∀ other ∈ delimiters,
    delimiter.1 <+: other.1 → delimiter = other := by decide

theorem delimiters_greater : ∀ delimiter ∈ delimiters,
    '>' ∉ delimiter.1 ∧ '>' ∈ delimiter.2 ∧ delimiter.2 ≠ [] ∧ ∀ c ∈ delimiter.2, c.toNat < 128 := by decide

/-- The opener says at which terminator a unit ends. -/
theorem special_delimited (hmem : (opener, terminator) ∈ delimiters) (hopen : opener <+: unit ++ rest) :
    Special unit ↔ Ends terminator unit := by
  obtain ⟨hnot, hin, -, -⟩ := delimiters_greater _ hmem
  constructor
  · intro h
    cases h with
    | @delimited opener' terminator' _ hmem' hopen' hends =>
      have hwhole : opener' <+: unit ++ rest := hopen'.trans (List.prefix_append _ _)
      rcases List.prefix_or_prefix_of_prefix hopen hwhole with hle | hle
      · obtain ⟨-, rfl⟩ := Prod.mk.inj (delimiters_exclusive _ hmem _ hmem' hle)
        exact hends
      · obtain ⟨-, rfl⟩ := Prod.mk.inj (delimiters_exclusive _ hmem' _ hmem hle)
        exact hends
    | @declaration inner hbang hcomment hcdata hread =>
      have hunit : opener <+: '<' :: (inner ++ ['>']) := prefix_of_mem hopen (by simp) hnot
      have hinner {front : List Char} (hfront : '>' ∉ front) (h : '<' :: front <+: '<' :: (inner ++ ['>'])) :
          front <+: inner :=
        ((List.prefix_concat_iff.mp (List.cons_prefix_cons.mp h).2).resolve_left fun heq =>
          hfront (heq ▸ List.mem_append_right _ (List.mem_singleton_self _)))
      simp only [delimiters, List.mem_cons, Prod.mk.injEq, List.not_mem_nil, or_false] at hmem
      rcases hmem with ⟨rfl, -⟩ | ⟨rfl, -⟩ | ⟨rfl, -⟩
      · have hboth := List.prefix_or_prefix_of_prefix hbang (hinner (by decide) hunit)
        exact absurd hboth (by decide)
      · exact absurd (hinner (by decide) hunit) hcomment
      · exact absurd (hinner (by decide) hunit) hcdata
  · intro h
    exact .delimited hmem (prefix_of_mem hopen (h.1.subset hin) hnot) h

end

theorem passed_plain {plain text : List Char} (h : ∀ c ∈ plain, c ≠ '<') (htext : Passed text) :
    Passed (plain ++ text) := by
  induction plain with
  | nil => exact htext
  | cons c plain ih =>
    obtain ⟨hc, hmore⟩ := List.forall_mem_cons.mp h
    exact .plain hc (ih hmore)

/-! ## Well-formed text between tags -/

def IsComment (content : List Char) : Prop :=
  ¬ ['-', '-'] <:+: content ∧ content.getLast? ≠ some '-'

/-- Text, comments of some kind, processing instructions and CDATA sections. -/
inductive Gap (kind : List Char → Prop) : List Char → Prop where
  | nil : Gap kind []
  | plain {c : Char} {text : List Char} : c ≠ '<' → Gap kind text → Gap kind (c :: text)
  | comment {content text : List Char} : kind content → Gap kind text →
      Gap kind (['<', '!', '-', '-'] ++ (content ++ (['-', '-', '>'] ++ text)))
  | instruction {content text : List Char} : content.head? ≠ some '>' → ¬ ['?', '>'] <:+: content →
      Gap kind text → Gap kind (['<', '?'] ++ (content ++ (['?', '>'] ++ text)))
  | cdata {content text : List Char} : ¬ [']', ']', '>'] <:+: content → Gap kind text →
      Gap kind (['<', '!', '[', 'C', 'D', 'A', 'T', 'A', '['] ++ (content ++ ([']', ']', '>'] ++ text)))

/-- A comment that holds a `'<'` does not open with `>` or `->`. -/
def Harmless (content : List Char) : Prop :=
  IsComment content ∧ ('<' ∈ content → content.head? ≠ some '>' ∧ ¬ ['-', '>'] <+: content)

section
variable {content text : List Char}

theorem not_infix_comment (hcontent : IsComment content) (hhead : content.head? ≠ some '>')
    (hopen : ¬ ['-', '>'] <+: content) : ¬ ['-', '-', '>'] <:+: ['<', '!', '-', '-'] ++ content := by
  intro h
  simp only [List.cons_append, List.nil_append, List.infix_cons_iff, List.cons_prefix_cons] at h
  rcases h with ⟨hbad, -⟩ | ⟨hbad, -⟩ | ⟨-, -, hfirst⟩ | ⟨-, hfirst⟩ | hlater
  · exact absurd hbad (by decide)
  · exact absurd hbad (by decide)
  · obtain ⟨more, rfl⟩ := hfirst
    exact hhead rfl
  · exact hopen hfirst
  · exact hcontent.1 ((List.infix_append [] ['-', '-'] ['>']).trans hlater)

theorem not_infix_instruction (hhead : content.head? ≠ some '>') (hcontent : ¬ ['?', '>'] <:+: content) :
    ¬ ['?', '>'] <:+: ['<', '?'] ++ content := by
  intro h
  simp only [List.cons_append, List.nil_append, List.infix_cons_iff, List.cons_prefix_cons] at h
  rcases h with ⟨hbad, -⟩ | ⟨-, hfirst⟩ | hlater
  · exact absurd hbad (by decide)
  · obtain ⟨more, rfl⟩ := hfirst
    exact hhead rfl
  · exact hcontent hlater

/-- From an opener to a terminator that does not come before. -/
theorem Passed.delimited (init : List Char) {opener : List Char} (hmem : (opener, init ++ ['>']) ∈ delimiters)
    (hinit : '>' ∉ init) (hfirst : ¬ init ++ ['>'] <:+: opener ++ content) (htext : Passed text) :
    Passed (opener ++ (content ++ ((init ++ ['>']) ++ text))) := by
  have hspecial : Special ((opener ++ content) ++ (init ++ ['>'])) := by
    refine .delimited hmem ?_ (ends_append init hinit hfirst)
    rw [List.append_assoc]
    exact List.prefix_append _ _
  simpa only [List.append_assoc] using Passed.special hspecial htext

/-- A comment without a `'<'` is passed wherever it is taken to end. -/
theorem Passed.cut {opener rest : List Char} (hopener : Special opener) (hrest : '<' ∉ rest)
    (htext : Passed text) : Passed (opener ++ (rest ++ text)) :=
  .special hopener (passed_plain (fun _ hc => ne_of_mem_of_not_mem hc hrest) htext)

theorem special_comment (front : List Char) (hopen : ['<', '!', '-', '-'] <+: front ++ ['-', '-', '>'])
    (hfirst : ¬ ['-', '-', '>'] <:+: front) : Special (front ++ ['-', '-', '>']) :=
  .delimited (by simp [delimiters]) hopen (ends_append ['-', '-'] (by decide) hfirst)

/-- **What stands between tags is passed where the comments in it are harmless.** -/
theorem Gap.passed (h : Gap Harmless text) : Passed text := by
  induction h with
  | nil => exact .nil
  | plain hc _ ih => exact .plain hc ih
  | @comment content text hcontent _ ih =>
    obtain ⟨hcontent, hharmless⟩ := hcontent
    by_cases hlt : '<' ∈ content
    · obtain ⟨hhead, hopen⟩ := hharmless hlt
      exact Passed.delimited ['-', '-'] (by simp [delimiters]) (by decide)
        (not_infix_comment hcontent hhead hopen) ih
    · by_cases hopen : ['-', '>'] <+: content
      · obtain ⟨more, rfl⟩ := hopen
        have hmore : '<' ∉ more ++ ['-', '-', '>'] := by simpa using hlt
        simpa using Passed.cut (special_comment ['<', '!', '-'] (by decide) (by decide)) hmore ih
      · by_cases hhead : content.head? = some '>'
        · obtain ⟨more, rfl⟩ : ∃ more, content = '>' :: more := by
            cases content with
            | nil => cases hhead
            | cons c more => exact ⟨more, by rw [Option.some.inj hhead]⟩
          have hmore : '<' ∉ more ++ ['-', '-', '>'] := by simpa using hlt
          simpa using Passed.cut (special_comment ['<', '!'] (by decide) (by decide)) hmore ih
        · exact Passed.delimited ['-', '-'] (by simp [delimiters]) (by decide)
            (not_infix_comment hcontent hhead hopen) ih
  | instruction hhead hcontent _ ih =>
    exact Passed.delimited ['?'] (by simp [delimiters]) (by decide)
      (not_infix_instruction hhead hcontent) ih
  | cdata hcontent _ ih =>
    refine Passed.delimited [']', ']'] (by simp [delimiters]) (by decide) ?_ ih
    exact fun h => hcontent (Words.word_infix_after (by decide) h)

end

end ParseX.Loader

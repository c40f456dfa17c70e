import ParseX.Raw.Loader
import ParseX.Raw.XmlText

/-! # Spans

When the loader gives every element the span of its text: where its encoding is recognised, and
the scanner passes what stands before each tag. -/
namespace ParseX.Loader
open Cpp

/-! ## Events of a document -/

def Event.opening (name : String) : Event := .startElement name none [] []

mutual

/-- The bare events of an element, in document order. -/
def Element.events : Element → List Event
  | .empty name _ => .opening name :: ([] ++ [.endElement])
  | .full name _ children _ _ => .opening name :: (children.events ++ [.endElement])

def Children.events : Children → List Event
  | .nil => []
  | .cons _ element children => element.events ++ children.events

end

/-! ## Scanning along the tree -/

section
variable (bytes : Bytes) (encoding : RawEncodingClass)

/-- The node of an element, and where the scan goes on, from a scan of its children. -/
def scanElement (name : String) (inner : Nat → Option (List RawNode × Nat)) (cursor : Nat) :
    Option (RawNode × Nat) :=
  (scanStartTag bytes encoding cursor name).bind fun bounds =>
    (inner bounds.tagEndPos).bind fun found =>
      (closedSpan bytes encoding found.2 name (openedSpan bytes encoding bounds)).map fun closed =>
        (⟨name, [], "", closed.1, found.1⟩, closed.2)

mutual

def Element.scan : Element → Nat → Option (RawNode × Nat)
  | .empty name _ => scanElement bytes encoding name fun cursor => some ([], cursor)
  | .full name _ children _ _ => scanElement bytes encoding name children.scan

def Children.scan : Children → Nat → Option (List RawNode × Nat)
  | .nil => fun cursor => some ([], cursor)
  | .cons _ element children => fun cursor =>
    (element.scan cursor).bind fun found =>
      (children.scan found.2).map fun more => (found.1 :: more.1, more.2)

end

end

section
variable {bytes : Bytes} {encoding : RawEncodingClass}

/-- The node after more children. -/
def withChildren (parent : RawNode) (nodes : List RawNode) : RawNode :=
  { parent with children := parent.children ++ nodes }

theorem withChildren_nil (parent : RawNode) : withChildren parent [] = parent := by
  obtain ⟨tagName, attributes, text, span, children⟩ := parent
  rw [withChildren, List.append_nil]

/-- A run along an element scans it, when a run along its children scans these. -/
theorem run_scanElement {name : String} {inner : Nat → Option (List RawNode × Nat)} {events : List Event}
    (hinner : ∀ cursor parent stack root, run bytes encoding ⟨cursor, parent :: stack, root⟩ events =
      (inner cursor).map fun found => ⟨found.2, withChildren parent found.1 :: stack, root⟩)
    (cursor : Nat) {stack : List RawNode} {root : Option RawNode}
    (hentered : (stack.isEmpty && root.isSome) = false) :
    run bytes encoding ⟨cursor, stack, root⟩ (.opening name :: (events ++ [.endElement])) =
      (scanElement bytes encoding name inner cursor).map fun found =>
        LoaderState.close ⟨found.2, stack, root⟩ found.1 := by
  have hstart : handle bytes encoding ⟨cursor, stack, root⟩ (.opening name) =
      (scanStartTag bytes encoding cursor name).map fun bounds =>
        ⟨bounds.tagEndPos, ⟨name, [], "", openedSpan bytes encoding bounds, []⟩ :: stack, root⟩ := by
    show onStartElement bytes encoding ⟨cursor, stack, root⟩ name none [] [] = _
    rw [onStartElement]
    dsimp only
    rw [hentered, show qualifiedName none name = name from rfl]
    cases scanStartTag bytes encoding cursor name with
    | none => rfl
    | some bounds => rfl
  rw [run_cons, hstart, scanElement]
  cases scanStartTag bytes encoding cursor name with
  | none => rfl
  | some bounds =>
    rw [Option.map_some, Option.bind_some, Option.bind_some, run_append, hinner]
    cases inner bounds.tagEndPos with
    | none => rfl
    | some found =>
      rw [Option.map_some, Option.bind_some, Option.bind_some, run_cons]
      show (onEndElement bytes encoding ⟨found.2, withChildren _ found.1 :: stack, root⟩).bind _ = _
      rw [onEndElement]
      dsimp only [withChildren]
      cases closedSpan bytes encoding found.2 name (openedSpan bytes encoding bounds) with
      | none => rfl
      | some closed => rfl

mutual

/-- **A run along an element's events scans the element.** -/
theorem Element.run_events (element : Element) (cursor : Nat) {stack : List RawNode} {root : Option RawNode}
    (hentered : (stack.isEmpty && root.isSome) = false) :
    run bytes encoding ⟨cursor, stack, root⟩ element.events =
      (element.scan bytes encoding cursor).map fun found =>
        LoaderState.close ⟨found.2, stack, root⟩ found.1 := by
  cases element with
  | empty name attributes =>
    have hnone (cursor : Nat) (parent : RawNode) (stack : List RawNode) (root : Option RawNode) :
        run bytes encoding ⟨cursor, parent :: stack, root⟩ [] =
          (some (([] : List RawNode), cursor)).map fun found =>
            ⟨found.2, withChildren parent found.1 :: stack, root⟩ := by
      rw [Option.map_some, withChildren_nil]
      rfl
    rw [Element.events, Element.scan]
    exact run_scanElement hnone cursor hentered
  | full name attributes children gap space =>
    rw [Element.events, Element.scan]
    exact run_scanElement children.run_events cursor hentered

theorem Children.run_events (children : Children) (cursor : Nat) (parent : RawNode) (stack : List RawNode)
    (root : Option RawNode) : run bytes encoding ⟨cursor, parent :: stack, root⟩ children.events =
      (children.scan bytes encoding cursor).map fun found =>
        ⟨found.2, withChildren parent found.1 :: stack, root⟩ := by
  cases children with
  | nil =>
    rw [Children.events, Children.scan, Option.map_some, withChildren_nil]
    rfl
  | cons gap element children =>
    rw [Children.events, run_append, element.run_events cursor rfl, Children.scan]
    dsimp only
    cases element.scan bytes encoding cursor with
    | none => rfl
    | some found =>
      rw [Option.map_some, Option.bind_some, Option.bind_some, LoaderState.close, children.run_events,
        Option.map_map]
      congr 1
      funext more
      rw [Function.comp_apply, withChildren, withChildren, List.append_assoc]
      rfl

end

/-! ## Spans as they should be -/

theorem reads_of {before text : List Char} (h : bytes = encode encoding (before ++ text)) :
    Reads bytes encoding (size encoding before) text := by
  rw [Reads, h, encode_append]
  exact List.drop_left

theorem count_textCodes (text : List Char) :
    (textCodes encoding text).count (some 0x0A) = text.count '\n' := by
  induction text with
  | nil => rfl
  | cons c text ih =>
    rw [textCodes_cons, List.count_append, ih, List.count_cons, Nat.add_comm]
    congr 1
    by_cases hc : c = '\n'
    · rw [hc, charCodes_ascii encoding (by decide)]
      rfl
    · rw [if_neg (by simpa using hc), List.count_eq_zero]
      exact fun hmem => charCodes_ne encoding (by decide : '\n'.toNat < 128) hc _ hmem rfl

/-- The line of a place is one more than the line feeds before it. -/
theorem lineNumberAt_eq {before text : List Char} (h : bytes = encode encoding (before ++ text)) :
    lineNumberAt bytes encoding (size encoding before) = before.count '\n' + 1 := by
  have htake : bytes.take (size encoding before) = encode encoding before := by
    rw [h, encode_append]
    exact List.take_left
  rw [lineNumberAt, htake, codes_encode_all, count_textCodes]

theorem closedSpan_start {cursor : Nat} {name : String} {span : RawSpan} {closed : RawSpan × Nat}
    (h : closedSpan bytes encoding cursor name span = some closed) :
    closed.1.startOffset = span.startOffset := by
  rw [closedSpan] at h
  split at h
  · obtain ⟨endOffset, -, rfl⟩ := Option.map_eq_some_iff.mp h
    rfl
  · rw [← Option.some.inj h]

section
variable {name : String} {attributes before gap rest : List Char} {cursor cursor' : Nat}

/-- An element's node has the right start exactly where the gap before it is passed; then the scan
of its children begins behind its start tag. -/
theorem scanElement_iff {selfClosed : Bool} {inner : Nat → Option (List RawNode × Nat)}
    {text : List Char} {nodes : List RawNode} (hname : IsName name) (hattributes : IsAttributes attributes)
    (hbytes : bytes = encode encoding (before ++ (gap ++ (startTag name attributes selfClosed ++ rest)))) :
    scanElement bytes encoding name inner (size encoding before) =
        some (⟨name, [], "", spanOf encoding (before ++ gap) text, nodes⟩, cursor) ↔
      Passed gap ∧ ∃ cursor',
        inner (size encoding (before ++ gap ++ startTag name attributes selfClosed)) = some (nodes, cursor') ∧
        closedSpan bytes encoding cursor' name (openedSpan bytes encoding ⟨size encoding (before ++ gap),
            size encoding (before ++ gap ++ startTag name attributes selfClosed), selfClosed⟩) =
          some (spanOf encoding (before ++ gap) text, cursor) := by
  have hstart := fun bounds => scanStartTag_iff bounds hname hattributes (reads_of hbytes)
  simp only [← size_append] at hstart
  rw [scanElement, Option.bind_eq_some_iff]
  constructor
  · rintro ⟨bounds, hscan, hinner⟩
    obtain ⟨found, hfound, hclosed⟩ := Option.bind_eq_some_iff.mp hinner
    obtain ⟨closed, hspan, hpair⟩ := Option.map_eq_some_iff.mp hclosed
    obtain ⟨hnode, rfl⟩ := Prod.mk.inj hpair
    obtain ⟨-, -, -, hlocated, rfl⟩ := RawNode.mk.inj hnode
    have hplace : bounds.openPos = size encoding (before ++ gap) := by
      have hopen := closedSpan_start hspan
      rw [hlocated] at hopen
      exact hopen.symm
    obtain ⟨hgap, rfl⟩ := (hstart bounds).mp ⟨hscan, hplace⟩
    exact ⟨hgap, found.2, hfound, hspan.trans (by rw [← hlocated])⟩
  · rintro ⟨hgap, cursor', hinner, hspan⟩
    refine ⟨_, ((hstart _).mpr ⟨hgap, rfl⟩).1, ?_⟩
    rw [hinner, Option.bind_some, hspan]
    rfl

/-- A tag that closes itself ends its element. -/
theorem closedSpan_closed {place tagEndPos : Nat} (hlt : place < tagEndPos) :
    closedSpan bytes encoding cursor name (openedSpan bytes encoding ⟨place, tagEndPos, true⟩) =
      some (⟨place, tagEndPos, lineNumberAt bytes encoding place⟩, cursor) :=
  if_neg (Nat.ne_of_gt hlt)

theorem closedSpan_open {place tagEndPos endOffset line : Nat}
    (hline : lineNumberAt bytes encoding place = line) :
    closedSpan bytes encoding cursor' name (openedSpan bytes encoding ⟨place, tagEndPos, false⟩) =
        some (⟨place, endOffset, line⟩, cursor) ↔
      scanEndTag bytes encoding cursor' name = some endOffset ∧ cursor = endOffset := by
  have hends : (openedSpan bytes encoding ⟨place, tagEndPos, false⟩).endOffset =
      (openedSpan bytes encoding ⟨place, tagEndPos, false⟩).startOffset := rfl
  rw [closedSpan, if_pos hends, Option.map_eq_some_iff]
  constructor
  · rintro ⟨found, hscan, hclosed⟩
    obtain ⟨hspan, rfl⟩ := Prod.mk.inj hclosed
    obtain ⟨-, rfl, -⟩ := RawSpan.mk.inj hspan
    exact ⟨hscan, rfl⟩
  · rintro ⟨hscan, rfl⟩
    exact ⟨_, hscan, by rw [← hline]; rfl⟩

end

mutual

/-- **A scan along an element locates it exactly where every gap is passed**: the one before it and
those in it. -/
theorem Element.scan_iff (element : Element) (htags : element.TagsWellFormed)
    {before gap rest : List Char}
    (hbytes : bytes = encode encoding (before ++ (gap ++ (element.text ++ rest)))) (cursor : Nat) :
    element.scan bytes encoding (size encoding before) =
        some (element.located encoding (before ++ gap), cursor) ↔
      Passed gap ∧ element.Gaps Passed ∧ cursor = size encoding (before ++ gap ++ element.text) := by
  have hline : lineNumberAt bytes encoding (size encoding (before ++ gap)) =
      (before ++ gap).count '\n' + 1 := by
    rw [← List.append_assoc] at hbytes
    exact lineNumberAt_eq hbytes
  cases element with
  | empty name attributes =>
    obtain ⟨hname, hattributes⟩ := htags
    have hpos : size encoding (before ++ gap) <
        size encoding (before ++ gap ++ startTag name attributes true) := by
      have hfirst := size_pos encoding '<'
      rw [size_append encoding (before ++ gap), startTag, size_cons]
      omega
    rw [Element.scan, Element.located, scanElement_iff hname hattributes hbytes]
    refine and_congr_right fun _ => ?_
    rw [Element.Gaps, true_and, Element.text]
    constructor
    · rintro ⟨cursor', hinner, hspan⟩
      rw [closedSpan_closed hpos] at hspan
      rw [← (Prod.mk.inj (Option.some.inj hspan)).2, ← (Prod.mk.inj (Option.some.inj hinner)).2]
    · rintro rfl
      refine ⟨_, rfl, ?_⟩
      rw [closedSpan_closed hpos, hline, spanOf]
  | full name attributes children gap' space =>
    obtain ⟨hname, hattributes, hchildren, hspace⟩ := htags
    have htext : (Element.full name attributes children gap' space).text =
        startTag name attributes false ++ (children.text ++ (gap' ++ endTag name space)) := by
      rw [Element.text]
    have hopened : bytes = encode encoding (before ++ (gap ++ (startTag name attributes false ++
        (children.text ++ (gap' ++ (endTag name space ++ rest)))))) := by
      rw [hbytes, htext]
      simp only [List.append_assoc]
    have hinner : bytes = encode encoding (before ++ gap ++ startTag name attributes false ++
        (children.text ++ (gap' ++ (endTag name space ++ rest)))) := by
      rw [hopened]
      simp only [List.append_assoc]
    have hlast : bytes = encode encoding (before ++ gap ++ startTag name attributes false ++ children.text ++
        (gap' ++ (endTag name space ++ rest))) := by
      rw [hopened]
      simp only [List.append_assoc]
    have hend : size encoding (before ++ gap ++ (Element.full name attributes children gap' space).text) =
        size encoding (before ++ gap ++ startTag name attributes false ++ children.text) +
          size encoding (gap' ++ endTag name space) := by
      rw [← size_append, htext]
      simp only [List.append_assoc]
    rw [Element.scan, Element.located, scanElement_iff hname hattributes hopened]
    refine and_congr_right fun _ => ?_
    simp only [children.scan_iff hchildren hinner, spanOf, closedSpan_open hline]
    rw [Element.Gaps, hend]
    constructor
    · rintro ⟨cursor', ⟨hgaps, rfl⟩, hscan, rfl⟩
      exact ⟨⟨hgaps, (scanEndTag_iff hname hspace (reads_of hlast)).mp hscan⟩, rfl⟩
    · rintro ⟨⟨hgaps, hgap'⟩, rfl⟩
      exact ⟨_, ⟨hgaps, rfl⟩, (scanEndTag_iff hname hspace (reads_of hlast)).mpr hgap', rfl⟩

theorem Children.scan_iff (children : Children) (htags : children.TagsWellFormed)
    {before rest : List Char}
    (hbytes : bytes = encode encoding (before ++ (children.text ++ rest))) (cursor : Nat) :
    children.scan bytes encoding (size encoding before) =
        some (children.located encoding before, cursor) ↔
      children.Gaps Passed ∧ cursor = size encoding (before ++ children.text) := by
  cases children with
  | nil =>
    rw [Children.scan, Children.located, Children.Gaps, Children.text, List.append_nil, true_and,
      Option.some_inj, Prod.mk.injEq, eq_comm (a := size encoding before)]
    exact and_iff_right rfl
  | cons gap element children =>
    obtain ⟨helement, hchildren⟩ := htags
    have hfirst : bytes = encode encoding (before ++ (gap ++ (element.text ++ (children.text ++ rest)))) := by
      rw [hbytes, Children.text]
      simp only [List.append_assoc]
    have hmore : bytes = encode encoding (before ++ gap ++ element.text ++ (children.text ++ rest)) := by
      rw [hfirst]
      simp only [List.append_assoc]
    rw [Children.scan, Children.located, Children.Gaps, Children.text, Option.bind_eq_some_iff]
    constructor
    · rintro ⟨⟨node, place⟩, hfound, hrest⟩
      obtain ⟨⟨nodes, last⟩, hscan, hpair⟩ := Option.map_eq_some_iff.mp hrest
      obtain ⟨hnodes, rfl⟩ := Prod.mk.inj hpair
      obtain ⟨rfl, rfl⟩ := List.cons.inj hnodes
      obtain ⟨hgap, hgaps, rfl⟩ := (element.scan_iff helement hfirst _).mp hfound
      obtain ⟨hgaps', rfl⟩ := (children.scan_iff hchildren hmore _).mp hscan
      exact ⟨⟨hgap, hgaps, hgaps'⟩, by simp only [List.append_assoc]⟩
    · rintro ⟨⟨hgap, hgaps, hgaps'⟩, rfl⟩
      refine ⟨_, (element.scan_iff helement hfirst _).mpr ⟨hgap, hgaps, rfl⟩, ?_⟩
      rw [(children.scan_iff hchildren hmore _).mpr ⟨hgaps', rfl⟩]
      simp only [Option.map_some, List.append_assoc]

end

/-! ## Units of the wrong width -/

/-- Bytes that are not zero hold no mark of two bytes. -/
theorem unitIs_wide (hwide : encoding ≠ .singleByte) (hbytes : ∀ byte ∈ bytes, 0 < byte.toNat)
    (pos : Nat) (mark : Char) : unitIs bytes encoding pos mark = false := by
  have hpair {low high : UInt8} (hmem : high ∈ bytes) : pairCode low high = none := by
    refine if_neg fun hzero => ?_
    have := hbytes high hmem
    rw [hzero] at this
    exact absurd this (by decide)
  have hnone : unitAscii bytes encoding pos = none := by
    cases encoding with
    | singleByte => exact absurd rfl hwide
    | utf16Le =>
      rw [unitAscii]
      split
      · rename_i hhigh
        exact hpair (List.mem_of_getElem? hhigh)
      · rfl
    | utf16Be =>
      rw [unitAscii]
      split
      · rename_i hhigh _
        exact hpair (List.mem_of_getElem? hhigh)
      · rfl
  rw [unitIs, hnone]
  rfl

theorem nextMarkup_none (h : ∀ pos, unitIs bytes encoding pos '<' = false) (pos : Nat) :
    nextMarkup bytes encoding pos = none := by
  fun_induction nextMarkup bytes encoding pos with
  | case1 pos _ _ ih => exact ih
  | case2 pos _ hopen _ => exact absurd (h pos) (by simpa using hopen)
  | case3 pos _ hopen _ => exact absurd (h pos) (by simpa using hopen)
  | case4 pos _ hopen _ _ _ => exact absurd (h pos) (by simpa using hopen)
  | case5 => rfl

/-- Then the scan finds no tag at all. -/
theorem Element.scan_wide (hwide : encoding ≠ .singleByte) (hbytes : ∀ byte ∈ bytes, 0 < byte.toNat)
    (element : Element) (cursor : Nat) : element.scan bytes encoding cursor = none := by
  have hstart (name : String) : scanStartTag bytes encoding cursor name = none := by
    cases hscan : scanStartTag bytes encoding cursor name with
    | none => rfl
    | some bounds =>
      have hnext := scanStartTag_openPos hscan
      rw [nextMarkup_none fun pos => unitIs_wide hwide hbytes pos '<'] at hnext
      cases hnext
  cases element with
  | empty name attributes => rw [Element.scan, scanElement, hstart, Option.bind_none]
  | full name attributes children gap space => rw [Element.scan, scanElement, hstart, Option.bind_none]

/-! ## Whole documents -/

/-- The loader's tree is that of the scan, but for attributes and character data. -/
theorem load_skeleton {delivery : Delivery} {root : Element} (hwellFormed : delivery.wellFormed = true)
    (hevents : delivery.events.filterMap Event.bare = root.events)
    (hencoding : detectEncodingClass bytes = .ok encoding) :
    (loadRawDocumentFromMemory bytes delivery).map RawNode.skeleton =
      (root.scan bytes encoding 0).map Prod.fst := by
  have hrun : (run bytes encoding {} delivery.events).map LoaderState.skeleton =
      (root.scan bytes encoding 0).map fun found => LoaderState.close ⟨found.2, [], none⟩ found.1 := by
    rw [skeleton_run, hevents]
    exact root.run_events 0 rfl
  have hload : loadRawDocumentFromMemory bytes delivery =
      (run bytes encoding {} delivery.events).bind LoaderState.root := by
    rw [loadRawDocumentFromMemory, hencoding]
    show (run bytes encoding {} delivery.events).bind (fun state => guard delivery.wellFormed >>= _) = _
    congr 1
    funext state
    rw [guard_bind, if_pos hwellFormed]
  rw [hload]
  cases hstate : run bytes encoding {} delivery.events with
  | none =>
    rw [hstate, Option.map_none] at hrun
    rw [Option.map_eq_none_iff.mp hrun.symm]
    rfl
  | some state =>
    rw [hstate, Option.map_some] at hrun
    obtain ⟨found, hfound, hclosed⟩ := Option.map_eq_some_iff.mp hrun.symm
    rw [hfound, Option.bind_some, Option.map_some]
    exact (congrArg LoaderState.root hclosed).symm

end

/-- The character that a byte order mark encodes. -/
def Document.mark (document : Document) : List Char := if document.marked then ['\uFEFF'] else []

theorem Document.bytes_eq (document : Document) :
    document.bytes = encode document.encoding (document.mark ++ document.text) := by
  obtain ⟨encoding, marked, text⟩ := document
  rw [encode_append]
  cases marked with
  | false => rfl
  | true => cases encoding <;> rfl

theorem passed_mark (document : Document) (gap : List Char) :
    Passed (document.mark ++ gap) ↔ Passed gap := by
  rw [Document.mark]
  cases document.marked with
  | false => rfl
  | true => exact passed_cons_iff (by decide)

/-- **Spans are exact exactly where the encoding is recognised and every gap before a tag is
passed.** -/
theorem spans_exact_iff (document : Document) (xml : XmlText) (delivery : Delivery)
    (hdocument : document.WellFormed) (hmarked : document.encoding ≠ .singleByte → document.marked = true)
    (htext : document.text = xml.text) (hxml : xml.WellFormed) (hwellFormed : delivery.wellFormed = true)
    (hevents : delivery.events.filterMap Event.bare = xml.root.events) :
    (∃ root, loadRawDocumentFromMemory document.bytes delivery = some root ∧
        root.skeleton = xml.root.located document.encoding (document.mark ++ xml.prolog)) ↔
      document.Recognised ∧ Passed xml.prolog ∧ xml.root.Gaps Passed := by
  rw [← Option.map_eq_some_iff]
  have hbytes : document.bytes = encode document.encoding
      ([] ++ ((document.mark ++ xml.prolog) ++ (xml.root.text ++ xml.epilog))) := by
    rw [document.bytes_eq, htext, XmlText.text, List.nil_append, List.append_assoc]
  have hscan (hdetected : detectEncodingClass document.bytes = .ok document.encoding) :
      (loadRawDocumentFromMemory document.bytes delivery).map RawNode.skeleton =
          some (xml.root.located document.encoding (document.mark ++ xml.prolog)) ↔
        Passed xml.prolog ∧ xml.root.Gaps Passed := by
    have htree := fun cursor => xml.root.scan_iff hxml.tags hbytes cursor
    rw [load_skeleton hwellFormed hevents hdetected, Option.map_eq_some_iff]
    simp only [size_nil, List.nil_append, passed_mark] at htree
    constructor
    · rintro ⟨⟨node, cursor⟩, hfound, rfl⟩
      obtain ⟨hgap, hgaps, -⟩ := (htree cursor).mp hfound
      exact ⟨hgap, hgaps⟩
    · rintro ⟨hgap, hgaps⟩
      exact ⟨_, (htree _).mpr ⟨hgap, hgaps, rfl⟩, rfl⟩
  by_cases hsingle : document.encoding = .singleByte
  · obtain ⟨hdetected, hrecognised⟩ := detected_singleByte hdocument hsingle
    by_cases hclass : declarationEncodingClass document.bytes = .singleByte
    · rw [hscan (by rw [hdetected, hclass, hsingle]), and_iff_right (hrecognised.mp hclass)]
    · have hnone := xml.root.scan_wide hclass (fun byte hbyte => (hdocument.bounds hsingle byte hbyte).1) 0
      rw [load_skeleton hwellFormed hevents hdetected, hnone]
      exact iff_of_false (fun h => by cases h) fun h => hclass (hrecognised.mpr h.1)
  · obtain ⟨hdetected, hrecognised⟩ := detected_marked hdocument hsingle (hmarked hsingle)
    rw [hscan hdetected, and_iff_right hrecognised]

/-- **Where every comment is harmless, the spans depend on the encoding alone.** -/
theorem XmlText.passed {xml : XmlText} (hprolog : Gap Harmless xml.prolog)
    (hroot : xml.root.Gaps (Gap Harmless)) : Passed xml.prolog ∧ xml.root.Gaps Passed :=
  ⟨hprolog.passed, hroot.imp fun _ => Gap.passed⟩

theorem Gap.of_plain {kind : List Char → Prop} {text : List Char} (h : ∀ c ∈ text, c ≠ '<') :
    Gap kind text := by
  induction text with
  | nil => exact .nil
  | cons c text ih =>
    obtain ⟨hc, htext⟩ := List.forall_mem_cons.mp h
    exact .plain hc (ih htext)

theorem isName_of_letter {name : String} {c : Char} (hname : name.toList = [c])
    (hc : isNameStart c = true) : IsName name := by
  refine ⟨c, [], hname, hc, fun _ hmem => ?_⟩
  cases hmem

theorem isAttributes_nil : IsAttributes [] := by
  refine ⟨.nil, fun _ hc => ?_⟩
  cases hc

/-- A tag in a comment, a `'>'` in a value, and a child. -/
def nestedXml : XmlText :=
  ⟨['<', '!', '-', '-'] ++ (['<', 'a', '>'] ++ (['-', '-', '>'] ++ ['\n'])),
    .full "a" [' ', 'b', '=', '"', '>', '"'] (.cons [' '] (.empty "c" []) .nil) [' '] [], []⟩

def nestedDocument : Document := ⟨.utf16Be, true, nestedXml.text⟩

theorem nestedXml_tags : nestedXml.root.TagsWellFormed := by
  have hattributes : IsAttributes [' ', 'b', '=', '"', '>', '"'] := by
    refine ⟨.plain (by decide) (.plain (by decide) (.plain (by decide) ?_)), fun c hc => ?_⟩
    · have hvalue : Literals ['"', '\'', '<', '>', '/'] ('"' :: (['>'] ++ '"' :: [])) :=
        .literal (by decide) (by decide) .nil
      exact hvalue
    · rw [← Option.some.inj hc]
      rfl
  refine ⟨isName_of_letter rfl (by decide), hattributes,
    ⟨⟨isName_of_letter rfl (by decide), isAttributes_nil⟩, trivial⟩, fun c hc => ?_⟩
  cases hc

theorem nestedXml_gaps (kind : List Char → Prop) (hcomment : kind ['<', 'a', '>']) :
    Gap kind nestedXml.prolog ∧ nestedXml.root.Gaps (Gap kind) :=
  ⟨.comment hcomment (.of_plain (by decide)), ⟨.of_plain (by decide), trivial, trivial⟩, .of_plain (by decide)⟩

theorem spans_exact_iff_nested :
    ∃ root, loadRawDocumentFromMemory nestedDocument.bytes ⟨nestedXml.root.events, true⟩ = some root ∧
      root.skeleton = nestedXml.root.located .utf16Be (['\uFEFF'] ++ nestedXml.prolog) := by
  have hcomment : IsComment ['<', 'a', '>'] := ⟨by decide, by decide⟩
  have hgaps := nestedXml_gaps IsComment hcomment
  have hharmless := nestedXml_gaps Harmless ⟨hcomment, fun _ => ⟨by decide, by decide⟩⟩
  exact (spans_exact_iff nestedDocument nestedXml ⟨nestedXml.root.events, true⟩
    ⟨by decide, fun _ h => by cases h⟩ (fun _ => rfl) rfl ⟨hgaps.1, nestedXml_tags, hgaps.2, .nil⟩ rfl rfl).mpr
    ⟨trivial, XmlText.passed hharmless.1 hharmless.2⟩

/-- A comment that opens with `'>'`, and holds a tag. -/
def commentedXml : XmlText :=
  ⟨['<', '!', '-', '-'] ++ (['>', '<', 'a', '/', '>'] ++ (['-', '-', '>'] ++ [])), .empty "a" [], []⟩

def commentedDocument : Document := ⟨.singleByte, false, commentedXml.text⟩

/-- The scan finds the tag in the comment. -/
theorem commentedXml_scan : commentedXml.root.scan commentedDocument.bytes .singleByte 0 =
    some (⟨"a", [], "", ⟨5, 9, 1⟩, []⟩, 9) := by
  have hname : IsName "a" := isName_of_letter rfl (by decide)
  have hcomment : Special ['<', '!', '-', '-', '>'] := special_comment ['<', '!'] (by decide) (by decide)
  have hbytes : commentedDocument.bytes = encode .singleByte (['<', '!', '-', '-', '>'] ++
      (startTag "a" [] true ++ ['-', '-', '>', '<', 'a', '/', '>'])) := by decide
  have hwhole : Reads commentedDocument.bytes .singleByte 0 (['<', '!', '-', '-', '>'] ++
      (startTag "a" [] true ++ ['-', '-', '>', '<', 'a', '/', '>'])) := hbytes
  have hnext : nextMarkup commentedDocument.bytes .singleByte 0 = some 5 :=
    (nextMarkup_iff hwhole).mpr ⟨_, _, rfl, .special hcomment .nil, opensTag_startTag hname [] _ true, rfl⟩
  have htag : scanStartTag commentedDocument.bytes .singleByte 0 "a" = some ⟨5, 9, true⟩ :=
    scanStartTag_of hname isAttributes_nil (reads_of hbytes) hnext
  rw [commentedXml, Element.scan, scanElement, htag, Option.bind_some, Option.bind_some,
    closedSpan_closed (by decide)]
  rfl

/-- The comment is taken to end at its `'>'`, and the tag in it for the element's. -/
theorem commentedXml_misplaced : commentedDocument.WellFormed ∧ commentedDocument.Recognised ∧
    commentedXml.WellFormed ∧
    (loadRawDocumentFromMemory commentedDocument.bytes ⟨commentedXml.root.events, true⟩).map RawNode.skeleton =
      some ⟨"a", [], "", ⟨5, 9, 1⟩, []⟩ ∧
    commentedXml.root.located .singleByte commentedXml.prolog = ⟨"a", [], "", ⟨12, 16, 1⟩, []⟩ := by
  have hallowed : commentedDocument.WellFormed := ⟨by decide, fun h => absurd rfl h⟩
  have hdetected : detectEncodingClass commentedDocument.bytes = .ok .singleByte := rfl
  have hrecognised : commentedDocument.Recognised :=
    (detected_singleByte hallowed rfl).2.mp rfl
  have hcomment : IsComment ['>', '<', 'a', '/', '>'] := ⟨by decide, by decide⟩
  refine ⟨hallowed, hrecognised, ⟨.comment hcomment .nil, ⟨isName_of_letter rfl (by decide), isAttributes_nil⟩,
    trivial, .nil⟩, ?_, rfl⟩
  have hload : (loadRawDocumentFromMemory commentedDocument.bytes ⟨commentedXml.root.events, true⟩).map
      RawNode.skeleton = (commentedXml.root.scan commentedDocument.bytes .singleByte 0).map Prod.fst :=
    load_skeleton rfl rfl hdetected
  rw [hload, commentedXml_scan]
  rfl

end ParseX.Loader

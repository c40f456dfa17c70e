import ParseX.Raw.TextScan

/-! # One text in two encodings

The loader runs alike over the bytes of one text in different encodings: the trees differ in their
offsets alone, and there as the characters of the text take different room. -/
namespace ParseX

def RawSpan.relocate (place : Nat → Nat) (span : RawSpan) : RawSpan :=
  ⟨place span.startOffset, place span.endOffset, span.lineNumber⟩

mutual

/-- The tree with its offsets elsewhere, on the same lines. -/
def RawNode.relocate (place : Nat → Nat) (node : RawNode) : RawNode :=
  match node with
  | ⟨tagName, attributes, text, span, children⟩ =>
    ⟨tagName, attributes, text, span.relocate place, relocateAll place children⟩

def relocateAll (place : Nat → Nat) (children : List RawNode) : List RawNode :=
  match children with
  | [] => []
  | child :: rest => child.relocate place :: relocateAll place rest

end

theorem relocateAll_eq (place : Nat → Nat) (children : List RawNode) :
    relocateAll place children = children.map (RawNode.relocate place) := by
  induction children with
  | nil => rfl
  | cons child rest ih => rw [relocateAll, ih, List.map_cons]

theorem RawNode.relocate_eq (place : Nat → Nat) (node : RawNode) : node.relocate place =
    ⟨node.tagName, node.attributes, node.text, node.span.relocate place,
      node.children.map (RawNode.relocate place)⟩ := by
  rw [← relocateAll_eq]
  cases node
  rfl

namespace Loader
open Cpp

/-! ## Offsets of characters -/

/-- How many bytes the characters take in one encoding that take so many in another. -/
def transcode (encoding encoding' : RawEncodingClass) : List Char → Nat → Nat
  | [], _ => 0
  | c :: text, offset =>
    if offset < size encoding [c] then 0
    else size encoding' [c] + transcode encoding encoding' text (offset - size encoding [c])

theorem transcode_size (encoding encoding' : RawEncodingClass) (before rest : List Char) :
    transcode encoding encoding' (before ++ rest) (size encoding before) = size encoding' before := by
  induction before with
  | nil =>
    cases rest with
    | nil => rfl
    | cons c rest => exact if_pos (size_pos encoding c)
  | cons c before ih =>
    rw [List.cons_append, transcode, size_cons, if_neg (by omega), Nat.add_sub_cancel_left, ih,
      size_cons encoding' c before]

/-- The text behind a mark of its own, in either encoding. -/
structure Transcoding where
  encoding : RawEncodingClass
  encoding' : RawEncodingClass
  front : List Char
  front' : List Char
  text : List Char
  /-- The marks open no line. -/
  front_line : '\n' ∉ front
  front_line' : '\n' ∉ front'

namespace Transcoding
variable (pair : Transcoding)

def bytes : Bytes := encode pair.encoding (pair.front ++ pair.text)

def bytes' : Bytes := encode pair.encoding' (pair.front' ++ pair.text)

/-- Where in the one document stands what stands at an offset of the other. -/
def place (offset : Nat) : Nat :=
  size pair.encoding' pair.front' +
    transcode pair.encoding pair.encoding' pair.text (offset - size pair.encoding pair.front)

/-- A character of the text begins at the offset, or the text ends there. -/
def OnText (offset : Nat) : Prop :=
  ∃ before rest, pair.text = before ++ rest ∧ offset = size pair.encoding (pair.front ++ before)

section
variable {pair : Transcoding}

theorem place_eq {before rest : List Char} (h : pair.text = before ++ rest) :
    pair.place (size pair.encoding (pair.front ++ before)) = size pair.encoding' (pair.front' ++ before) := by
  rw [place, size_append, Nat.add_sub_cancel_left, h, transcode_size, size_append]

theorem place_inj {offset other : Nat} (h : pair.OnText offset) (hother : pair.OnText other)
    (heq : pair.place offset = pair.place other) : offset = other := by
  obtain ⟨before, rest, htext, rfl⟩ := h
  obtain ⟨before', rest', htext', rfl⟩ := hother
  rw [place_eq htext, place_eq htext', size_append, size_append] at heq
  rw [size_inj (htext.symm.trans htext') (Nat.add_left_cancel heq)]

theorem reads {before rest : List Char} (h : pair.text = before ++ rest) :
    Reads pair.bytes pair.encoding (size pair.encoding (pair.front ++ before)) rest ∧
      Reads pair.bytes' pair.encoding' (size pair.encoding' (pair.front' ++ before)) rest :=
  ⟨reads_of (by rw [bytes, h, List.append_assoc]), reads_of (by rw [bytes', h, List.append_assoc])⟩

theorem lineNumberAt_place {offset : Nat} (h : pair.OnText offset) :
    lineNumberAt pair.bytes' pair.encoding' (pair.place offset) =
      lineNumberAt pair.bytes pair.encoding offset := by
  obtain ⟨before, rest, htext, rfl⟩ := h
  have hbytes : pair.bytes = encode pair.encoding (pair.front ++ before ++ rest) := by
    rw [bytes, htext, List.append_assoc]
  have hbytes' : pair.bytes' = encode pair.encoding' (pair.front' ++ before ++ rest) := by
    rw [bytes', htext, List.append_assoc]
  rw [place_eq htext, lineNumberAt_eq hbytes, lineNumberAt_eq hbytes', List.count_append, List.count_append,
    List.count_eq_zero.mpr pair.front_line, List.count_eq_zero.mpr pair.front_line']

end
end Transcoding

/-! ## Scans -/

theorem tagText_prefix {text tag : List Char} {selfClosed : Bool} : ∀ {quote : Option Char},
    tagText quote text = some (tag, selfClosed) → ∃ rest, text = tag ++ rest := by
  induction text generalizing tag with
  | nil =>
    intro quote h
    rw [tagText] at h
    cases h
  | cons c text ih =>
    have hlater {quote : Option Char} (h : (tagText quote text).map (fun found => (c :: found.1, found.2)) =
        some (tag, selfClosed)) : ∃ rest, c :: text = tag ++ rest := by
      obtain ⟨⟨more, closed⟩, hmore, hpair⟩ := Option.map_eq_some_iff.mp h
      obtain ⟨rfl, rfl⟩ := Prod.mk.inj hpair
      obtain ⟨rest, rfl⟩ := ih hmore
      exact ⟨rest, rfl⟩
    intro quote h
    cases quote with
    | some quote =>
      rw [tagText] at h
      exact hlater h
    | none =>
      rw [tagText] at h
      split at h
      · exact hlater h
      · split at h
        · rename_i hgreater
          obtain ⟨rfl, rfl⟩ := Prod.mk.inj (Option.some.inj h)
          exact ⟨text, by rw [hgreater]; rfl⟩
        · split at h
          · rename_i hslash
            obtain ⟨rfl, rfl⟩ := Prod.mk.inj (Option.some.inj h)
            obtain ⟨rest, hrest⟩ := List.head?_eq_some_iff.mp hslash.2
            exact ⟨rest, by rw [hslash.1, hrest]; rfl⟩
          · exact hlater h

namespace Transcoding
variable {pair : Transcoding} {offset : Nat}

def relocatedBounds (pair : Transcoding) (bounds : StartTagBounds) : StartTagBounds :=
  ⟨pair.place bounds.openPos, pair.place bounds.tagEndPos, bounds.selfClosed⟩

/-- A scan that finds the same in both documents finds it for both or for none. -/
theorem relocated_option {α β : Type} {found : Option α} {found' : Option β} {move : α → β}
    {p : α → Prop} (h : ∀ a, found = some a → found' = some (move a) ∧ p a)
    (h' : ∀ b, found' = some b → ∃ a, found = some a) :
    found' = found.map move ∧ ∀ a, found = some a → p a := by
  refine ⟨?_, fun a ha => (h a ha).2⟩
  cases hfound : found with
  | some a => exact (h a hfound).1
  | none =>
    cases hfound' : found' with
    | none => rfl
    | some b =>
      obtain ⟨a, ha⟩ := h' b hfound'
      rw [ha] at hfound
      cases hfound

theorem scanStartTag_place (tagName : String) (h : pair.OnText offset) :
    scanStartTag pair.bytes' pair.encoding' (pair.place offset) tagName =
        (scanStartTag pair.bytes pair.encoding offset tagName).map pair.relocatedBounds ∧
      ∀ bounds, scanStartTag pair.bytes pair.encoding offset tagName = some bounds →
        pair.OnText bounds.openPos ∧ pair.OnText bounds.tagEndPos := by
  obtain ⟨before, rest, htext, rfl⟩ := h
  obtain ⟨hreads, hreads'⟩ := reads htext
  rw [place_eq htext]
  refine relocated_option (fun bounds hbounds => ?_) fun bounds hbounds => ?_
  · obtain ⟨gap, tag, selfClosed, hfound, rfl⟩ := (scanStartTag_text hreads).mp hbounds
    obtain ⟨more, hrest, -, -, -, htag⟩ := hfound.found
    obtain ⟨last, rfl⟩ := tagText_prefix htag
    have hopen : pair.text = before ++ gap ++ ('<' :: (tagName.toList ++ (tag ++ last))) := by
      rw [htext, hrest, List.append_assoc]
    have hend : pair.text = before ++ (gap ++ '<' :: (tagName.toList ++ tag)) ++ last := by
      rw [htext, hrest]
      simp only [List.append_assoc, List.cons_append]
    have hopenPos : size pair.encoding (pair.front ++ before) + size pair.encoding gap =
        size pair.encoding (pair.front ++ (before ++ gap)) := by
      rw [← size_append, List.append_assoc]
    have hendPos : size pair.encoding (pair.front ++ before) +
        size pair.encoding (gap ++ '<' :: (tagName.toList ++ tag)) =
        size pair.encoding (pair.front ++ (before ++ (gap ++ '<' :: (tagName.toList ++ tag)))) := by
      rw [← size_append, List.append_assoc]
    refine ⟨(scanStartTag_text hreads').mpr ⟨gap, tag, selfClosed, hfound, ?_⟩, ⟨_, _, hopen, hopenPos⟩,
      ⟨_, _, hend, hendPos⟩⟩
    rw [relocatedBounds]
    dsimp only
    rw [hopenPos, hendPos, place_eq hopen, place_eq hend, ← size_append, ← size_append, List.append_assoc,
      List.append_assoc]
  · obtain ⟨gap, tag, selfClosed, hfound, -⟩ := (scanStartTag_text hreads').mp hbounds
    exact ⟨_, (scanStartTag_text hreads).mpr ⟨gap, tag, selfClosed, hfound, rfl⟩⟩

theorem scanEndTag_place (tagName : String) (h : pair.OnText offset) :
    scanEndTag pair.bytes' pair.encoding' (pair.place offset) tagName =
        (scanEndTag pair.bytes pair.encoding offset tagName).map pair.place ∧
      ∀ next, scanEndTag pair.bytes pair.encoding offset tagName = some next → pair.OnText next := by
  obtain ⟨before, rest, htext, rfl⟩ := h
  obtain ⟨hreads, hreads'⟩ := reads htext
  rw [place_eq htext]
  refine relocated_option (fun next hnext => ?_) fun next hnext => ?_
  · obtain ⟨gap, space, hfound, rfl⟩ := (scanEndTag_text hreads).mp hnext
    obtain ⟨last, rfl⟩ := hfound.found
    have hend : pair.text = before ++ (gap ++ endTag tagName space) ++ last := by
      rw [htext]
      simp only [List.append_assoc]
    have hendPos : size pair.encoding (pair.front ++ before) + size pair.encoding (gap ++ endTag tagName space) =
        size pair.encoding (pair.front ++ (before ++ (gap ++ endTag tagName space))) := by
      rw [← size_append, List.append_assoc]
    refine ⟨(scanEndTag_text hreads').mpr ⟨gap, space, hfound, ?_⟩, ⟨_, _, hend, hendPos⟩⟩
    rw [hendPos, place_eq hend, ← size_append, List.append_assoc]
  · obtain ⟨gap, space, hfound, -⟩ := (scanEndTag_text hreads').mp hnext
    exact ⟨_, (scanEndTag_text hreads).mpr ⟨gap, space, hfound, rfl⟩⟩

/-! ## Handlers -/

/-- The offsets that a run still computes with are those of characters. -/
def StateOnText (pair : Transcoding) (state : LoaderState) : Prop :=
  pair.OnText state.cursor ∧ ∀ node ∈ state.stack,
    pair.OnText node.span.startOffset ∧ pair.OnText node.span.endOffset

def relocatedState (pair : Transcoding) (state : LoaderState) : LoaderState :=
  ⟨pair.place state.cursor, state.stack.map (RawNode.relocate pair.place),
    state.root.map (RawNode.relocate pair.place)⟩

theorem closedSpan_place (tagName : String) {span : RawSpan} (hcursor : pair.OnText offset)
    (hstart : pair.OnText span.startOffset) (hend : pair.OnText span.endOffset) :
    closedSpan pair.bytes' pair.encoding' (pair.place offset) tagName (span.relocate pair.place) =
        (closedSpan pair.bytes pair.encoding offset tagName span).map (fun closed =>
          (closed.1.relocate pair.place, pair.place closed.2)) ∧
      ∀ closed, closedSpan pair.bytes pair.encoding offset tagName span = some closed →
        pair.OnText closed.2 := by
  obtain ⟨hscan, hplaces⟩ := scanEndTag_place tagName hcursor
  have hpending : (span.relocate pair.place).endOffset = (span.relocate pair.place).startOffset ↔
      span.endOffset = span.startOffset :=
    ⟨place_inj hend hstart, congrArg pair.place⟩
  rw [closedSpan, closedSpan]
  by_cases h : span.endOffset = span.startOffset
  · rw [if_pos h, if_pos (hpending.mpr h), hscan, Option.map_map, Option.map_map]
    refine ⟨rfl, fun closed hclosed => ?_⟩
    obtain ⟨next, hnext, rfl⟩ := Option.map_eq_some_iff.mp hclosed
    exact hplaces next hnext
  · rw [if_neg h, if_neg (mt hpending.mp h)]
    refine ⟨rfl, fun closed hclosed => ?_⟩
    rw [← Option.some.inj hclosed]
    exact hcursor

theorem onStartElement_place {state : LoaderState} (h : pair.StateOnText state) (localName : String)
    (qualifier : Option String) (namespaces : List SaxNamespace) (attributes : List SaxAttribute) :
    onStartElement pair.bytes' pair.encoding' (pair.relocatedState state) localName qualifier namespaces
        attributes =
      (onStartElement pair.bytes pair.encoding state localName qualifier namespaces attributes).map
        pair.relocatedState ∧
      ∀ next, onStartElement pair.bytes pair.encoding state localName qualifier namespaces attributes =
        some next → pair.StateOnText next := by
  obtain ⟨hscan, hplaces⟩ := scanStartTag_place (qualifiedName qualifier localName) h.1
  obtain ⟨cursor, stack, root⟩ := state
  rw [onStartElement, onStartElement, relocatedState]
  dsimp only at hscan hplaces ⊢
  rw [hscan]
  cases hbounds : scanStartTag pair.bytes pair.encoding cursor (qualifiedName qualifier localName) with
  | none => exact ⟨rfl, fun next hnext => by cases hnext⟩
  | some bounds =>
    obtain ⟨hopen, hend⟩ := hplaces bounds hbounds
    have hspan : openedSpan pair.bytes' pair.encoding' (pair.relocatedBounds bounds) =
        (openedSpan pair.bytes pair.encoding bounds).relocate pair.place := by
      rw [openedSpan, openedSpan, RawSpan.relocate, relocatedBounds]
      dsimp only
      rw [lineNumberAt_place hopen]
      cases bounds.selfClosed <;> rfl
    have hended : pair.OnText (openedSpan pair.bytes pair.encoding bounds).endOffset := by
      rw [openedSpan]
      dsimp only
      split
      · exact hend
      · exact hopen
    have hempty : (stack.map (RawNode.relocate pair.place)).isEmpty = stack.isEmpty := by cases stack <;> rfl
    have hsome : (root.map (RawNode.relocate pair.place)).isSome = root.isSome := by cases root <;> rfl
    simp only [Option.map_some, Option.bind_eq_bind, Option.bind_some, hempty, hsome, hspan]
    cases stack.isEmpty && root.isSome with
    | true =>
      refine ⟨rfl, fun next hnext => ?_⟩
      rw [← Option.some.inj hnext]
      exact ⟨hend, fun node hnode => by cases hnode⟩
    | false =>
      refine ⟨?_, fun next hnext => ?_⟩
      · simp [relocatedState, relocatedBounds, RawNode.relocate_eq]
      · rw [← Option.some.inj hnext]
        exact ⟨hend, List.forall_mem_cons.mpr ⟨⟨hopen, hended⟩, h.2⟩⟩

theorem close_place (state : LoaderState) (node : RawNode) :
    pair.relocatedState (state.close node) =
      (pair.relocatedState state).close (node.relocate pair.place) := by
  obtain ⟨cursor, stack, root⟩ := state
  cases stack with
  | nil => rfl
  | cons parent stack => simp [LoaderState.close, relocatedState, RawNode.relocate_eq]

theorem onEndElement_place {state : LoaderState} (h : pair.StateOnText state) :
    onEndElement pair.bytes' pair.encoding' (pair.relocatedState state) =
        (onEndElement pair.bytes pair.encoding state).map pair.relocatedState ∧
      ∀ next, onEndElement pair.bytes pair.encoding state = some next → pair.StateOnText next := by
  obtain ⟨cursor, stack, root⟩ := state
  cases stack with
  | nil => exact ⟨rfl, fun next hnext => Option.some.inj hnext ▸ h⟩
  | cons node stack =>
    obtain ⟨hcursor, hstack⟩ := h
    obtain ⟨⟨hstart, hend⟩, hstack⟩ := List.forall_mem_cons.mp hstack
    obtain ⟨hclosed, hplaces⟩ := closedSpan_place node.tagName hcursor hstart hend
    have hrelocated : pair.relocatedState ⟨cursor, node :: stack, root⟩ = ⟨pair.place cursor,
      node.relocate pair.place :: stack.map (RawNode.relocate pair.place),
      root.map (RawNode.relocate pair.place)⟩ := rfl
    rw [hrelocated, onEndElement, onEndElement]
    dsimp only
    rw [RawNode.relocate_eq _ node]
    dsimp only
    rw [hclosed, Option.map_map, Option.map_map]
    refine ⟨?_, fun next hnext => ?_⟩
    · congr 1
      funext closed
      rw [Function.comp_apply, Function.comp_apply, close_place, RawNode.relocate_eq]
      rfl
    · obtain ⟨closed, hspan, rfl⟩ := Option.map_eq_some_iff.mp hnext
      have hplace := hplaces closed hspan
      cases stack with
      | nil => exact ⟨hplace, fun node hnode => by cases hnode⟩
      | cons parent stack => exact ⟨hplace, List.forall_mem_cons.mpr (List.forall_mem_cons.mp hstack)⟩

theorem handle_place {state : LoaderState} (h : pair.StateOnText state) (event : Event) :
    handle pair.bytes' pair.encoding' (pair.relocatedState state) event =
        (handle pair.bytes pair.encoding state event).map pair.relocatedState ∧
      ∀ next, handle pair.bytes pair.encoding state event = some next → pair.StateOnText next := by
  cases event with
  | startElement localName qualifier namespaces attributes =>
    exact onStartElement_place h localName qualifier namespaces attributes
  | endElement => exact onEndElement_place h
  | characters chars =>
    obtain ⟨cursor, stack, root⟩ := state
    cases stack with
    | nil => exact ⟨rfl, fun next hnext => Option.some.inj hnext ▸ h⟩
    | cons node stack =>
      have hsame : pair.StateOnText (onCharacters ⟨cursor, node :: stack, root⟩ chars) :=
        ⟨h.1, List.forall_mem_cons.mpr (List.forall_mem_cons.mp h.2)⟩
      refine ⟨?_, fun next hnext => Option.some.inj hnext ▸ hsame⟩
      simp [handle, onCharacters, relocatedState, RawNode.relocate_eq]

/-- **The loader runs alike over both documents**, whatever is delivered. -/
theorem run_place (events : List Event) : ∀ {state : LoaderState}, pair.StateOnText state →
    run pair.bytes' pair.encoding' (pair.relocatedState state) events =
      (run pair.bytes pair.encoding state events).map pair.relocatedState := by
  induction events with
  | nil =>
    intro state _
    rfl
  | cons event events ih =>
    intro state h
    obtain ⟨hhandle, hnext⟩ := handle_place h event
    rw [run_cons, run_cons, hhandle]
    cases hstep : handle pair.bytes pair.encoding state event with
    | none => rfl
    | some next => exact ih (hnext next hstep)

end Transcoding

/-! ## Documents -/

section
variable {bytes : Bytes} {encoding : RawEncodingClass}

/-- Where a run begins does not matter when the first tag is the same. -/
theorem run_root_congr {cursor cursor' : Nat}
    (h : nextMarkup bytes encoding cursor = nextMarkup bytes encoding cursor') (events : List Event) :
    (run bytes encoding ⟨cursor, [], none⟩ events).map LoaderState.root =
      (run bytes encoding ⟨cursor', [], none⟩ events).map LoaderState.root := by
  induction events with
  | nil => rfl
  | cons event events ih =>
    rw [run_cons, run_cons]
    cases event with
    | startElement localName qualifier namespaces attributes =>
      have hsame : onStartElement bytes encoding ⟨cursor, [], none⟩ localName qualifier namespaces attributes =
          onStartElement bytes encoding ⟨cursor', [], none⟩ localName qualifier namespaces attributes := by
        rw [onStartElement, onStartElement, scanStartTag, scanStartTag, h]
      rw [handle, handle, hsame]
    | characters chars => exact ih
    | endElement => exact ih

end

/-- The two documents of one text. -/
def Document.transcoding (document other : Document) : Transcoding where
  encoding := document.encoding
  encoding' := other.encoding
  front := document.mark
  front' := other.mark
  text := document.text
  front_line := by
    rw [Document.mark]
    split
    all_goals decide
  front_line' := by
    rw [Document.mark]
    split
    all_goals decide

/-- The scan passes the mark. -/
theorem Document.nextMarkup_mark (document : Document) :
    nextMarkup document.bytes document.encoding 0 =
      nextMarkup document.bytes document.encoding (size document.encoding document.mark) := by
  have hall : Reads document.bytes document.encoding 0 (document.mark ++ document.text) := document.bytes_eq
  have htext : Reads document.bytes document.encoding (size document.encoding document.mark) document.text := by
    simpa using hall.past
  refine Option.ext fun next => ?_
  rw [nextMarkup_iff hall, nextMarkup_iff htext]
  rw [Document.mark] at *
  split
  · exact (tagAt_plain (by decide)).trans (by rw [Nat.zero_add]; exact Iff.rfl)
  · rfl

/-- A text is loaded alike in every encoding that is recognised: for the same delivery the loader
throws on both documents or on none, and the trees differ in their offsets alone. -/
theorem load_transcoded (document other : Document) (htext : other.text = document.text)
    (hdetected : detectEncodingClass document.bytes = .ok document.encoding)
    (hdetected' : detectEncodingClass other.bytes = .ok other.encoding) (delivery : Delivery) :
    loadRawDocumentFromMemory other.bytes delivery =
      (loadRawDocumentFromMemory document.bytes delivery).map
        (RawNode.relocate (document.transcoding other).place) := by
  have hload (document : Document) (hdetected : detectEncodingClass document.bytes = .ok document.encoding) :
      loadRawDocumentFromMemory document.bytes delivery = if delivery.wellFormed = true then
        (run document.bytes document.encoding
          ⟨size document.encoding document.mark, [], none⟩ delivery.events).bind LoaderState.root
      else none := by
    have hjoin (state : Option LoaderState) : state.bind LoaderState.root = (state.map LoaderState.root).join := by
      cases state <;> rfl
    rw [hjoin, ← run_root_congr document.nextMarkup_mark delivery.events, ← hjoin,
      loadRawDocumentFromMemory, hdetected]
    show (run document.bytes document.encoding {} delivery.events).bind
      (fun state => guard (delivery.wellFormed = true) >>= fun _ => state.root) = _
    cases delivery.wellFormed with
    | true => rfl
    | false => cases run document.bytes document.encoding {} delivery.events <;> rfl
  have hbytes : (document.transcoding other).bytes = document.bytes := document.bytes_eq.symm
  have hbytes' : (document.transcoding other).bytes' = other.bytes := by
    rw [other.bytes_eq, htext]
    rfl
  have hstart : (document.transcoding other).StateOnText ⟨size document.encoding document.mark, [], none⟩ :=
    ⟨⟨[], document.text, rfl, by rw [List.append_nil]; rfl⟩, fun node hnode => by cases hnode⟩
  have hplace : (document.transcoding other).place (size document.encoding document.mark) =
      size other.encoding other.mark := by
    have hnone : (document.transcoding other).place (size document.encoding (document.mark ++ [])) =
        size other.encoding (other.mark ++ []) :=
      Transcoding.place_eq rfl
    rw [List.append_nil, List.append_nil] at hnone
    exact hnone
  have hrun := Transcoding.run_place delivery.events hstart
  rw [hbytes, hbytes'] at hrun
  rw [hload document hdetected, hload other hdetected']
  cases delivery.wellFormed with
  | false => rfl
  | true =>
    rw [if_pos rfl, if_pos rfl, ← hplace]
    refine (congrArg (Option.bind · LoaderState.root) hrun).trans ?_
    show ((run document.bytes document.encoding _ _).map _).bind _ = _
    cases run document.bytes document.encoding ⟨size document.encoding document.mark, [], none⟩
      delivery.events <;> rfl

end Loader
end ParseX

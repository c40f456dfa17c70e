import ParseX.Raw.Spans

/-! # Every run of the loader

What holds of the spans whatever the bytes are and whatever is delivered for them: where a tree
comes out, each of its elements opens with its own tag and ends with one, and the spans lie as the
elements do. -/
namespace ParseX.Loader
open Cpp

section
variable {bytes : Bytes} {encoding : RawEncodingClass}

/-! ## What a scan meets -/

/-- A unit that is a mark stands inside the bytes. -/
theorem unit_le {pos : Nat} {mark : Char} (h : unitIs bytes encoding pos mark = true) :
    pos + unitWidth encoding ≤ bytes.length := by
  have hsome : unitAscii bytes encoding pos = some mark.toUInt8 := beq_iff_eq.mp h
  by_contra hnot
  have hlast : bytes.length ≤ pos + (unitWidth encoding - 1) := by
    have := unitWidth_pos encoding
    omega
  have hnone : bytes[pos + (unitWidth encoding - 1)]? = none := List.getElem?_eq_none hlast
  cases encoding with
  | singleByte =>
    rw [unitAscii, show bytes[pos]? = none from hnone] at hsome
    cases hsome
  | utf16Le =>
    rw [unitAscii, show bytes[pos + 1]? = none from hnone] at hsome
    cases hfirst : bytes[pos]? <;> simp [hfirst] at hsome
  | utf16Be =>
    rw [unitAscii, show bytes[pos + 1]? = none from hnone] at hsome
    cases hfirst : bytes[pos]? <;> simp [hfirst] at hsome

theorem nextMarkup_spec {scanPos place : Nat} (h : nextMarkup bytes encoding scanPos = some place) :
    scanPos ≤ place ∧ unitIs bytes encoding place '<' = true := by
  fun_induction nextMarkup bytes encoding scanPos with
  | case1 scanPos _ _ ih =>
    obtain ⟨hle, hunit⟩ := ih h
    exact ⟨by omega, hunit⟩
  | case2 => cases h
  | case3 scanPos _ hunit _ =>
    obtain rfl := Option.some.inj h
    exact ⟨le_rfl, by simpa using hunit⟩
  | case4 scanPos _ _ skippedPos hskipped ih =>
    obtain ⟨hle, hunit⟩ := ih h
    have hlt := lt_skipSpecialUnit hskipped
    exact ⟨by omega, hunit⟩
  | case5 => cases h

/-- A tag of the name opens at the place. -/
def OpensAt (bytes : Bytes) (encoding : RawEncodingClass) (place : Nat) (tagName : String) : Prop :=
  unitIs bytes encoding place '<' = true ∧
    matchLiteral bytes encoding (place + unitWidth encoding) tagName.toList = true

/-- A tag ends at the place. -/
def EndsAt (bytes : Bytes) (encoding : RawEncodingClass) (place : Nat) : Prop :=
  ∃ last, place = last + unitWidth encoding ∧ unitIs bytes encoding last '>' = true

/-- A tag that closes itself ends at the place. -/
def ClosesAt (bytes : Bytes) (encoding : RawEncodingClass) (place : Nat) : Prop :=
  ∃ slash, place = slash + 2 * unitWidth encoding ∧ unitIs bytes encoding slash '/' = true ∧
    unitIs bytes encoding (slash + unitWidth encoding) '>' = true

theorem EndsAt.le {place : Nat} (h : EndsAt bytes encoding place) : place ≤ bytes.length := by
  obtain ⟨last, rfl, hunit⟩ := h
  exact unit_le hunit

theorem ClosesAt.endsAt {place : Nat} (h : ClosesAt bytes encoding place) : EndsAt bytes encoding place := by
  obtain ⟨slash, rfl, -, hunit⟩ := h
  exact ⟨slash + unitWidth encoding, by omega, hunit⟩

theorem tagEnd_spec {tagPos next : Nat} {selfClosed : Bool}
    (h : tagEnd bytes encoding tagPos = some (next, selfClosed)) :
    tagPos < next ∧ EndsAt bytes encoding next ∧ (selfClosed = true → ClosesAt bytes encoding next) := by
  have hwidth := unitWidth_pos encoding
  fun_induction tagEnd bytes encoding tagPos with
  | case1 tagPos _ _ place hplace ih =>
    obtain ⟨hlt, hends⟩ := ih h
    have := lt_quotedEnd hplace
    exact ⟨by omega, hends⟩
  | case2 => cases h
  | case3 tagPos _ _ hunit =>
    obtain ⟨rfl, rfl⟩ := Prod.mk.inj (Option.some.inj h)
    exact ⟨by omega, ⟨tagPos, rfl, hunit⟩, fun h => by cases h⟩
  | case4 tagPos _ _ _ hunits =>
    obtain ⟨rfl, rfl⟩ := Prod.mk.inj (Option.some.inj h)
    obtain ⟨hslash, hgreater⟩ := Bool.and_eq_true_iff.mp hunits
    have hcloses : ClosesAt bytes encoding (tagPos + 2 * unitWidth encoding) := ⟨tagPos, rfl, hslash, hgreater⟩
    exact ⟨by omega, hcloses.endsAt, fun _ => hcloses⟩
  | case5 tagPos _ _ _ _ ih =>
    obtain ⟨hlt, hends⟩ := ih h
    exact ⟨by omega, hends⟩
  | case6 => cases h

theorem scanStartTag_spec {cursor : Nat} {tagName : String} {bounds : StartTagBounds}
    (h : scanStartTag bytes encoding cursor tagName = some bounds) :
    cursor ≤ bounds.openPos ∧ OpensAt bytes encoding bounds.openPos tagName ∧
      bounds.openPos < bounds.tagEndPos ∧ EndsAt bytes encoding bounds.tagEndPos ∧
      (bounds.selfClosed = true → ClosesAt bytes encoding bounds.tagEndPos) := by
  have hwidth := unitWidth_pos encoding
  simp only [scanStartTag, guard_bind, Option.ite_none_right_eq_some, Option.bind_eq_bind,
    Option.bind_eq_some_iff] at h
  obtain ⟨-, scanPos, hnext, -, hname, -, ⟨tagEndPos, selfClosed⟩, hend, hbounds⟩ := h
  obtain rfl := Option.some.inj hbounds
  obtain ⟨hle, hunit⟩ := nextMarkup_spec hnext
  obtain ⟨hlt, hends, hcloses⟩ := tagEnd_spec hend
  exact ⟨hle, ⟨hunit, hname⟩, by dsimp only; omega, hends, hcloses⟩

theorem le_pastSpace (tagPos : Nat) : tagPos ≤ pastSpace bytes encoding tagPos := by
  fun_induction pastSpace bytes encoding tagPos with
  | case1 tagPos _ ih => omega
  | case2 => exact le_rfl

theorem scanEndTag_spec {cursor next : Nat} {tagName : String}
    (h : scanEndTag bytes encoding cursor tagName = some next) :
    cursor < next ∧ EndsAt bytes encoding next := by
  have hwidth := unitWidth_pos encoding
  simp only [scanEndTag, guard_bind, Option.ite_none_right_eq_some, Option.bind_eq_bind,
    Option.bind_eq_some_iff] at h
  obtain ⟨-, scanPos, hnext, -, -, hgreater, hplace⟩ := h
  obtain rfl := Option.some.inj hplace
  obtain ⟨hle, -⟩ := nextMarkup_spec hnext
  have hpast := @le_pastSpace bytes encoding (scanPos + unitWidth encoding + unitWidth encoding +
    tagName.toList.length * unitWidth encoding)
  exact ⟨by omega, ⟨_, rfl, hgreater⟩⟩

/-! ## Elements and their spans -/

/-- An element whose span begins with a tag of its name and ends behind a `>`, and below it elements
that lie behind its start, one behind the other, and in it unless the span ends with `/>`. -/
structure Sited (bytes : Bytes) (encoding : RawEncodingClass) (node : RawNode) : Prop where
  opens : OpensAt bytes encoding node.span.startOffset node.tagName
  ends : EndsAt bytes encoding node.span.endOffset
  start_lt_end : node.span.startOffset < node.span.endOffset
  line : node.span.lineNumber = lineNumberAt bytes encoding node.span.startOffset
  behind : ∀ child ∈ node.children, ∀ inner ∈ child.nodes,
    node.span.startOffset < inner.span.startOffset
  apart : node.children.Pairwise fun child next => ∀ inner ∈ child.nodes,
    inner.span.endOffset ≤ next.span.startOffset
  inside : ClosesAt bytes encoding node.span.endOffset ∨ ∀ child ∈ node.children,
    ∀ inner ∈ child.nodes, inner.span.endOffset ≤ node.span.endOffset

/-- An open element when the scan has come to the cursor. -/
structure OpenSited (bytes : Bytes) (encoding : RawEncodingClass) (cursor : Nat) (node : RawNode) :
    Prop where
  opens : OpensAt bytes encoding node.span.startOffset node.tagName
  line : node.span.lineNumber = lineNumberAt bytes encoding node.span.startOffset
  start_lt : node.span.startOffset < cursor
  /-- The end tag is still to come, or the start tag closed itself. -/
  pending : node.span.endOffset = node.span.startOffset ∨
    node.span.startOffset < node.span.endOffset ∧ ClosesAt bytes encoding node.span.endOffset ∧
      node.span.endOffset ≤ cursor
  below : ∀ child ∈ node.children, ∀ inner ∈ child.nodes, Sited bytes encoding inner ∧
    node.span.startOffset < inner.span.startOffset ∧ inner.span.endOffset ≤ cursor
  apart : node.children.Pairwise fun child next => ∀ inner ∈ child.nodes,
    inner.span.endOffset ≤ next.span.startOffset

/-- The inner element opens behind all that its parent holds so far. -/
def Follows (parent node : RawNode) : Prop :=
  parent.span.startOffset < node.span.startOffset ∧
    ∀ child ∈ parent.children, ∀ inner ∈ child.nodes, inner.span.endOffset ≤ node.span.startOffset

def StackSited (bytes : Bytes) (encoding : RawEncodingClass) (cursor : Nat) : List RawNode → Prop
  | [] => True
  | node :: stack => OpenSited bytes encoding cursor node ∧
      (∀ parent, stack.head? = some parent → Follows parent node) ∧ StackSited bytes encoding cursor stack

structure StateSited (bytes : Bytes) (encoding : RawEncodingClass) (state : LoaderState) : Prop where
  stack : StackSited bytes encoding state.cursor state.stack
  root : ∀ root, state.root = some root → ∀ node ∈ root.nodes, Sited bytes encoding node

theorem OpenSited.mono {cursor cursor' : Nat} {node : RawNode} (h : OpenSited bytes encoding cursor node)
    (hle : cursor ≤ cursor') : OpenSited bytes encoding cursor' node where
  opens := h.opens
  line := h.line
  start_lt := h.start_lt.trans_le hle
  pending := h.pending.imp_right fun hclosed => ⟨hclosed.1, hclosed.2.1, hclosed.2.2.trans hle⟩
  below := fun child hchild inner hinner =>
    have hbelow := h.below child hchild inner hinner
    ⟨hbelow.1, hbelow.2.1, hbelow.2.2.trans hle⟩
  apart := h.apart

theorem StackSited.mono {cursor cursor' : Nat} {stack : List RawNode}
    (h : StackSited bytes encoding cursor stack) (hle : cursor ≤ cursor') :
    StackSited bytes encoding cursor' stack := by
  induction stack with
  | nil => trivial
  | cons node stack ih => exact ⟨h.1.mono hle, h.2.1, ih h.2.2⟩

/-! ## One event -/

/-- An element that is complete, with all below it. -/
theorem OpenSited.complete {cursor : Nat} {node : RawNode} {closed : RawSpan × Nat}
    (h : OpenSited bytes encoding cursor node)
    (hclosed : closedSpan bytes encoding cursor node.tagName node.span = some closed) :
    cursor ≤ closed.2 ∧ closed.1.startOffset = node.span.startOffset ∧
      ∀ inner ∈ ({ node with span := closed.1 } : RawNode).nodes, Sited bytes encoding inner ∧
        node.span.startOffset ≤ inner.span.startOffset ∧ inner.span.endOffset ≤ closed.2 := by
  obtain ⟨span, next⟩ := closed
  have hspan : span.startOffset = node.span.startOffset ∧ span.lineNumber = node.span.lineNumber ∧
      node.span.startOffset < span.endOffset ∧ EndsAt bytes encoding span.endOffset ∧
      span.endOffset ≤ next ∧ cursor ≤ next ∧
      (ClosesAt bytes encoding span.endOffset ∨ cursor ≤ span.endOffset) := by
    have hstart := h.start_lt
    rw [closedSpan] at hclosed
    split at hclosed
    · obtain ⟨endOffset, hscan, hpair⟩ := Option.map_eq_some_iff.mp hclosed
      obtain ⟨rfl, rfl⟩ := Prod.mk.inj hpair
      obtain ⟨hlt, hends⟩ := scanEndTag_spec hscan
      exact ⟨rfl, rfl, by dsimp only; omega, hends, le_rfl, hlt.le, .inr hlt.le⟩
    · rename_i hne
      obtain ⟨rfl, rfl⟩ := Prod.mk.inj (Option.some.inj hclosed)
      obtain ⟨hlt, hcloses, hle⟩ := h.pending.resolve_left hne
      exact ⟨rfl, rfl, hlt, hcloses.endsAt, hle, le_rfl, .inl hcloses⟩
  obtain ⟨hstart, hline, hlt, hends, hle, hcursor, hinside⟩ := hspan
  refine ⟨hcursor, hstart, fun inner hinner => ?_⟩
  rw [RawNode.nodes_eq, List.mem_cons, List.mem_flatMap] at hinner
  rcases hinner with rfl | ⟨child, hchild, hinner⟩
  · refine ⟨⟨?_, hends, ?_, ?_, ?_, h.apart, ?_⟩, hstart.ge, hle⟩
    · dsimp only
      rw [hstart]
      exact h.opens
    · dsimp only
      rw [hstart]
      exact hlt
    · dsimp only
      rw [hline, hstart]
      exact h.line
    · intro child hchild inner hinner
      dsimp only
      rw [hstart]
      exact (h.below child hchild inner hinner).2.1
    · refine hinside.imp_right fun hbehind child hchild inner hinner => ?_
      exact (h.below child hchild inner hinner).2.2.trans hbehind
  · obtain ⟨hsited, hbehind, hbefore⟩ := h.below child hchild inner hinner
    exact ⟨hsited, hbehind.le, hbefore.trans hcursor⟩

theorem StateSited.onStartElement {state next : LoaderState} {localName : String}
    {qualifier : Option String} {namespaces : List SaxNamespace} {attributes : List SaxAttribute}
    (h : StateSited bytes encoding state)
    (hnext : onStartElement bytes encoding state localName qualifier namespaces attributes = some next) :
    StateSited bytes encoding next := by
  obtain ⟨bounds, hscan, hnext⟩ := Option.bind_eq_some_iff.mp hnext
  obtain ⟨hcursor, hopens, hlt, -, hcloses⟩ := scanStartTag_spec hscan
  obtain rfl := Option.some.inj hnext
  refine ⟨?_, h.root⟩
  have hstack : StackSited bytes encoding bounds.tagEndPos state.stack := h.stack.mono (by omega)
  dsimp only
  split
  · trivial
  · refine ⟨⟨hopens, rfl, hlt, ?_, ?_, List.Pairwise.nil⟩, fun parent hparent => ?_, hstack⟩
    · dsimp only [openedSpan]
      split
      · rename_i hselfClosed
        exact .inr ⟨hlt, hcloses hselfClosed, le_rfl⟩
      · exact .inl rfl
    · intro child hchild
      cases hchild
    · have hparent : OpenSited bytes encoding state.cursor parent := by
        have hsited := h.stack
        cases hstack : state.stack with
        | nil =>
          rw [hstack] at hparent
          cases hparent
        | cons first stack =>
          rw [hstack] at hparent hsited
          obtain rfl := Option.some.inj hparent
          exact hsited.1
      exact ⟨hparent.start_lt.trans_le hcursor, fun child hchild inner hinner =>
        (hparent.below child hchild inner hinner).2.2.trans hcursor⟩

theorem StateSited.onCharacters {state : LoaderState} (chars : String)
    (h : StateSited bytes encoding state) : StateSited bytes encoding (onCharacters state chars) := by
  obtain ⟨cursor, stack, root⟩ := state
  cases stack with
  | nil => exact h
  | cons node stack =>
    obtain ⟨⟨hnode, hfollows, hstack⟩, hroot⟩ := h
    exact ⟨⟨⟨hnode.opens, hnode.line, hnode.start_lt, hnode.pending, hnode.below, hnode.apart⟩, hfollows,
      hstack⟩, hroot⟩

/-- A complete element joins its parent behind the children it has. -/
theorem OpenSited.append {cursor : Nat} {parent node : RawNode} (h : OpenSited bytes encoding cursor parent)
    (hfollows : Follows parent node)
    (hnode : ∀ inner ∈ node.nodes, Sited bytes encoding inner ∧
      node.span.startOffset ≤ inner.span.startOffset ∧ inner.span.endOffset ≤ cursor) :
    OpenSited bytes encoding cursor { parent with children := parent.children ++ [node] } where
  opens := h.opens
  line := h.line
  start_lt := h.start_lt
  pending := h.pending
  below := by
    intro child hchild inner hinner
    rcases List.mem_append.mp hchild with hold | hnew
    · exact h.below child hold inner hinner
    · rw [List.mem_singleton.mp hnew] at hinner
      obtain ⟨hsited, hstart, hend⟩ := hnode inner hinner
      exact ⟨hsited, hfollows.1.trans_le hstart, hend⟩
  apart := by
    refine List.pairwise_append.mpr ⟨h.apart, List.pairwise_singleton .., fun child hchild next hnext => ?_⟩
    rw [List.mem_singleton.mp hnext]
    exact hfollows.2 child hchild

theorem StateSited.onEndElement {state next : LoaderState} (h : StateSited bytes encoding state)
    (hnext : onEndElement bytes encoding state = some next) : StateSited bytes encoding next := by
  obtain ⟨cursor, stack, root⟩ := state
  cases stack with
  | nil => exact Option.some.inj hnext ▸ h
  | cons node stack =>
    obtain ⟨closed, hclosed, rfl⟩ := Option.map_eq_some_iff.mp hnext
    obtain ⟨⟨hnode, hfollows, hstack⟩, hroot⟩ := h
    obtain ⟨hcursor, hstart, hcomplete⟩ := hnode.complete hclosed
    cases stack with
    | nil =>
      refine ⟨trivial, fun root hroot inner hinner => ?_⟩
      obtain rfl := Option.some.inj hroot
      exact (hcomplete inner hinner).1
    | cons parent stack =>
      obtain ⟨hparent, hbelow, hstack⟩ := hstack
      have hfollowsParent : Follows parent { node with span := closed.1 } := by
        have hfirst := hfollows parent rfl
        exact ⟨hstart ▸ hfirst.1, fun child hchild inner hinner => hstart ▸ hfirst.2 child hchild inner hinner⟩
      refine ⟨⟨(hparent.mono hcursor).append hfollowsParent fun inner hinner => ?_, hbelow,
        hstack.mono hcursor⟩, hroot⟩
      obtain ⟨hsited, hbehind, hbefore⟩ := hcomplete inner hinner
      exact ⟨hsited, hstart ▸ hbehind, hbefore⟩

theorem StateSited.handle {state next : LoaderState} {event : Event} (h : StateSited bytes encoding state)
    (hnext : handle bytes encoding state event = some next) : StateSited bytes encoding next := by
  cases event with
  | startElement localName qualifier namespaces attributes => exact h.onStartElement hnext
  | characters chars => exact Option.some.inj hnext ▸ h.onCharacters chars
  | endElement => exact h.onEndElement hnext

/-- **A run keeps the spans in place**, from any state they are in place in. -/
theorem StateSited.run {events : List Event} : ∀ {state final : LoaderState},
    StateSited bytes encoding state → run bytes encoding state events = some final →
      StateSited bytes encoding final := by
  induction events with
  | nil =>
    intro state final h hrun
    exact Option.some.inj hrun ▸ h
  | cons event events ih =>
    intro state final h hrun
    rw [run_cons] at hrun
    obtain ⟨next, hnext, hrun⟩ := Option.bind_eq_some_iff.mp hrun
    exact ih (h.handle hnext) hrun

/-! ## The loaded tree -/

/-- In document order the elements open one behind the other. -/
theorem starts_increase (root : RawNode) : (∀ node ∈ root.nodes, Sited bytes encoding node) →
    root.nodes.Pairwise fun first second => first.span.startOffset < second.span.startOffset := by
  induction root using RawNode.induction with
  | step root ih =>
    intro h
    have hroot : root ∈ root.nodes := by
      rw [RawNode.nodes_eq]
      exact List.mem_cons_self ..
    have hbelow {child : RawNode} (hchild : child ∈ root.children) {node : RawNode}
        (hnode : node ∈ child.nodes) : node ∈ root.nodes := by
      rw [RawNode.nodes_eq]
      exact List.mem_cons_of_mem _ (List.mem_flatMap.mpr ⟨child, hchild, hnode⟩)
    have hstart {child node : RawNode} (hchild : child ∈ root.children) (hnode : node ∈ child.nodes) :
        child.span.startOffset ≤ node.span.startOffset := by
      have hself : child ∈ child.nodes := by
        rw [RawNode.nodes_eq]
        exact List.mem_cons_self ..
      have hsited := h child (hbelow hchild hself)
      rw [RawNode.nodes_eq, List.mem_cons, List.mem_flatMap] at hnode
      rcases hnode with rfl | ⟨inner, hinner, hnode⟩
      · exact le_rfl
      · exact (hsited.behind inner hinner node hnode).le
    rw [RawNode.nodes_eq, List.pairwise_cons]
    refine ⟨fun node hnode => ?_, List.pairwise_flatMap.mpr ⟨fun child hchild => ?_, ?_⟩⟩
    · obtain ⟨child, hchild, hnode⟩ := List.mem_flatMap.mp hnode
      exact (h root hroot).behind child hchild node hnode
    · exact ih child hchild fun node hnode => h node (hbelow hchild hnode)
    · refine (h root hroot).apart.imp_of_mem fun {child next} hchild hnext hapart first hfirst second hsecond => ?_
      have hlt := (h first (hbelow hchild hfirst)).start_lt_end
      have hle := hapart first hfirst
      have hge := hstart hnext hsecond
      omega

end

theorem load_sited {bytes : Bytes} {delivery : Delivery} {root : RawNode}
    (h : loadRawDocumentFromMemory bytes delivery = some root) :
    ∃ encoding, detectEncodingClass bytes = .ok encoding ∧ ∀ node ∈ root.nodes, Sited bytes encoding node := by
  obtain ⟨encoding, hdetected, h⟩ := Option.bind_eq_some_iff.mp h
  obtain ⟨final, hrun, h⟩ := Option.bind_eq_some_iff.mp h
  rw [guard_bind] at h
  split at h
  · have hstart : StateSited bytes encoding {} := ⟨trivial, fun root hroot => by cases hroot⟩
    have hfinal := hstart.run hrun
    refine ⟨encoding, ?_, hfinal.root root h⟩
    cases hresult : detectEncodingClass bytes with
    | ok found =>
      rw [hresult] at hdetected
      rw [Option.some.inj hdetected]
    | error thrown =>
      rw [hresult] at hdetected
      cases hdetected
  · cases h

/-- **Every loaded tree lies in its bytes**, whatever they are and whatever was delivered for them:
an element begins with a tag of its name, on the line it says, and ends behind a `>`; the elements
below it lie one behind the other, and in it unless its span ends with `/>`; all of them open in
document order. -/
theorem loaded_spans {bytes : Bytes} {delivery : Delivery} {root : RawNode}
    (h : loadRawDocumentFromMemory bytes delivery = some root) :
    ∃ encoding, detectEncodingClass bytes = .ok encoding ∧
      (∀ node ∈ root.nodes, Sited bytes encoding node) ∧
      root.nodes.Pairwise fun first second => first.span.startOffset < second.span.startOffset := by
  obtain ⟨encoding, hdetected, hsited⟩ := load_sited h
  exact ⟨encoding, hdetected, hsited, starts_increase root hsited⟩

/-- A tag that only a comment holds is taken for the element's, and still spans a tag. -/
theorem loaded_spans_commented :
    ∃ root, loadRawDocumentFromMemory commentedDocument.bytes ⟨commentedXml.root.events, true⟩ = some root ∧
      ∃ encoding, detectEncodingClass commentedDocument.bytes = .ok encoding ∧
        (∀ node ∈ root.nodes, Sited commentedDocument.bytes encoding node) ∧
        root.nodes.Pairwise fun first second => first.span.startOffset < second.span.startOffset := by
  have hload : (loadRawDocumentFromMemory commentedDocument.bytes ⟨commentedXml.root.events, true⟩).map
      RawNode.skeleton = (commentedXml.root.scan commentedDocument.bytes .singleByte 0).map Prod.fst :=
    load_skeleton rfl rfl rfl
  rw [commentedXml_scan, Option.map_some] at hload
  obtain ⟨root, hroot, -⟩ := Option.map_eq_some_iff.mp hload
  exact ⟨root, hroot, loaded_spans hroot⟩

end ParseX.Loader

import ParseX.Raw.EncodingDetection
import ParseX.Raw.RawNode
import ParseX.Raw.TagScanner

/-! # The loader

libxml2 delivers the elements of a document; the loader seeks each of their tags in the raw bytes
to give the element its span. Where it throws there is no state. -/
namespace ParseX

mutual

/-- The tree without attributes and character data. -/
def RawNode.skeleton (node : RawNode) : RawNode :=
  match node with
  | ⟨tagName, _, _, span, children⟩ => ⟨tagName, [], "", span, skeletonsOf children⟩

def skeletonsOf (children : List RawNode) : List RawNode :=
  match children with
  | [] => []
  | child :: rest => child.skeleton :: skeletonsOf rest

end

theorem skeletonsOf_eq (children : List RawNode) : skeletonsOf children = children.map RawNode.skeleton := by
  induction children with
  | nil => rfl
  | cons child rest ih => rw [skeletonsOf, ih, List.map_cons]

theorem RawNode.skeleton_eq (node : RawNode) : node.skeleton =
    ⟨node.tagName, [], "", node.span, node.children.map RawNode.skeleton⟩ := by
  rw [← skeletonsOf_eq]
  cases node
  rfl

namespace Loader

/-! ## Events -/

structure SaxAttribute where
  localName : String
  qualifier : Option String
  value : String

structure SaxNamespace where
  qualifier : Option String
  href : Option String

/-- What the handlers are called with. -/
inductive Event where
  | startElement (localName : String) (qualifier : Option String) (namespaces : List SaxNamespace)
      (attributes : List SaxAttribute)
  | characters (chars : String)
  | endElement

def qualifiedName (qualifier : Option String) (localName : String) : String :=
  match qualifier with
  | some qualifier => qualifier ++ ":" ++ localName
  | none => localName

/-- The attributes of a node: the element's, then its namespace declarations. -/
def nodeAttributes (attributes : List SaxAttribute) (namespaces : List SaxNamespace) :
    List (String × String) :=
  attributes.map (fun slots => (qualifiedName slots.qualifier slots.localName, slots.value)) ++
    namespaces.map fun declaration =>
      ((declaration.qualifier.map ("xmlns" ++ ":" ++ ·)).getD "xmlns", declaration.href.getD "")

/-! ## Handlers -/

/-- The open elements stand on the stack, the innermost first; a node joins its parent's children
when its end tag has been seen. -/
structure LoaderState where
  cursor : Nat := 0
  stack : List RawNode := []
  root : Option RawNode := none

/-- The node of the innermost element is complete. -/
def LoaderState.close (state : LoaderState) (node : RawNode) : LoaderState :=
  match state.stack with
  | [] => { state with root := some node }
  | parent :: stack =>
    { state with stack := { parent with children := parent.children ++ [node] } :: stack }

section
variable (bytes : Bytes) (encoding : RawEncodingClass)

/-- The span is complete when the tag closes itself; else its end is its start until the end tag
is seen. -/
def openedSpan (bounds : StartTagBounds) : RawSpan :=
  ⟨bounds.openPos, if bounds.selfClosed then bounds.tagEndPos else bounds.openPos,
    lineNumberAt bytes encoding bounds.openPos⟩

/-- A second document element is not entered. -/
def onStartElement (state : LoaderState) (localName : String) (qualifier : Option String)
    (namespaces : List SaxNamespace) (attributes : List SaxAttribute) : Option LoaderState := do
  let tagName := qualifiedName qualifier localName
  let bounds ← scanStartTag bytes encoding state.cursor tagName
  let node : RawNode :=
    ⟨tagName, nodeAttributes attributes namespaces, "", openedSpan bytes encoding bounds, []⟩
  let stack := if state.stack.isEmpty && state.root.isSome then [] else node :: state.stack
  return { state with cursor := bounds.tagEndPos, stack := stack }

def onCharacters (state : LoaderState) (chars : String) : LoaderState :=
  match state.stack with
  | [] => state
  | node :: stack => { state with stack := { node with text := node.text ++ chars } :: stack }

/-- The end of an element's span, and where the scan goes on. -/
def closedSpan (cursor : Nat) (tagName : String) (span : RawSpan) : Option (RawSpan × Nat) :=
  if span.endOffset = span.startOffset then
    (scanEndTag bytes encoding cursor tagName).map fun endOffset =>
      ({ span with endOffset := endOffset }, endOffset)
  else some (span, cursor)

def onEndElement (state : LoaderState) : Option LoaderState :=
  match state.stack with
  | [] => some state
  | node :: stack =>
    (closedSpan bytes encoding state.cursor node.tagName node.span).map fun closed =>
      LoaderState.close { state with cursor := closed.2, stack := stack } { node with span := closed.1 }

def handle (state : LoaderState) : Event → Option LoaderState
  | .startElement localName qualifier namespaces attributes =>
    onStartElement bytes encoding state localName qualifier namespaces attributes
  | .characters chars => some (onCharacters state chars)
  | .endElement => onEndElement bytes encoding state

def run (state : LoaderState) (events : List Event) : Option LoaderState :=
  events.foldlM (handle bytes encoding) state

end

/-- What libxml2 delivers for a document. -/
structure Delivery where
  events : List Event
  wellFormed : Bool

/-- `loadRawDocumentFromMemory`: the root of the document, none where it throws. -/
def loadRawDocumentFromMemory (bytes : Bytes) (delivery : Delivery) : Option RawNode := do
  let encoding ← (detectEncodingClass bytes).toOption
  let state ← run bytes encoding {} delivery.events
  guard delivery.wellFormed
  state.root

/-! ## Bare events -/

/-- An event as far as it bears on spans: none for character data. -/
def Event.bare : Event → Option Event
  | .startElement localName qualifier _ _ => some (.startElement (qualifiedName qualifier localName) none [] [])
  | .characters _ => none
  | .endElement => some .endElement

def LoaderState.skeleton (state : LoaderState) : LoaderState :=
  ⟨state.cursor, state.stack.map RawNode.skeleton, state.root.map RawNode.skeleton⟩

section
variable {bytes : Bytes} {encoding : RawEncodingClass}

theorem skeleton_close (state : LoaderState) (node : RawNode) :
    (state.close node).skeleton = state.skeleton.close node.skeleton := by
  obtain ⟨cursor, stack, root⟩ := state
  cases stack with
  | nil => rfl
  | cons parent stack =>
    simp [LoaderState.close, LoaderState.skeleton, RawNode.skeleton_eq]

theorem skeleton_onCharacters (state : LoaderState) (chars : String) :
    (onCharacters state chars).skeleton = state.skeleton := by
  obtain ⟨cursor, stack, root⟩ := state
  cases stack with
  | nil => rfl
  | cons node stack => simp [onCharacters, LoaderState.skeleton, RawNode.skeleton_eq]

theorem skeleton_onStartElement (state : LoaderState) (localName : String) (qualifier : Option String)
    (namespaces : List SaxNamespace) (attributes : List SaxAttribute) :
    (onStartElement bytes encoding state localName qualifier namespaces attributes).map
        LoaderState.skeleton =
      onStartElement bytes encoding state.skeleton (qualifiedName qualifier localName) none [] [] := by
  have hname : qualifiedName none (qualifiedName qualifier localName) =
      qualifiedName qualifier localName := rfl
  obtain ⟨cursor, stack, root⟩ := state
  rw [onStartElement, onStartElement, hname]
  dsimp only [LoaderState.skeleton]
  cases scanStartTag bytes encoding cursor (qualifiedName qualifier localName) with
  | none => rfl
  | some bounds =>
    show some (LoaderState.skeleton _) = some _
    cases stack with
    | cons parent stack => simp [LoaderState.skeleton, RawNode.skeleton_eq, nodeAttributes]
    | nil =>
      cases root with
      | none => simp [LoaderState.skeleton, RawNode.skeleton_eq, nodeAttributes]
      | some document => rfl

theorem skeleton_onEndElement (state : LoaderState) :
    (onEndElement bytes encoding state).map LoaderState.skeleton =
      onEndElement bytes encoding state.skeleton := by
  obtain ⟨cursor, stack, root⟩ := state
  cases stack with
  | nil => rfl
  | cons node stack =>
    have hclosed : LoaderState.skeleton ⟨cursor, node :: stack, root⟩ =
        ⟨cursor, node.skeleton :: stack.map RawNode.skeleton, root.map RawNode.skeleton⟩ := rfl
    rw [hclosed, onEndElement, onEndElement]
    dsimp only
    rw [Option.map_map, RawNode.skeleton_eq node]
    congr 1
    funext closed
    rw [Function.comp_apply, skeleton_close, RawNode.skeleton_eq]
    rfl

/-- A handler acts on the skeleton as on the bare event. -/
theorem skeleton_handle (state : LoaderState) (event : Event) :
    (handle bytes encoding state event).map LoaderState.skeleton =
      event.bare.elim (some state.skeleton) (handle bytes encoding state.skeleton) := by
  cases event with
  | startElement localName qualifier namespaces attributes => exact skeleton_onStartElement ..
  | characters chars => exact congrArg some (skeleton_onCharacters state chars)
  | endElement => exact skeleton_onEndElement state

theorem run_cons (state : LoaderState) (event : Event) (events : List Event) :
    run bytes encoding state (event :: events) =
      (handle bytes encoding state event).bind (run bytes encoding · events) := List.foldlM_cons

theorem run_append (state : LoaderState) (events more : List Event) :
    run bytes encoding state (events ++ more) =
      (run bytes encoding state events).bind (run bytes encoding · more) := List.foldlM_append

/-- A run has the skeleton that the bare events give. -/
theorem skeleton_run (events : List Event) : ∀ state,
    (run bytes encoding state events).map LoaderState.skeleton =
      run bytes encoding state.skeleton (events.filterMap Event.bare) := by
  induction events with
  | nil =>
    intro state
    rfl
  | cons event events ih =>
    intro state
    have hhandle : (handle bytes encoding state event).map LoaderState.skeleton =
      event.bare.elim (some state.skeleton) (handle bytes encoding state.skeleton) := skeleton_handle ..
    have hlater : (run bytes encoding state (event :: events)).map LoaderState.skeleton =
        ((handle bytes encoding state event).map LoaderState.skeleton).bind
          (run bytes encoding · (events.filterMap Event.bare)) := by
      rw [run_cons]
      cases handle bytes encoding state event with
      | none => rfl
      | some next => exact ih next
    rw [hlater, hhandle]
    cases hbare : event.bare with
    | none =>
      rw [List.filterMap_cons_none hbare]
      rfl
    | some bare =>
      rw [List.filterMap_cons_some hbare]
      exact (run_cons ..).symm

end

end Loader
end ParseX

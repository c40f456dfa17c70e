import ParseX.Raw.Loader

/-! # What the loader keeps of a document

Apart from its spans a loaded tree is the document that was delivered, whatever the bytes are and
however the parser cuts character data. -/
namespace ParseX

mutual

/-- The tree without spans. -/
def RawNode.content (node : RawNode) : RawNode :=
  match node with
  | ⟨tagName, attributes, text, _, children⟩ => ⟨tagName, attributes, text, {}, contentsOf children⟩

def contentsOf (children : List RawNode) : List RawNode :=
  match children with
  | [] => []
  | child :: rest => child.content :: contentsOf rest

end

theorem contentsOf_eq (children : List RawNode) : contentsOf children = children.map RawNode.content := by
  induction children with
  | nil => rfl
  | cons child rest ih => rw [contentsOf, ih, List.map_cons]

theorem RawNode.content_eq (node : RawNode) : node.content =
    ⟨node.tagName, node.attributes, node.text, {}, node.children.map RawNode.content⟩ := by
  rw [← contentsOf_eq]
  cases node
  rfl

namespace Loader
open Cpp

/-! ## Documents -/

mutual

/-- An element as it is delivered: its name, its attributes and what it holds. -/
inductive Content where
  | element (localName : String) (qualifier : Option String) (namespaces : List SaxNamespace)
      (attributes : List SaxAttribute) (items : Items)

/-- Pieces of character data and elements. -/
inductive Items where
  | nil
  | characters (chars : String) (items : Items)
  | child (content : Content) (items : Items)

end

mutual

def Content.events : Content → List Event
  | .element localName qualifier namespaces attributes items =>
    .startElement localName qualifier namespaces attributes :: (items.events ++ [.endElement])

def Items.events : Items → List Event
  | .nil => []
  | .characters chars items => .characters chars :: items.events
  | .child content items => content.events ++ items.events

end

/-- The character data of the element itself, in one piece. -/
def Items.text : Items → String
  | .nil => ""
  | .characters chars items => chars ++ items.text
  | .child _ items => items.text

mutual

def Content.node : Content → RawNode
  | .element localName qualifier namespaces attributes items =>
    ⟨qualifiedName qualifier localName, nodeAttributes attributes namespaces, items.text, {}, items.nodes⟩

def Items.nodes : Items → List RawNode
  | .nil => []
  | .characters _ items => items.nodes
  | .child content items => content.node :: items.nodes

end

/-! ## Handlers without a scan -/

def LoaderState.content (state : LoaderState) : LoaderState :=
  ⟨0, state.stack.map RawNode.content, state.root.map RawNode.content⟩

/-- What a handler does apart from the scan. -/
def build (state : LoaderState) : Event → LoaderState
  | .startElement localName qualifier namespaces attributes =>
    { state with
      stack := if state.stack.isEmpty && state.root.isSome then []
        else ⟨qualifiedName qualifier localName, nodeAttributes attributes namespaces, "", {}, []⟩ ::
          state.stack }
  | .characters chars => onCharacters state chars
  | .endElement =>
    match state.stack with
    | [] => state
    | node :: stack => LoaderState.close { state with stack := stack } node

section
variable {bytes : Bytes} {encoding : RawEncodingClass}

theorem content_close (state : LoaderState) (node : RawNode) :
    (state.close node).content = state.content.close node.content := by
  obtain ⟨cursor, stack, root⟩ := state
  cases stack with
  | nil => rfl
  | cons parent stack => simp [LoaderState.close, LoaderState.content, RawNode.content_eq]

/-- A handler that succeeds does this to the content. -/
theorem content_handle {state next : LoaderState} {event : Event}
    (h : handle bytes encoding state event = some next) : next.content = build state.content event := by
  obtain ⟨cursor, stack, root⟩ := state
  cases event with
  | startElement localName qualifier namespaces attributes =>
    obtain ⟨bounds, -, h⟩ := Option.bind_eq_some_iff.mp h
    rw [← Option.some.inj h, build]
    cases stack with
    | cons parent stack => simp [LoaderState.content, RawNode.content_eq]
    | nil => cases root <;> simp [LoaderState.content, RawNode.content_eq]
  | characters chars =>
    rw [← Option.some.inj h, build]
    cases stack with
    | nil => rfl
    | cons node stack => simp [onCharacters, LoaderState.content, RawNode.content_eq]
  | endElement =>
    cases stack with
    | nil =>
      rw [← Option.some.inj h]
      rfl
    | cons node stack =>
      obtain ⟨closed, -, rfl⟩ := Option.map_eq_some_iff.mp h
      rw [content_close, build]
      simp [LoaderState.content, RawNode.content_eq]

theorem content_run {events : List Event} : ∀ {state final : LoaderState},
    run bytes encoding state events = some final → final.content = events.foldl build state.content := by
  induction events with
  | nil =>
    intro state final h
    rw [← Option.some.inj h]
    rfl
  | cons event events ih =>
    intro state final h
    rw [run_cons] at h
    obtain ⟨next, hnext, h⟩ := Option.bind_eq_some_iff.mp h
    rw [ih h, List.foldl_cons, content_handle hnext]

end

/-! ## Pieces of character data -/

/-- An event in front of others: a piece of character data joins the one it meets. -/
def joinCharacters : Event → List Event → List Event
  | .characters chars, .characters more :: events => .characters (chars ++ more) :: events
  | event, events => event :: events

def mergeCharacters (events : List Event) : List Event := events.foldr joinCharacters []

theorem onCharacters_append (state : LoaderState) (chars more : String) :
    onCharacters state (chars ++ more) = onCharacters (onCharacters state chars) more := by
  obtain ⟨cursor, stack, root⟩ := state
  cases stack with
  | nil => rfl
  | cons node stack => simp [onCharacters, String.append_assoc]

theorem run_join (bytes : Bytes) (encoding : RawEncodingClass) (state : LoaderState) (event : Event)
    (events : List Event) :
    run bytes encoding state (joinCharacters event events) = run bytes encoding state (event :: events) := by
  cases event with
  | startElement localName qualifier namespaces attributes => rfl
  | endElement => rfl
  | characters chars =>
    cases events with
    | nil => rfl
    | cons next events =>
      cases next with
      | startElement localName qualifier namespaces attributes => rfl
      | endElement => rfl
      | characters more =>
        show run bytes encoding (onCharacters state (chars ++ more)) events = _
        rw [onCharacters_append]
        rfl

/-- A run does not see where character data is cut. -/
theorem run_merge (bytes : Bytes) (encoding : RawEncodingClass) (events : List Event) :
    ∀ state, run bytes encoding state (mergeCharacters events) = run bytes encoding state events := by
  induction events with
  | nil => exact fun state => rfl
  | cons event events ih =>
    intro state
    rw [mergeCharacters, List.foldr_cons, run_join, run_cons, run_cons]
    exact congrArg _ (funext fun next => ih next)

theorem load_merge {bytes : Bytes} {delivery delivery' : Delivery}
    (hwellFormed : delivery'.wellFormed = delivery.wellFormed)
    (hevents : mergeCharacters delivery'.events = mergeCharacters delivery.events) :
    loadRawDocumentFromMemory bytes delivery' = loadRawDocumentFromMemory bytes delivery := by
  rw [loadRawDocumentFromMemory, loadRawDocumentFromMemory, hwellFormed]
  refine congrArg _ (funext fun encoding => ?_)
  rw [← run_merge, hevents, run_merge]

/-! ## Documents are built -/

/-- The element with more items in it. -/
def holding (node : RawNode) (items : Items) : RawNode :=
  { node with
    text := node.text ++ items.text
    children := node.children ++ items.nodes }

mutual

theorem Content.build_events (content : Content) {stack : List RawNode} {root : Option RawNode}
    (hentered : (stack.isEmpty && root.isSome) = false) :
    content.events.foldl build ⟨0, stack, root⟩ = LoaderState.close ⟨0, stack, root⟩ content.node := by
  cases content with
  | element localName qualifier namespaces attributes items =>
    have hopened : build ⟨0, stack, root⟩ (.startElement localName qualifier namespaces attributes) =
        ⟨0, ⟨qualifiedName qualifier localName, nodeAttributes attributes namespaces, "", {}, []⟩ :: stack,
          root⟩ := by
      rw [build]
      simp only [hentered]
      rfl
    have hnode : holding ⟨qualifiedName qualifier localName, nodeAttributes attributes namespaces, "", {}, []⟩
        items = (Content.element localName qualifier namespaces attributes items).node := by
      simp [holding, Content.node]
    rw [Content.events, List.foldl_cons, List.foldl_append, hopened, items.build_events, hnode]
    rfl

theorem Items.build_events (items : Items) (node : RawNode) (stack : List RawNode)
    (root : Option RawNode) : items.events.foldl build ⟨0, node :: stack, root⟩ =
      ⟨0, holding node items :: stack, root⟩ := by
  cases items with
  | nil =>
    cases node
    simp [holding, Items.events, Items.text, Items.nodes]
  | characters chars items =>
    rw [Items.events, List.foldl_cons, build, onCharacters]
    simp [items.build_events, holding, Items.text, Items.nodes, String.append_assoc]
  | child content items =>
    rw [Items.events, List.foldl_append, content.build_events rfl, LoaderState.close]
    simp [items.build_events, holding, Items.text, Items.nodes]

end

/-- **A loaded tree is the document**: names, attributes, namespace declarations, character data and
children of every element are those that were delivered. -/
theorem loaded_content {bytes : Bytes} {content : Content} {wellFormed : Bool} {root : RawNode}
    (h : loadRawDocumentFromMemory bytes ⟨content.events, wellFormed⟩ = some root) :
    root.content = content.node := by
  obtain ⟨encoding, -, h⟩ := Option.bind_eq_some_iff.mp h
  obtain ⟨final, hrun, h⟩ := Option.bind_eq_some_iff.mp h
  obtain ⟨-, -, h⟩ := Option.bind_eq_some_iff.mp h
  have hfinal : final.content.root = some content.node := by
    have hstart : LoaderState.content {} = ⟨0, [], none⟩ := rfl
    rw [content_run hrun, hstart, content.build_events rfl]
    rfl
  rw [LoaderState.content, h] at hfinal
  exact Option.some.inj hfinal

/-- Character data around a child, the last piece of it in two. -/
def mixedContent : Content :=
  .element "A" none [] [⟨"id", none, "1"⟩] (.characters "x" (.child (.element "B" (some "p") [] [] .nil)
    (.characters "y" (.characters "z" .nil))))

theorem loaded_content_mixed :
    ∃ root, loadRawDocumentFromMemory (utf8 "<A id='1'>x<p:B/>yz</A>") ⟨mixedContent.events, true⟩ = some root ∧
      root.content = ⟨"A", [("id", "1")], "xyz", {}, [⟨"p:B", [], "", {}, []⟩]⟩ := by
  have hloads : (loadRawDocumentFromMemory (utf8 "<A id='1'>x<p:B/>yz</A>")
      ⟨mixedContent.events, true⟩).isSome = true := by decide +kernel
  obtain ⟨root, hroot⟩ := Option.isSome_iff_exists.mp hloads
  exact ⟨root, hroot, loaded_content hroot⟩

end Loader
end ParseX

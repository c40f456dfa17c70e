import ParseX.Raw.TagBounds

/-! # Documents as trees

The text of a well-formed document without a document type declaration, as the tree of its
elements, and where each element lies in it. -/
namespace ParseX.Loader

mutual

/-- `<name attributes/>`, or `<name attributes>` with children, each after a gap, a last gap and
the end tag. -/
inductive Element where
  | empty (name : String) (attributes : List Char)
  | full (name : String) (attributes : List Char) (children : Children) (gap space : List Char)

inductive Children where
  | nil
  | cons (gap : List Char) (element : Element) (children : Children)

end

mutual

def Element.text : Element → List Char
  | .empty name attributes => startTag name attributes true
  | .full name attributes children gap space =>
    startTag name attributes false ++ (children.text ++ (gap ++ endTag name space))

def Children.text : Children → List Char
  | .nil => []
  | .cons gap element children => gap ++ (element.text ++ children.text)

end

mutual

def Element.TagsWellFormed : Element → Prop
  | .empty name attributes => IsName name ∧ IsAttributes attributes
  | .full name attributes children _ space => IsName name ∧ IsAttributes attributes ∧
      children.TagsWellFormed ∧ ∀ c ∈ space, isBlank c = true

def Children.TagsWellFormed : Children → Prop
  | .nil => True
  | .cons _ element children => element.TagsWellFormed ∧ children.TagsWellFormed

end

mutual

/-- What stands between two tags of the element satisfies `P`. -/
def Element.Gaps (P : List Char → Prop) : Element → Prop
  | .empty _ _ => True
  | .full _ _ children gap _ => children.Gaps P ∧ P gap

def Children.Gaps (P : List Char → Prop) : Children → Prop
  | .nil => True
  | .cons gap element children => P gap ∧ element.Gaps P ∧ children.Gaps P

end

mutual

theorem Element.Gaps.imp {P Q : List Char → Prop} (h : ∀ gap, P gap → Q gap) {element : Element}
    (hgaps : element.Gaps P) : element.Gaps Q := by
  cases element with
  | empty name attributes => trivial
  | full name attributes children gap space => exact ⟨hgaps.1.imp h, h gap hgaps.2⟩

theorem Children.Gaps.imp {P Q : List Char → Prop} (h : ∀ gap, P gap → Q gap) {children : Children}
    (hgaps : children.Gaps P) : children.Gaps Q := by
  cases children with
  | nil => trivial
  | cons gap element children => exact ⟨h gap hgaps.1, hgaps.2.1.imp h, hgaps.2.2.imp h⟩

end

structure XmlText where
  prolog : List Char
  root : Element
  epilog : List Char

def XmlText.text (xml : XmlText) : List Char := xml.prolog ++ (xml.root.text ++ xml.epilog)

structure XmlText.WellFormed (xml : XmlText) : Prop where
  prolog : Gap IsComment xml.prolog
  tags : xml.root.TagsWellFormed
  gaps : xml.root.Gaps (Gap IsComment)
  epilog : Gap IsComment xml.epilog

/-! ## Where elements lie -/

/-- The span of a text that stands after another. -/
def spanOf (encoding : RawEncodingClass) (before text : List Char) : RawSpan :=
  ⟨size encoding before, size encoding (before ++ text), before.count '\n' + 1⟩

mutual

/-- The element's node, without attributes and character data, with the spans of its text and of
its children's. -/
def Element.located (encoding : RawEncodingClass) (before : List Char) : Element → RawNode
  | .empty name attributes =>
    ⟨name, [], "", spanOf encoding before (startTag name attributes true), []⟩
  | .full name attributes children gap space =>
    ⟨name, [], "", spanOf encoding before (Element.full name attributes children gap space).text,
      children.located encoding (before ++ startTag name attributes false)⟩

def Children.located (encoding : RawEncodingClass) (before : List Char) : Children → List RawNode
  | .nil => []
  | .cons gap element children => element.located encoding (before ++ gap) ::
      children.located encoding (before ++ gap ++ element.text)

end

end ParseX.Loader

import Mathlib.Data.List.DropRight
import Mathlib.Data.List.Forall2

/-! # The raw document tree

`RawNode` as the loader fills it, and the searches every later block runs over
it. The parent link is left out: no search follows it. -/
namespace ParseX

structure RawSpan where
  startOffset : Nat := 0
  endOffset : Nat := 0
  lineNumber : Nat := 0
  deriving DecidableEq, Repr

structure RawNode where
  tagName : String
  attributes : List (String × String) := []
  /-- Character data of the element itself, untrimmed. -/
  text : String := ""
  span : RawSpan := {}
  children : List RawNode := []

/-- Induction on the tree, with the hypothesis for every child. -/
theorem RawNode.induction {P : RawNode → Prop}
    (step : ∀ node : RawNode, (∀ child ∈ node.children, P child) → P node) (node : RawNode) :
    P node := by
  refine @RawNode.rec P (fun cs => ∀ c ∈ cs, P c) ?_ ?_ ?_ node
  · intro tagName attributes text span children ih
    exact step ⟨tagName, attributes, text, span, children⟩ ih
  · intro c hc; cases hc
  · intro c cs hc hcs d hd
    rcases List.mem_cons.mp hd with rfl | hd
    · exact hc
    · exact hcs d hd

/-! ## Text -/

/-- The set `" \t\r\n"` that the readers trim. -/
def isBlank (c : Char) : Bool := c == ' ' || c == '\t' || c == '\r' || c == '\n'

def trimChars (cs : List Char) : List Char := (cs.dropWhile isBlank).rdropWhile isBlank

/-- `trimText`; every source file that trims has its own copy of it. -/
def trimText (text : String) : String := String.ofList (trimChars text.toList)

/-- `shortNameOfRef`: the trimmed text after the last slash. -/
def shortNameOfRef (ref : String) : String :=
  String.ofList ((trimText ref).toList.rtakeWhile (· != '/'))

@[simp] theorem toList_trimText (text : String) : (trimText text).toList = trimChars text.toList := by
  simp [trimText]

@[simp] theorem toList_shortNameOfRef (ref : String) :
    (shortNameOfRef ref).toList = (trimChars ref.toList).rtakeWhile (· != '/') := by
  simp [shortNameOfRef]

/-- No blank at either end. -/
def Trimmed (cs : List Char) : Prop :=
  (∀ c ∈ cs.head?, isBlank c = false) ∧ ∀ c ∈ cs.getLast?, isBlank c = false

theorem trimChars_eq_self {cs : List Char} (h : Trimmed cs) : trimChars cs = cs := by
  obtain ⟨hhead, hlast⟩ := h
  have hd : cs.dropWhile isBlank = cs := by
    cases cs with
    | nil => rfl
    | cons c cs => simp [hhead c (by simp)]
  rw [trimChars, hd, List.rdropWhile_eq_self_iff]
  intro hl hb
  rw [hlast _ (List.getLast_mem_getLast? hl)] at hb
  cases hb

theorem getLast_rdropWhile {cs : List Char} {p : Char → Bool} {c : Char}
    (hc : c ∈ (cs.rdropWhile p).getLast?) : p c = false := by
  obtain ⟨hne, rfl⟩ := List.mem_getLast?_eq_getLast hc
  simpa using List.rdropWhile_last_not p cs hne

theorem trimmed_trimChars (cs : List Char) : Trimmed (trimChars cs) := by
  refine ⟨?_, fun c hc => getLast_rdropWhile hc⟩
  intro c hc
  -- a prefix of the left-trimmed list has the same head
  have hpre : trimChars cs <+: cs.dropWhile isBlank := List.rdropWhile_prefix _ _
  obtain ⟨rest, hrest⟩ := hpre
  cases ht : trimChars cs with
  | nil => rw [ht] at hc; simp at hc
  | cons d ds =>
    rw [ht] at hc hrest
    simp only [List.head?_cons, Option.mem_def, Option.some.injEq] at hc
    subst hc
    have hne : cs.dropWhile isBlank ≠ [] := by rw [← hrest]; simp
    have := List.head_dropWhile_not isBlank hne
    simp only [← hrest, List.cons_append, List.head_cons] at this
    exact this

@[simp] theorem trimChars_trimChars (cs : List Char) : trimChars (trimChars cs) = trimChars cs :=
  trimChars_eq_self (trimmed_trimChars cs)

/-- A text that trimming leaves alone. -/
def IsTrimmed (text : String) : Prop := trimText text = text

theorem isTrimmed_trimText (text : String) : IsTrimmed (trimText text) := by
  apply String.toList_inj.mp
  simp

theorem isTrimmed_empty : IsTrimmed "" := by
  unfold IsTrimmed; rfl

/-- A reference name: what `shortNameOfRef` leaves of some reference. -/
def IsRefName (name : String) : Prop :=
  (∀ c ∈ name.toList, c ≠ '/') ∧ ∀ c ∈ name.toList.getLast?, isBlank c = false

theorem isRefName_shortNameOfRef (ref : String) : IsRefName (shortNameOfRef ref) := by
  rw [IsRefName, toList_shortNameOfRef]
  constructor
  · intro c hc
    have := List.mem_rtakeWhile_imp hc
    simpa using this
  · intro c hc
    have hsuf : (trimChars ref.toList).rtakeWhile (· != '/') <:+ trimChars ref.toList :=
      List.rtakeWhile_suffix _ _
    obtain ⟨front, hfront⟩ := hsuf
    have hlast := (trimmed_trimChars ref.toList).2
    refine hlast c ?_
    rw [← hfront, List.getLast?_append, hc]
    rfl

/-- Reading back a reference made of an absolute package path and a name. -/
theorem shortNameOfRef_path {pkg name : String} {mid : List Char} (hn : IsRefName name)
    (hp : pkg.toList = '/' :: (mid ++ ['/'])) : shortNameOfRef (pkg ++ name) = name := by
  apply String.toList_inj.mp
  have htrim : Trimmed (pkg.toList ++ name.toList) := by
    constructor
    · intro c hc
      rw [hp] at hc
      cases hc; rfl
    · intro c hc
      cases hl : name.toList.getLast? with
      | none =>
        rw [List.getLast?_append, hl, hp, ← List.cons_append, List.getLast?_concat] at hc
        cases hc; rfl
      | some d =>
        rw [List.getLast?_append, hl] at hc
        cases hc; exact hn.2 c (by rw [hl]; rfl)
  rw [toList_shortNameOfRef, String.toList_append, trimChars_eq_self htrim, hp]
  have hall : ∀ c ∈ name.toList.reverse, (c != '/') = true := by
    intro c hc
    simpa using hn.1 c (List.mem_reverse.mp hc)
  simp only [List.rtakeWhile, List.reverse_append, List.reverse_cons, List.reverse_nil,
    List.nil_append, List.singleton_append, List.takeWhile_append_of_pos hall]
  simp

/-! ## Searches -/

/-- The first direct child with the tag. -/
def findChild (node : RawNode) (tag : String) : Option RawNode :=
  node.children.find? fun child => child.tagName == tag

mutual

/-- Every descendant with the tag, in document order. -/
def collectDescendants (tag : String) (node : RawNode) : List RawNode :=
  match node with
  | ⟨_, _, _, _, children⟩ => collectDescendantsOf tag children

def collectDescendantsOf (tag : String) (children : List RawNode) : List RawNode :=
  match children with
  | [] => []
  | child :: rest => (if child.tagName == tag then [child] else []) ++
      collectDescendants tag child ++ collectDescendantsOf tag rest

end

def findDescendants (node : RawNode) (tag : String) : List RawNode := collectDescendants tag node

def findDescendant (node : RawNode) (tag : String) : Option RawNode := (findDescendants node tag).head?

/-- Trimmed text of a direct child; a child without text gives `""`. -/
def childText (node : RawNode) (tag : String) : Option String :=
  (findChild node tag).map fun child => trimText child.text

mutual

/-- The tree in document order, the node itself first. -/
def RawNode.nodes (node : RawNode) : List RawNode :=
  match node with
  | ⟨tagName, attributes, text, span, children⟩ =>
    ⟨tagName, attributes, text, span, children⟩ :: nodesOf children

def nodesOf (children : List RawNode) : List RawNode :=
  match children with
  | [] => []
  | child :: rest => child.nodes ++ nodesOf rest

end

theorem nodesOf_eq (children : List RawNode) : nodesOf children = children.flatMap RawNode.nodes := by
  induction children with
  | nil => rfl
  | cons c cs ih => rw [nodesOf, ih, List.flatMap_cons]

theorem RawNode.nodes_eq (node : RawNode) :
    node.nodes = node :: node.children.flatMap RawNode.nodes := by
  rw [← nodesOf_eq]
  cases node
  rfl

theorem collectDescendantsOf_eq (tag : String) (children : List RawNode) :
    collectDescendantsOf tag children = children.flatMap fun child =>
      (if child.tagName == tag then [child] else []) ++ collectDescendants tag child := by
  induction children with
  | nil => rfl
  | cons c cs ih => rw [collectDescendantsOf, ih, List.flatMap_cons]

theorem collectDescendants_eq (tag : String) (node : RawNode) :
    collectDescendants tag node = node.children.flatMap fun child =>
      (if child.tagName == tag then [child] else []) ++ collectDescendants tag child := by
  rw [← collectDescendantsOf_eq]
  cases node
  rfl

end ParseX

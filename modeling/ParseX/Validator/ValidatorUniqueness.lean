import ParseX.Cpp.Map
import ParseX.Validator.ValidationResult

/-! # Uniqueness of short names

The check of every parent scope for children of one name. -/
namespace ParseX
open Cpp

def findShortNameChild (node : RawNode) : Option RawNode := findChild node "SHORT-NAME"

/-- The name a node has for the checks; an empty one counts as none. -/
def scopeName (node : RawNode) : Option String :=
  match findShortNameChild node with
  | none => none
  | some shortName => if trimText shortName.text = "" then none else some (trimText shortName.text)

/-- The path of a node below the path of its parent. -/
def scopePath (node : RawNode) (basePath : String) : String :=
  match scopeName node with
  | none => basePath
  | some name => basePath ++ "/" ++ name

/-- The named children of a node; the `SHORT-NAME` itself is none. -/
def namedChildren (node : RawNode) : List (String × RawNode) :=
  node.children.filterMap fun child =>
    if child.tagName == "SHORT-NAME" then none
    else (scopeName child).map fun name => (name, child)

/-- The children by name, in document order. -/
def byName (children : List (String × RawNode)) : StdMap (List RawNode) :=
  children.foldl (fun map (name, child) => map.insert name (map[name]?.getD [] ++ [child])) ∅

/-- The finding for the second child of a name. -/
def duplicateFinding (nodePath name : String) (second : RawNode) : ValidationError where
  code := "shortname.duplicate"
  message := "duplicate SHORT-NAME '" ++ name ++ "' under '" ++
    (if nodePath = "" then "/" else nodePath) ++ "'"
  location := some second.span
  path := some (if nodePath = "" then "/" else nodePath)

/-- The part of `checkNode` about the node's own children. -/
def checkScope (node : RawNode) (nodePath : String) : List ValidationError :=
  (byName (namedChildren node)).toList.filterMap fun (name, members) =>
    members[1]?.map (duplicateFinding nodePath name)

mutual

def checkNode (node : RawNode) (basePath : String) : List ValidationError :=
  match node with
  | ⟨tagName, attributes, text, span, children⟩ =>
    let node : RawNode := ⟨tagName, attributes, text, span, children⟩
    checkScope node (scopePath node basePath) ++ checkChildren children (scopePath node basePath)

def checkChildren (children : List RawNode) (nodePath : String) : List ValidationError :=
  match children with
  | [] => []
  | child :: rest =>
    (if child.tagName == "SHORT-NAME" then [] else checkNode child nodePath) ++
      checkChildren rest nodePath

end

/-- `Validator::validateUniqueness`. -/
def validateUniqueness {D : Type} [Double D] (project : ParsedProject D) : ValidationResult :=
  ⟨project.files.flatMap fun file =>
    match file.rawDocument with
    | none => []
    | some root => checkNode root ""⟩

/-! ## One scope -/

theorem getElem?_byName (children : List (String × RawNode)) (name : String) :
    (byName children)[name]?.getD [] =
      (children.filter fun entry => entry.1 = name).map Prod.snd := by
  have hfold : ∀ map : StdMap (List RawNode), (children.foldl (fun map (name, child) =>
      map.insert name (map[name]?.getD [] ++ [child])) map)[name]?.getD [] =
      map[name]?.getD [] ++ (children.filter fun entry => entry.1 = name).map Prod.snd := by
    induction children with
    | nil => intro map; simp
    | cons entry children ih =>
      intro map
      rw [List.foldl_cons, ih, Std.ExtTreeMap.getElem?_insert]
      by_cases hname : entry.1 = name
      · subst hname
        simp
      · have hc : compare entry.1 name ≠ .eq := fun h => hname (Std.LawfulEqOrd.eq_of_compare h)
        simp [hc, hname]
  rw [byName, hfold]
  simp

/-- A scope has no findings exactly when the names of its children are distinct. -/
theorem checkScope_eq_nil {node : RawNode} {nodePath : String} :
    checkScope node nodePath = [] ↔ ((namedChildren node).map Prod.fst).Nodup := by
  generalize hchildren : namedChildren node = children
  have hcount (name : String) : (children.map Prod.fst).count name =
      ((byName children)[name]?.getD []).length := by
    rw [getElem?_byName, List.length_map, List.count_eq_length_filter, List.filter_map,
      List.length_map]
    congr 2
  have hsecond (members : List RawNode) : members[1]? = none ↔ members.length ≤ 1 :=
    List.getElem?_eq_none_iff
  rw [List.nodup_iff_count_le_one, checkScope, hchildren, List.filterMap_eq_nil_iff]
  constructor
  · intro h name
    rw [hcount]
    cases hmembers : (byName children)[name]? with
    | none => simp
    | some members =>
      have hnone := h (name, members) (Std.ExtTreeMap.mem_toList_iff_getElem?_eq_some.mpr hmembers)
      exact (hsecond members).mp (by simpa using hnone)
  · rintro h ⟨name, members⟩ hentry
    have hmembers := Std.ExtTreeMap.mem_toList_iff_getElem?_eq_some.mp hentry
    have hle := h name
    rw [hcount, hmembers] at hle
    dsimp only
    rw [(hsecond members).mpr hle]
    rfl

theorem checkChildren_eq_nil {children : List RawNode} {nodePath : String} :
    checkChildren children nodePath = [] ↔
      ∀ child ∈ children, child.tagName ≠ "SHORT-NAME" → checkNode child nodePath = [] := by
  induction children with
  | nil => simp [checkChildren]
  | cons child rest ih =>
    rw [checkChildren, List.append_eq_nil_iff, ih, List.forall_mem_cons]
    by_cases htag : child.tagName = "SHORT-NAME" <;> simp [htag]

/-- A tree has no findings exactly when all its scopes have none. -/
theorem checkNode_eq_nil {node : RawNode} {basePath : String} :
    checkNode node basePath = [] ↔ ((namedChildren node).map Prod.fst).Nodup ∧
      ∀ child ∈ node.children, child.tagName ≠ "SHORT-NAME" →
        checkNode child (scopePath node basePath) = [] := by
  cases node
  rw [checkNode, List.append_eq_nil_iff, checkScope_eq_nil, checkChildren_eq_nil]

end ParseX

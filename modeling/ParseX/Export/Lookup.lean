import ParseX.Export.CanDb

/-! # What the index finds

The tables of the index as searches over the document: `try_emplace` in
document order keeps the first node of a name. -/
namespace ParseX.CanDb
open Cpp

theorem emplaceAll_append {V : Type} (map : StdMap V) (entries more : List (String × V)) :
    emplaceAll map (entries ++ more) = emplaceAll (emplaceAll map entries) more :=
  List.foldl_append

/-- A lookup in an emplaced table finds the first entry of the key. -/
theorem getElem?_emplaceAll {V : Type} (entries : List (String × V)) (key : String) :
    (emplaceAll ∅ entries)[key]? =
      (entries.find? fun entry => decide (entry.1 = key)).map Prod.snd := by
  rw [emplaceAll, getElem?_foldl_insertIfNew]
  simp

/-- A node with the package path and the ECU above it. -/
structure Placed where
  node : RawNode
  pkgPath : String
  ecu : String

mutual

/-- The nodes of a tree in document order, each with what is above it. -/
def placedNodes (node : RawNode) (pkgPath ecu : String) : List Placed :=
  match node with
  | ⟨tagName, attributes, text, span, children⟩ =>
    let node : RawNode := ⟨tagName, attributes, text, span, children⟩
    ⟨node, pkgPath, ecu⟩ :: placedNodesOf children (childPkg node pkgPath) (childEcu node ecu)

def placedNodesOf (children : List RawNode) (pkgPath ecu : String) : List Placed :=
  match children with
  | [] => []
  | child :: rest => placedNodes child pkgPath ecu ++ placedNodesOf rest pkgPath ecu

end

theorem placedNodes_eq (node : RawNode) (pkgPath ecu : String) : placedNodes node pkgPath ecu =
    ⟨node, pkgPath, ecu⟩ :: node.children.flatMap fun child =>
      placedNodes child (childPkg node pkgPath) (childEcu node ecu) := by
  have hchildren : ∀ children : List RawNode, ∀ pkgPath ecu, placedNodesOf children pkgPath ecu =
      children.flatMap fun child => placedNodes child pkgPath ecu := by
    intro children pkgPath ecu
    induction children with
    | nil => rfl
    | cons child rest ih => rw [placedNodesOf, ih, List.flatMap_cons]
  rw [← hchildren]
  cases node
  rw [placedNodes]

theorem map_node_placedNodes (node : RawNode) :
    ∀ pkgPath ecu, (placedNodes node pkgPath ecu).map Placed.node = node.nodes := by
  induction node using RawNode.induction with
  | step node ih =>
    intro pkgPath ecu
    rw [placedNodes_eq, RawNode.nodes_eq, List.map_cons, List.map_flatMap]
    exact congrArg (node :: ·) (List.flatMap_congr fun child hchild => ih child hchild _ _)

/-- The index takes in the nodes one after the other. -/
theorem buildIndex_eq (node : RawNode) : ∀ pkgPath ecu index, buildIndex node pkgPath ecu index =
    (placedNodes node pkgPath ecu).foldl
      (fun index place => indexNode place.node place.pkgPath place.ecu index) index := by
  induction node using RawNode.induction with
  | step node ih =>
    intro pkgPath ecu index
    have hchildren : ∀ children : List RawNode, (∀ child ∈ children, child ∈ node.children) →
        ∀ pkgPath ecu index, buildIndexOf children pkgPath ecu index =
          (children.flatMap fun child => placedNodes child pkgPath ecu).foldl
            (fun index place => indexNode place.node place.pkgPath place.ecu index) index := by
      intro children
      induction children with
      | nil => intro _ _ _ index; rfl
      | cons child rest ihr =>
        intro hsub pkgPath ecu index
        obtain ⟨hchild, hrest⟩ := List.forall_mem_cons.mp hsub
        rw [buildIndexOf, ihr hrest, ih child hchild, List.flatMap_cons, List.foldl_append]
    rw [placedNodes_eq, List.foldl_cons, ← hchildren node.children fun _ h => h]
    cases node
    rw [buildIndex]

/-- A table holds the entries of the nodes in document order. -/
theorem table_placedNodes {V : Type} {table : Index → StdMap V}
    {entries : Placed → List (String × V)}
    (hstep : ∀ place index, table (indexNode place.node place.pkgPath place.ecu index) =
      emplaceAll (table index) (entries place)) (root : RawNode) :
    table (buildIndex root "" "" {}) =
      emplaceAll (table {}) ((placedNodes root "" "").flatMap entries) := by
  rw [buildIndex_eq]
  generalize ({} : Index) = index
  induction placedNodes root "" "" generalizing index with
  | nil => rfl
  | cons place places ih =>
    rw [List.foldl_cons, ih, hstep, List.flatMap_cons, emplaceAll_append]

/-- So does one whose entries depend on the node alone. -/
theorem table_nodes {V : Type} {table : Index → StdMap V}
    {entries : RawNode → List (String × V)}
    (hstep : ∀ node pkgPath ecu index, table (indexNode node pkgPath ecu index) =
      emplaceAll (table index) (entries node)) (root : RawNode) :
    table (buildIndex root "" "" {}) = emplaceAll (table {}) (root.nodes.flatMap entries) := by
  have hplaced := @table_placedNodes V table (fun place => entries place.node)
    (fun place => hstep place.node place.pkgPath place.ecu) root
  rw [hplaced, ← map_node_placedNodes root "" "", List.flatMap_map]

/-- The first entry of a key, where a node has at most one. -/
theorem find?_entries {α V : Type} (nodes : List α) (family : α → Bool)
    (key : α → String) (value : α → V) (name : String) :
    ((nodes.flatMap fun node => if family node then [(key node, value node)] else []).find?
        fun entry => decide (entry.1 = name)).map Prod.snd =
      (nodes.find? fun node => family node && decide (key node = name)).map value := by
  induction nodes with
  | nil => rfl
  | cons node nodes ih =>
    rw [List.flatMap_cons, List.find?_append, List.find?_cons]
    cases hf : family node with
    | false => simpa [hf] using ih
    | true =>
      by_cases hk : key node = name
      · simp [hk]
      · simpa [hk] using ih

/-- Choosing some of a list, one entry each. -/
theorem flatMap_ite {α β : Type} (l : List α) (family : α → Bool) (value : α → β) :
    (l.flatMap fun x => if family x then [value x] else []) = (l.filter family).map value := by
  induction l with
  | nil => rfl
  | cons x l ih =>
    rw [List.flatMap_cons, ih]
    cases hx : family x <;> simp [hx]

/-- The triggering of a frame: the first that refers to it. -/
def triggeringOf (root : RawNode) (name : String) : Option RawNode :=
  root.nodes.find? fun node => node.tagName == "CAN-FRAME-TRIGGERING" &&
    decide (shortNameOfRef (childText node "FRAME-REF") = name)

/-- The first `I-SIGNAL` of a name. -/
def iSignalOf (root : RawNode) (name : String) : Option RawNode :=
  root.nodes.find? fun node => node.tagName == "I-SIGNAL" && decide (nameOf node = name)

/-- A choice between two indices that leave a table alone. -/
theorem table_ite {V : Type} (table : Index → V) {condition : Prop} [Decidable condition]
    {yes no : Index} {same : V} (hyes : table yes = same) (hno : table no = same) :
    table (if condition then yes else no) = same := by
  split
  · exact hyes
  · exact hno

theorem indexNode_triggerings (node : RawNode) (pkgPath ecu : String) (index : Index) :
    (indexNode node pkgPath ecu index).triggerings = emplaceAll index.triggerings
      (if node.tagName == "CAN-FRAME-TRIGGERING" then
        [(shortNameOfRef (childText node "FRAME-REF"), node)] else []) := by
  unfold indexNode
  dsimp only
  by_cases htag : (node.tagName == "CAN-FRAME-TRIGGERING") = true
  · rw [eq_of_beq htag]
    rfl
  · rw [if_neg htag, if_neg htag]
    repeat refine table_ite Index.triggerings rfl ?_
    rfl

theorem indexNode_iSignals (node : RawNode) (pkgPath ecu : String) (index : Index) :
    (indexNode node pkgPath ecu index).iSignals = emplaceAll index.iSignals
      (if node.tagName == "I-SIGNAL" then [(nameOf node, node)] else []) := by
  unfold indexNode
  dsimp only
  by_cases htag : (node.tagName == "I-SIGNAL") = true
  · rw [eq_of_beq htag]
    rfl
  · rw [if_neg htag, if_neg htag]
    repeat refine table_ite Index.iSignals rfl ?_
    rfl

theorem indexNode_bigEndian (node : RawNode) (pkgPath ecu : String) (index : Index) :
    (indexNode node pkgPath ecu index).bigEndian = emplaceAll index.bigEndian
      (if node.tagName == "I-SIGNAL-I-PDU" then packingEntries node else []) := by
  unfold indexNode
  dsimp only
  by_cases htag : (node.tagName == "I-SIGNAL-I-PDU") = true
  · rw [eq_of_beq htag]
    rfl
  · rw [if_neg htag, if_neg htag]
    repeat refine table_ite Index.bigEndian rfl ?_
    rfl

theorem indexNode_groupsByPath (place : Placed) (index : Index) :
    (indexNode place.node place.pkgPath place.ecu index).groupsByPath =
      emplaceAll index.groupsByPath (if place.node.tagName == "I-SIGNAL-I-PDU-GROUP" then
        [(place.pkgPath ++ "/" ++ nameOf place.node,
          (⟨childText place.node "COMMUNICATION-DIRECTION" == "OUT",
            refNames place.node "I-SIGNAL-I-PDU-REF"⟩ : Group))] else []) := by
  unfold indexNode
  dsimp only
  by_cases htag : (place.node.tagName == "I-SIGNAL-I-PDU-GROUP") = true
  · rw [eq_of_beq htag]
    rfl
  · rw [if_neg htag, if_neg htag]
    repeat refine table_ite Index.groupsByPath rfl ?_
    rfl

theorem indexNode_framePorts (place : Placed) (index : Index) :
    (indexNode place.node place.pkgPath place.ecu index).framePorts =
      emplaceAll index.framePorts (if place.node.tagName == "FRAME-PORT" then
        [(nameOf place.node,
          (⟨childText place.node "COMMUNICATION-DIRECTION" == "OUT", place.ecu⟩ : FramePort))]
        else []) := by
  unfold indexNode
  dsimp only
  by_cases htag : (place.node.tagName == "FRAME-PORT") = true
  · rw [eq_of_beq htag]
    rfl
  · rw [if_neg htag, if_neg htag]
    repeat refine table_ite Index.framePorts rfl ?_
    rfl

theorem indexNode_ecuGroupRefs (node : RawNode) (pkgPath ecu : String) (index : Index) :
    (indexNode node pkgPath ecu index).ecuGroupRefs = index.ecuGroupRefs ++
      (if node.tagName == "ECU-INSTANCE" then [(nameOf node,
        (findDescendants node "ASSOCIATED-COM-I-PDU-GROUP-REF").map fun ref => trimText ref.text)]
        else []) := by
  unfold indexNode
  dsimp only
  by_cases htag : (node.tagName == "ECU-INSTANCE") = true
  · rw [eq_of_beq htag]
    rfl
  · rw [if_neg htag, if_neg htag, List.append_nil]
    repeat refine table_ite Index.ecuGroupRefs rfl ?_
    rfl

theorem getElem?_triggerings (root : RawNode) (name : String) :
    (buildIndex root "" "" {}).triggerings[name]? = triggeringOf root name := by
  rw [table_nodes indexNode_triggerings, getElem?_emplaceAll]
  refine (find?_entries root.nodes (fun node => node.tagName == "CAN-FRAME-TRIGGERING")
    (fun node => shortNameOfRef (childText node "FRAME-REF")) id name).trans ?_
  simp [triggeringOf]

theorem getElem?_iSignals (root : RawNode) (name : String) :
    (buildIndex root "" "" {}).iSignals[name]? = iSignalOf root name := by
  rw [table_nodes indexNode_iSignals, getElem?_emplaceAll]
  refine (find?_entries root.nodes (fun node => node.tagName == "I-SIGNAL") nameOf id name).trans ?_
  simp [iSignalOf]

/-- The packing entries of a document. -/
def documentPackings (root : RawNode) : List (String × Bool) :=
  root.nodes.flatMap fun node =>
    if node.tagName == "I-SIGNAL-I-PDU" then packingEntries node else []

theorem getElem?_bigEndian (root : RawNode) (key : String) :
    (buildIndex root "" "" {}).bigEndian[key]? =
      ((documentPackings root).find? fun entry => decide (entry.1 = key)).map Prod.snd := by
  rw [table_nodes indexNode_bigEndian, getElem?_emplaceAll]
  rfl

end ParseX.CanDb

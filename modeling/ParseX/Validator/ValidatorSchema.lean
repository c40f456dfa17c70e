import Mathlib.Algebra.Group.Nat.Defs
import Mathlib.Data.List.Sort
import ParseX.Raw.RawNode

/-! # Where schema errors are located

A schema error carries a line. Its location is the span of the element that starts
nearest to it, found by binary search in an index of the tree. -/
namespace ParseX

/-- `static_cast<int>` of a `std::size_t`. -/
def intOfSize (size : Nat) : Int := (BitVec.ofNat 32 size).toInt

abbrev LineIndex := List (Int × RawSpan)

mutual

/-- `collectLineEntries`: the entries of a node and of the tree below it. -/
def collectLineEntries (node : RawNode) : LineIndex :=
  match node with
  | ⟨_, _, _, span, children⟩ =>
    (if 0 < span.lineNumber then [(intOfSize span.lineNumber, span)] else []) ++
      collectLineEntriesOf children

def collectLineEntriesOf (children : List RawNode) : LineIndex :=
  match children with
  | [] => []
  | child :: rest => collectLineEntries child ++ collectLineEntriesOf rest

end

/-- The comparator of the sort. -/
def lineBefore (lhs rhs : Int × RawSpan) : Bool :=
  if lhs.1 ≠ rhs.1 then decide (lhs.1 < rhs.1)
  else decide (lhs.2.startOffset < rhs.2.startOffset)

/-- An outcome of `buildLineIndex`. `std::ranges::sort` is not stable, so entries that
the comparator does not tell apart come in any order. -/
def IsLineIndex (root : RawNode) (index : LineIndex) : Prop :=
  index.Perm (collectLineEntries root) ∧
    index.Pairwise fun earlier later => lineBefore later earlier = false

/-- `buildLineIndex`, with one of the outcomes of the sort. -/
def buildLineIndex (root : RawNode) : LineIndex :=
  (collectLineEntries root).insertionSort fun earlier later => lineBefore later earlier = false

/-- `std::ranges::lower_bound` on the lines: the first entry that is not before the line. -/
def lowerBound (index : LineIndex) (line : Int) : Nat := index.findIdx fun entry => line ≤ entry.1

def spanForLine (index : LineIndex) (line : Int) : Option RawSpan :=
  if index = [] ∨ line ≤ 0 then none
  else
    let place := lowerBound index line
    match index[place]? with
    | none => index.getLast?.map Prod.snd
    | some higher =>
      if higher.1 = line then some higher.2
      else if place = 0 then some higher.2
      else
        index[place - 1]?.map fun lower =>
          if higher.1 - line < line - lower.1 then higher.2 else lower.2

/-! ## The index -/

theorem intOfSize_small {size : Nat} (h : size < 2 ^ 31) : intOfSize size = size := by
  simp only [intOfSize, BitVec.toInt, BitVec.toNat_ofNat]
  rw [Nat.mod_eq_of_lt (by omega), if_pos (by omega)]

theorem collectLineEntries_eq (root : RawNode) : collectLineEntries root =
    (root.nodes.filter fun node => 0 < node.span.lineNumber).map fun node =>
      (intOfSize node.span.lineNumber, node.span) := by
  induction root using RawNode.induction with
  | step node ih =>
    have hchildren : ∀ children : List RawNode, (∀ child ∈ children, collectLineEntries child =
        (child.nodes.filter fun node => 0 < node.span.lineNumber).map fun node =>
          (intOfSize node.span.lineNumber, node.span)) →
        collectLineEntriesOf children =
          ((children.flatMap RawNode.nodes).filter fun node => 0 < node.span.lineNumber).map
            fun node => (intOfSize node.span.lineNumber, node.span) := by
      intro children hall
      induction children with
      | nil => rfl
      | cons child rest ihrest =>
        obtain ⟨hchild, hrest⟩ := List.forall_mem_cons.mp hall
        rw [collectLineEntriesOf, hchild, ihrest hrest, List.flatMap_cons, List.filter_append,
          List.map_append]
    rw [RawNode.nodes_eq]
    cases node with
    | mk tagName attributes text span children =>
      rw [collectLineEntries, hchildren children ih, List.filter_cons]
      split
      · rename_i hline
        rw [if_pos (by simpa using hline)]
        rfl
      · rename_i hline
        rw [if_neg (by simpa using hline)]
        rfl

/-- The entries of the index are the spans of the nodes with a line number. -/
theorem mem_lineIndex {root : RawNode} {index : LineIndex} (h : IsLineIndex root index)
    {entry : Int × RawSpan} : entry ∈ index ↔ ∃ node ∈ root.nodes, 0 < node.span.lineNumber ∧
      entry = (intOfSize node.span.lineNumber, node.span) := by
  rw [h.1.mem_iff, collectLineEntries_eq, List.mem_map]
  constructor
  · rintro ⟨node, hnode, rfl⟩
    obtain ⟨hmem, hline⟩ := List.mem_filter.mp hnode
    exact ⟨node, hmem, of_decide_eq_true hline, rfl⟩
  · rintro ⟨node, hmem, hline, rfl⟩
    exact ⟨node, List.mem_filter.mpr ⟨hmem, decide_eq_true hline⟩, rfl⟩

/-- Entries come by line, and by offset on one line. -/
theorem lineBefore_eq_false {lhs rhs : Int × RawSpan} : lineBefore rhs lhs = false ↔
    lhs.1 < rhs.1 ∨ lhs.1 = rhs.1 ∧ lhs.2.startOffset ≤ rhs.2.startOffset := by
  rw [lineBefore]
  split
  · rename_i hne
    rw [decide_eq_false_iff_not]
    omega
  · rename_i heq
    rw [decide_eq_false_iff_not]
    omega

theorem isLineIndex_buildLineIndex (root : RawNode) : IsLineIndex root (buildLineIndex root) := by
  refine ⟨List.perm_insertionSort _ _, ?_⟩
  have htotal : Std.Total fun earlier later : Int × RawSpan => lineBefore later earlier = false :=
    ⟨fun a b => by rw [lineBefore_eq_false, lineBefore_eq_false]; omega⟩
  have htrans : IsTrans (Int × RawSpan) fun earlier later => lineBefore later earlier = false :=
    ⟨fun a b c hab hbc => by
      rw [lineBefore_eq_false] at *
      omega⟩
  exact List.pairwise_insertionSort _ _

/-! ## The search -/

/-- How far an entry stands from a line. -/
def lineDistance (line : Int) (entry : Int × RawSpan) : Nat := (entry.1 - line).natAbs

/-- An entry that no other is nearer than; of two as near it is on the smaller line, and
on the line itself it comes first. -/
structure NearestEntry (index : LineIndex) (line : Int) (entry : Int × RawSpan) : Prop where
  mem : entry ∈ index
  nearest : ∀ other ∈ index, lineDistance line entry ≤ lineDistance line other
  smaller : ∀ other ∈ index, lineDistance line entry = lineDistance line other → entry.1 ≤ other.1
  first : entry.1 = line → ∀ other ∈ index, other.1 = line →
    entry.2.startOffset ≤ other.2.startOffset

/-- Entries before the bound are before the line. -/
theorem lt_of_lt_lowerBound {index : LineIndex} {line : Int} {i : Nat} (hi : i < index.length)
    (h : i < lowerBound index line) : index[i].1 < line := by
  have := List.not_of_lt_findIdx h
  simpa using this

theorem le_of_lowerBound {index : LineIndex} {line : Int} {entry : Int × RawSpan}
    (h : index[lowerBound index line]? = some entry) : line ≤ entry.1 := by
  obtain ⟨hlt, rfl⟩ := List.getElem?_eq_some_iff.mp h
  exact of_decide_eq_true (List.findIdx_getElem (w := hlt))

/-- Later entries have no smaller line, and on the same line no smaller offset. -/
theorem sorted_entries {index : LineIndex}
    (hsorted : index.Pairwise fun earlier later => lineBefore later earlier = false) {i j : Nat}
    (hij : i ≤ j) (hj : j < index.length) :
    index[i].1 < index[j].1 ∨
      index[i].1 = index[j].1 ∧ index[i].2.startOffset ≤ index[j].2.startOffset := by
  rcases Nat.lt_or_eq_of_le hij with hlt | rfl
  · exact lineBefore_eq_false.mp (List.pairwise_iff_getElem.mp hsorted i j _ hj hlt)
  · exact .inr ⟨rfl, le_rfl⟩

theorem nearestEntry_getElem {index : LineIndex} {line : Int} {p : Nat} (hp : p < index.length)
    (h : ∀ j, (hj : j < index.length) →
      lineDistance line index[p] < lineDistance line index[j] ∨
        lineDistance line index[p] = lineDistance line index[j] ∧ index[p].1 ≤ index[j].1 ∧
          (index[p].1 = line → index[j].1 = line →
            index[p].2.startOffset ≤ index[j].2.startOffset)) :
    NearestEntry index line index[p] := by
  refine ⟨List.getElem_mem hp, fun other hother => ?_, fun other hother hsame => ?_,
    fun hexact other hother hline => ?_⟩
  · obtain ⟨j, hj, rfl⟩ := List.getElem_of_mem hother
    rcases h j hj with hlt | ⟨heq, -⟩
    · exact hlt.le
    · exact heq.le
  · obtain ⟨j, hj, rfl⟩ := List.getElem_of_mem hother
    rcases h j hj with hlt | ⟨-, hle, -⟩
    · exact absurd hsame hlt.ne
    · exact hle
  · obtain ⟨j, hj, rfl⟩ := List.getElem_of_mem hother
    rcases h j hj with hlt | ⟨-, -, hfirst⟩
    · unfold lineDistance at hlt
      omega
    · exact hfirst hexact hline

/-- What the search finds in a sorted index: one of its four branches. -/
theorem spanForLine_nearest {index : LineIndex} {line : Int} (hne : index ≠ [])
    (hsorted : index.Pairwise fun earlier later => lineBefore later earlier = false)
    (hline : 0 < line) :
    ∃ entry, NearestEntry index line entry ∧ spanForLine index line = some entry.2 := by
  have hlength : 0 < index.length := List.length_pos_iff.mpr hne
  rw [spanForLine, if_neg (by simp [hne]; omega)]
  dsimp only
  cases hplace : index[lowerBound index line]? with
  | none =>
    -- every entry is before the line
    have hall : index.length ≤ lowerBound index line := List.getElem?_eq_none_iff.mp hplace
    refine ⟨index[index.length - 1], nearestEntry_getElem (by omega) fun j hj => ?_, ?_⟩
    · have hlast := @lt_of_lt_lowerBound index line (index.length - 1) (by omega) (by omega)
      have hle := sorted_entries hsorted (show j ≤ index.length - 1 by omega) (by omega)
      unfold lineDistance
      omega
    · rw [List.getLast?_eq_getElem?, List.getElem?_eq_getElem (by omega)]
      rfl
  | some higher =>
    have hhigher := le_of_lowerBound hplace
    obtain ⟨hlt, rfl⟩ := List.getElem?_eq_some_iff.mp hplace
    have hafter {j : Nat} (hj : j < index.length) (hle : lowerBound index line ≤ j) :=
      sorted_entries hsorted hle hj
    have hbefore {j : Nat} (hj : j < index.length) (h : j < lowerBound index line) :=
      lt_of_lt_lowerBound hj h
    dsimp only
    split
    · -- the line itself
      rename_i hexact
      refine ⟨_, nearestEntry_getElem hlt fun j hj => ?_, rfl⟩
      unfold lineDistance
      rcases Nat.lt_or_ge j (lowerBound index line) with hlow | hhigh
      · have hj' := hbefore hj hlow
        omega
      · have hj' := hafter hj hhigh
        omega
    · rename_i hexact
      split
      · -- before the first entry
        rename_i hzero
        refine ⟨_, nearestEntry_getElem hlt fun j hj => ?_, rfl⟩
        have hj' := hafter hj (by omega)
        unfold lineDistance
        omega
      · -- between two entries
        rename_i hpos
        have hlower := hbefore (j := lowerBound index line - 1) (by omega) (by omega)
        rw [List.getElem?_eq_getElem (by omega : lowerBound index line - 1 < index.length)]
        have hcloser {j : Nat} (hj : j < index.length) (h : j < lowerBound index line) :=
          sorted_entries hsorted (show j ≤ lowerBound index line - 1 by omega) (by omega)
        dsimp only [Option.map_some]
        split
        · rename_i hnear
          refine ⟨_, nearestEntry_getElem hlt fun j hj => ?_, rfl⟩
          unfold lineDistance
          rcases Nat.lt_or_ge j (lowerBound index line) with hlow | hhigh
          · have hj' := hcloser hj hlow
            omega
          · have hj' := hafter hj hhigh
            omega
        · rename_i hnear
          refine ⟨_, nearestEntry_getElem (by omega) fun j hj => ?_, rfl⟩
          unfold lineDistance
          rcases Nat.lt_or_ge j (lowerBound index line) with hlow | hhigh
          · have hj' := hcloser hj hlow
            omega
          · have hj' := hafter hj hhigh
            omega

/-! ## The element -/

/-- A node with a line number that no other starts nearer to the line than; of two as
near it starts on the smaller line, and on the line itself it starts first. -/
structure NearestNode (root : RawNode) (line : Int) (node : RawNode) : Prop where
  mem : node ∈ root.nodes
  numbered : 0 < node.span.lineNumber
  nearest : ∀ other ∈ root.nodes, 0 < other.span.lineNumber →
    (node.span.lineNumber - line : Int).natAbs ≤ (other.span.lineNumber - line : Int).natAbs
  smaller : ∀ other ∈ root.nodes, 0 < other.span.lineNumber →
    (node.span.lineNumber - line : Int).natAbs = (other.span.lineNumber - line : Int).natAbs →
    node.span.lineNumber ≤ other.span.lineNumber
  first : (node.span.lineNumber : Int) = line → ∀ other ∈ root.nodes,
    (other.span.lineNumber : Int) = line → node.span.startOffset ≤ other.span.startOffset

/-- The nearest entry of the index is the span of the nearest node. -/
theorem nearestNode_of_entry {root : RawNode} {index : LineIndex} {line : Int}
    {entry : Int × RawSpan} (hindex : IsLineIndex root index)
    (hlines : ∀ node ∈ root.nodes, node.span.lineNumber < 2 ^ 31) (hline : 0 < line)
    (h : NearestEntry index line entry) : ∃ node, NearestNode root line node ∧ node.span = entry.2 := by
  obtain ⟨node, hmem, hnumbered, rfl⟩ := (mem_lineIndex hindex).mp h.mem
  have hentry {other : RawNode} (hother : other ∈ root.nodes) (hpos : 0 < other.span.lineNumber) :
      ((other.span.lineNumber : Int), other.span) ∈ index := by
    rw [← intOfSize_small (hlines other hother)]
    exact (mem_lineIndex hindex).mpr ⟨other, hother, hpos, rfl⟩
  rw [intOfSize_small (hlines node hmem)] at h
  refine ⟨node, ⟨hmem, hnumbered, fun other hother hpos => h.nearest _ (hentry hother hpos),
    fun other hother hpos hsame => ?_, fun hexact other hother hsame => ?_⟩, rfl⟩
  · exact Int.ofNat_le.mp (h.smaller _ (hentry hother hpos) hsame)
  · exact h.first hexact _ (hentry hother (by omega)) hsame

/-- **A schema error is located at the nearest element**, whatever order the sort leaves
entries in that it does not tell apart. -/
theorem nearest_element_located (root : RawNode) (index : LineIndex) (line : Int)
    (hindex : IsLineIndex root index)
    (hlines : ∀ node ∈ root.nodes, node.span.lineNumber < 2 ^ 31) (hline : 0 < line) :
    (∀ span, spanForLine index line = some span →
        ∃ node, NearestNode root line node ∧ node.span = span) ∧
      (spanForLine index line = none ↔ ∀ node ∈ root.nodes, node.span.lineNumber = 0) := by
  by_cases hne : index = []
  · have hnone : spanForLine index line = none := if_pos (.inl hne)
    refine ⟨fun span h => (by rw [hnone] at h; cases h), fun _ node hnode => ?_, fun _ => hnone⟩
    by_contra hnumber
    have := (mem_lineIndex hindex).mpr ⟨node, hnode, Nat.pos_of_ne_zero hnumber, rfl⟩
    rw [hne] at this
    cases this
  · obtain ⟨entry, hentry, hfound⟩ := spanForLine_nearest hne hindex.2 hline
    obtain ⟨node, hnode, hspan⟩ := nearestNode_of_entry hindex hlines hline hentry
    rw [hfound]
    refine ⟨fun span h => ⟨node, hnode, hspan.trans (Option.some.inj h)⟩, nofun, fun hall => ?_⟩
    exact absurd (hall node hnode.mem) hnode.numbered.ne'

/-- Two elements start on line three and one on line seven. -/
def threeElements : RawNode :=
  { tagName := "A", span := ⟨4, 60, 3⟩,
    children := [{ tagName := "B", span := ⟨9, 20, 3⟩ }, { tagName := "C", span := ⟨30, 40, 7⟩ }] }

theorem nearest_element_located_tie :
    (∀ span, spanForLine (buildLineIndex threeElements) 5 = some span →
        ∃ node, NearestNode threeElements 5 node ∧ node.span = span) ∧
      (spanForLine (buildLineIndex threeElements) 5 = none ↔
        ∀ node ∈ threeElements.nodes, node.span.lineNumber = 0) :=
  nearest_element_located threeElements _ 5 (isLineIndex_buildLineIndex _) (by decide) (by decide)

end ParseX

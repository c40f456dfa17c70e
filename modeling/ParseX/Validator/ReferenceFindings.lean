import ParseX.Validator.ValidatorReferences

/-! # Which references are reported

Short-name paths and wrong references stated of the trees, without the index,
and that the findings are the wrong references in document order. -/
namespace ParseX
open Cpp

/-! ## Absolute paths -/

/-- The node stands at the path, in a tree whose parent stands at `basePath`. -/
inductive PathIn : RawNode → String → RawNode → String → Prop where
  | here {node : RawNode} {basePath name : String} : scopeName node = some name →
      PathIn node basePath node (basePath ++ "/" ++ name)
  /-- An unnamed node passes its base path on; a short name holds no elements. -/
  | inside {node child target : RawNode} {basePath path : String} : child ∈ node.children →
      child.tagName ≠ "SHORT-NAME" → PathIn child (scopePath node basePath) target path →
      PathIn node basePath target path

theorem mem_pathEntriesOf {children : List RawNode} {nodePath : String}
    {entry : String × RawNode} : entry ∈ pathEntriesOf children nodePath ↔
      ∃ child ∈ children, child.tagName ≠ "SHORT-NAME" ∧ entry ∈ pathEntries child nodePath := by
  induction children with
  | nil => simp [pathEntriesOf]
  | cons child rest ih =>
    rw [pathEntriesOf, List.mem_append, ih]
    by_cases htag : child.tagName = "SHORT-NAME" <;> simp [htag]

theorem mem_pathEntries {node : RawNode} {basePath : String} {entry : String × RawNode} :
    entry ∈ pathEntries node basePath ↔
      (scopeName node).isSome ∧ entry = (scopePath node basePath, node) ∨
        ∃ child ∈ node.children, child.tagName ≠ "SHORT-NAME" ∧
          entry ∈ pathEntries child (scopePath node basePath) := by
  rw [← mem_pathEntriesOf]
  cases node
  rw [pathEntries, List.mem_append]
  split <;> simp_all

/-- The enumeration holds the nodes with a path. -/
theorem mem_pathEntries_iff {node target : RawNode} {path : String} : ∀ {basePath : String},
    (path, target) ∈ pathEntries node basePath ↔ PathIn node basePath target path := by
  induction node using RawNode.induction with
  | step node ih =>
    intro basePath
    rw [mem_pathEntries]
    constructor
    · intro h
      obtain ⟨hname, hentry⟩ | ⟨child, hchild, htag, hentry⟩ := h
      · obtain ⟨name, hname⟩ := Option.isSome_iff_exists.mp hname
        obtain ⟨rfl, rfl⟩ := Prod.mk.inj hentry
        rw [scopePath, hname]
        exact .here hname
      · exact .inside hchild htag ((ih child hchild).mp hentry)
    · intro h
      cases h with
      | here hname => exact .inl ⟨by rw [hname]; rfl, by rw [scopePath, hname]⟩
      | inside hchild htag hpath => exact .inr ⟨_, hchild, htag, (ih _ hchild).mpr hpath⟩

section
variable {D : Type} [Double D]

/-- The documents of a project, in file order. -/
def documentRoots (project : ParsedProject D) : List RawNode :=
  project.files.filterMap ParsedFile.rawDocument

/-- All nodes, in document order over the files. -/
def documentNodes (project : ParsedProject D) : List RawNode :=
  (documentRoots project).flatMap RawNode.nodes

/-- The named nodes of all files, each under its path. -/
def namedNodes (project : ParsedProject D) : List (String × RawNode) :=
  (documentRoots project).flatMap fun root => pathEntries root ""

/-- Some file has the node at the path. -/
def HasPath (project : ParsedProject D) (node : RawNode) (path : String) : Prop :=
  ∃ root ∈ documentRoots project, PathIn root "" node path

variable {project : ParsedProject D}

theorem mem_namedNodes {node : RawNode} {path : String} :
    (path, node) ∈ namedNodes project ↔ HasPath project node path := by
  simp only [namedNodes, List.mem_flatMap, mem_pathEntries_iff, HasPath]

/-! ## Wrong references -/

/-- A reference that is wrong, with the finding it deserves. -/
inductive WrongReference (project : ParsedProject D) (node : RawNode) : ValidationError → Prop where
  | dangling {dest : String} : isRefTag node.tagName = true → destAttr node = some dest →
      trimText node.text ≠ "" → (∀ target, ¬ HasPath project target (trimText node.text)) →
      WrongReference project node (danglingFinding ⟨node, dest⟩ (trimText node.text))
  | unrecognized {dest : String} {target : RawNode} : isRefTag node.tagName = true →
      destAttr node = some dest → trimText node.text ≠ "" →
      HasPath project target (trimText node.text) → destToTags.lookup dest = none →
      WrongReference project node (unrecognizedFinding ⟨node, dest⟩ (trimText node.text))
  | mismatch {dest : String} {target : RawNode} {tags : List String} :
      isRefTag node.tagName = true → destAttr node = some dest → trimText node.text ≠ "" →
      HasPath project target (trimText node.text) → destToTags.lookup dest = some tags →
      target.tagName ∉ tags → WrongReference project node
        (mismatchFinding ⟨node, dest⟩ (trimText node.text) target.tagName)

theorem foldl_indexRoots (files : List (ParsedFile D)) : ∀ index : StdMap RawNode,
    files.foldl (fun index file =>
      match file.rawDocument with
      | none => index
      | some root => indexNode root "" index) index =
    ((files.filterMap ParsedFile.rawDocument).flatMap fun root => pathEntries root "").foldl
      (fun out entry => out.insertIfNew entry.1 entry.2) index := by
  induction files with
  | nil => intro index; rfl
  | cons file files ih =>
    intro index
    rw [List.foldl_cons, ih]
    cases hroot : file.rawDocument with
    | none => simp [hroot]
    | some root => simp [hroot, indexNode_eq]

/-- The index holds the first node of every path. -/
theorem buildReferencePathIndex_eq (project : ParsedProject D) :
    buildReferencePathIndex project = ofFirst (namedNodes project) := foldl_indexRoots _ _

/-- Without repeated paths the index holds the node of every path. -/
theorem getElem?_index (h : ((namedNodes project).map Prod.fst).Nodup) {path : String}
    {target : RawNode} :
    (buildReferencePathIndex project)[path]? = some target ↔ HasPath project target path := by
  rw [buildReferencePathIndex_eq, getElem?_ofFirst_of_nodup h, mem_namedNodes]

/-- The finding about a node. -/
def verdict (project : ParsedProject D) (node : RawNode) : Option ValidationError :=
  if isRefTag node.tagName then
    (destAttr node).bind fun dest => checkSite (buildReferencePathIndex project) ⟨node, dest⟩
  else none

theorem verdict_iff (h : ((namedNodes project).map Prod.fst).Nodup) {node : RawNode}
    {finding : ValidationError} :
    verdict project node = some finding ↔ WrongReference project node finding := by
  unfold verdict checkSite
  constructor
  · intro hverdict
    split at hverdict
    case isFalse => cases hverdict
    case isTrue htag =>
      obtain ⟨dest, hdest, hsite⟩ := Option.bind_eq_some_iff.mp hverdict
      dsimp only at hsite
      split at hsite
      case isTrue => cases hsite
      case isFalse hpath =>
        split at hsite
        case h_1 hindex =>
          obtain rfl := Option.some.inj hsite
          refine .dangling htag hdest hpath fun target htarget => ?_
          rw [(getElem?_index h).mpr htarget] at hindex
          cases hindex
        case h_2 target hindex =>
          have htarget := (getElem?_index h).mp hindex
          split at hsite
          case h_1 hlookup =>
            obtain rfl := Option.some.inj hsite
            exact .unrecognized htag hdest hpath htarget hlookup
          case h_2 tags hlookup =>
            split at hsite
            case isTrue => cases hsite
            case isFalse hmem =>
              obtain rfl := Option.some.inj hsite
              exact .mismatch htag hdest hpath htarget hlookup hmem
  · intro hwrong
    cases hwrong with
    | dangling htag hdest hpath hnone =>
      have hindex : (buildReferencePathIndex project)[trimText node.text]? = none :=
        Option.eq_none_iff_forall_ne_some.mpr fun target htarget =>
          hnone target ((getElem?_index h).mp htarget)
      simp [htag, hdest, hpath, hindex]
    | unrecognized htag hdest hpath htarget hlookup =>
      simp [htag, hdest, hpath, (getElem?_index h).mpr htarget, hlookup]
    | mismatch htag hdest hpath htarget hlookup hmem =>
      simp [htag, hdest, hpath, (getElem?_index h).mpr htarget, hlookup, hmem]

/-- The findings, node by node. -/
theorem validateReferences_eq (project : ParsedProject D) :
    validateReferences project = ⟨(documentNodes project).filterMap (verdict project)⟩ := by
  have hdocument (root : RawNode) : (collectRefs root).filterMap
      (checkSite (buildReferencePathIndex project)) = root.nodes.filterMap (verdict project) := by
    rw [collectRefs, List.filterMap_filterMap]
    refine List.filterMap_congr fun node _ => ?_
    unfold verdict
    split
    · rw [Option.bind_map]
      rfl
    · rfl
  have hfiles (files : List (ParsedFile D)) : (files.flatMap fun file =>
      match file.rawDocument with
      | none => []
      | some root => (collectRefs root).filterMap (checkSite (buildReferencePathIndex project))) =
        ((files.filterMap ParsedFile.rawDocument).flatMap RawNode.nodes).filterMap
          (verdict project) := by
    induction files with
    | nil => rfl
    | cons file files ih =>
      rw [List.flatMap_cons, ih]
      cases hroot : file.rawDocument with
      | none => simp [hroot]
      | some root => simp [hroot, hdocument]
  exact congrArg ValidationResult.mk (hfiles project.files)

/-- **The findings are the wrong references, one each, in document order.** -/
theorem reference_findings (h : ((namedNodes project).map Prod.fst).Nodup) :
    ∃ verdict : RawNode → Option ValidationError,
      validateReferences project = ⟨(documentNodes project).filterMap verdict⟩ ∧
        ∀ node finding, verdict node = some finding ↔ WrongReference project node finding :=
  ⟨verdict project, validateReferences_eq project, fun _ _ => verdict_iff h⟩

end

/-- Two files: a frame, and references to it, to a missing frame and with a
destination type of another tag. -/
def projectOfReferences : ParsedProject WholeDouble :=
  { files := [
      { rawDocument := some { tagName := "AR-PACKAGE", children := [
          { tagName := "SHORT-NAME", text := "Bus" },
          { tagName := "ELEMENTS", children := [
            { tagName := "CAN-FRAME", children := [{ tagName := "SHORT-NAME", text := "Brake" }] }] }] } },
      { rawDocument := some { tagName := "LINKS", children := [
          { tagName := "FRAME-REF", attributes := [("DEST", "CAN-FRAME")], text := "/Bus/Brake" },
          { tagName := "FRAME-REF", attributes := [("DEST", "FRAME")], text := " /Bus/Brake " },
          { tagName := "FRAME-REF", attributes := [("DEST", "FRAME")], text := "/Bus/Wheel" },
          { tagName := "FRAME-REF", attributes := [("DEST", "PDU")], text := "/Bus/Brake" }] } }] }

theorem reference_findings_example : ∃ verdict : RawNode → Option ValidationError,
    validateReferences projectOfReferences =
      ⟨(documentNodes projectOfReferences).filterMap verdict⟩ ∧
    ∀ node finding, verdict node = some finding ↔
      WrongReference projectOfReferences node finding :=
  reference_findings (by decide +kernel)

end ParseX

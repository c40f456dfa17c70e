import ParseX.Validator.ValidatorUniqueness

/-! # Reference checks

Every reference element with a destination type must name a node of the
project, and a node of an acceptable tag where the type is known. -/
namespace ParseX
open Cpp

/-! ## The path index -/

mutual

/-- `indexNode`: `try_emplace` keeps the first node of a path. -/
def indexNode (node : RawNode) (basePath : String) (out : StdMap RawNode) : StdMap RawNode :=
  match node with
  | ⟨tagName, attributes, text, span, children⟩ =>
    let node : RawNode := ⟨tagName, attributes, text, span, children⟩
    let nodePath := scopePath node basePath
    indexChildren children nodePath
      (if (scopeName node).isSome then out.insertIfNew nodePath node else out)

def indexChildren (children : List RawNode) (nodePath : String) (out : StdMap RawNode) :
    StdMap RawNode :=
  match children with
  | [] => out
  | child :: rest =>
    indexChildren rest nodePath
      (if child.tagName == "SHORT-NAME" then out else indexNode child nodePath out)

end

/-! ## Reference elements -/

def isRefTag (tag : String) : Bool :=
  decide (tag.toList.length > 4) && ['-', 'R', 'E', 'F'].isSuffixOf tag.toList

def destAttr (node : RawNode) : Option String :=
  (node.attributes.find? fun attr => attr.1 == "DEST").map Prod.snd

structure RefSite where
  node : RawNode
  dest : String

/-- The reference elements with a destination type, in document order. -/
def collectRefs (node : RawNode) : List RefSite :=
  node.nodes.filterMap fun node =>
    if isRefTag node.tagName then (destAttr node).map fun dest => { node, dest } else none

/-- The acceptable tags of a destination type. -/
def destToTags : List (String × List String) :=
  [("FRAME", ["FRAME", "CAN-FRAME"]),
    ("PDU", ["PDU", "I-SIGNAL-I-PDU"]),
    ("PDU-TRIGGERING", ["PDU-TRIGGERING"]),
    ("I-SIGNAL", ["I-SIGNAL"]),
    ("I-SIGNAL-GROUP", ["I-SIGNAL-GROUP", "SIGNAL-GROUP"]),
    ("SYSTEM-SIGNAL", ["SYSTEM-SIGNAL"]),
    ("SIGNAL-GROUP", ["SIGNAL-GROUP", "I-SIGNAL-GROUP"]),
    ("ECU-INSTANCE", ["ECU-INSTANCE"]),
    ("PHYSICAL-CHANNEL", ["PHYSICAL-CHANNEL", "CAN-PHYSICAL-CHANNEL"])]

/-! ## Findings -/

def danglingFinding (site : RefSite) (path : String) : ValidationError where
  code := "ref.dangling"
  message := "dangling reference to '" ++ path ++ "'"
  location := some site.node.span
  path := some path

def unrecognizedFinding (site : RefSite) (path : String) : ValidationError where
  severity := .warning
  code := "ref.dest_unrecognized"
  message := "unrecognized DEST '" ++ site.dest ++ "' for '" ++ path ++ "'"
  location := some site.node.span
  path := some path
  expectedType := some site.dest

def mismatchFinding (site : RefSite) (path actualTag : String) : ValidationError where
  code := "ref.type_mismatch"
  message := "reference to '" ++ path ++ "' expects DEST '" ++ site.dest ++
    "' but resolves to <" ++ actualTag ++ ">"
  location := some site.node.span
  path := some path
  expectedType := some site.dest
  actualType := some actualTag

/-- The finding about one site, if any. -/
def checkSite (index : StdMap RawNode) (site : RefSite) : Option ValidationError :=
  let path := trimText site.node.text
  if path = "" then none
  else
    match index[path]? with
    | none => some (danglingFinding site path)
    | some target =>
      match destToTags.lookup site.dest with
      | none => some (unrecognizedFinding site path)
      | some tags =>
        if target.tagName ∈ tags then none else some (mismatchFinding site path target.tagName)

section
variable {D : Type} [Double D]

/-- `Validator::buildReferencePathIndex`. -/
def buildReferencePathIndex (project : ParsedProject D) : StdMap RawNode :=
  project.files.foldl (fun index file =>
    match file.rawDocument with
    | none => index
    | some root => indexNode root "" index) ∅

/-- `Validator::validateReferences`. -/
def validateReferences (project : ParsedProject D) : ValidationResult :=
  let index := buildReferencePathIndex project
  ⟨project.files.flatMap fun file =>
    match file.rawDocument with
    | none => []
    | some root => (collectRefs root).filterMap (checkSite index)⟩

end

/-! ## Named nodes in document order -/

mutual

/-- The named nodes in document order, each under its path. -/
def pathEntries (node : RawNode) (basePath : String) : List (String × RawNode) :=
  match node with
  | ⟨tagName, attributes, text, span, children⟩ =>
    let node : RawNode := ⟨tagName, attributes, text, span, children⟩
    let nodePath := scopePath node basePath
    (if (scopeName node).isSome then [(nodePath, node)] else []) ++ pathEntriesOf children nodePath

def pathEntriesOf (children : List RawNode) (nodePath : String) : List (String × RawNode) :=
  match children with
  | [] => []
  | child :: rest =>
    (if child.tagName == "SHORT-NAME" then [] else pathEntries child nodePath) ++
      pathEntriesOf rest nodePath

end

theorem indexChildren_eq {children : List RawNode} (h : ∀ child ∈ children, ∀ basePath out,
    indexNode child basePath out =
      (pathEntries child basePath).foldl (fun out entry => out.insertIfNew entry.1 entry.2) out)
    (nodePath : String) : ∀ out, indexChildren children nodePath out =
      (pathEntriesOf children nodePath).foldl (fun out entry => out.insertIfNew entry.1 entry.2)
        out := by
  induction children with
  | nil => intro out; rw [indexChildren, pathEntriesOf, List.foldl_nil]
  | cons child rest ih =>
    obtain ⟨hchild, hrest⟩ := List.forall_mem_cons.mp h
    intro out
    rw [indexChildren, pathEntriesOf, List.foldl_append, ih hrest]
    by_cases htag : child.tagName = "SHORT-NAME"
    · simp [htag]
    · simp [htag, hchild]

/-- The index holds the first node of every path. -/
theorem indexNode_eq (node : RawNode) : ∀ basePath out, indexNode node basePath out =
    (pathEntries node basePath).foldl (fun out entry => out.insertIfNew entry.1 entry.2) out := by
  induction node using RawNode.induction with
  | step node ih =>
    intro basePath out
    have hchildren := indexChildren_eq ih (scopePath node basePath)
    cases node
    rw [indexNode, pathEntries, List.foldl_append, ← hchildren]
    split <;> rfl

/-! ## Paths and tags -/

/-- The paths of sibling trees with the tags of their nodes. -/
def taggedPaths (nodes : List RawNode) (basePath : String) : List (String × String) :=
  (pathEntriesOf nodes basePath).map fun entry => (entry.1, entry.2.tagName)

@[simp] theorem taggedPaths_nil (basePath : String) : taggedPaths [] basePath = [] := by
  rw [taggedPaths, pathEntriesOf, List.map_nil]

theorem pathEntriesOf_append (front back : List RawNode) (basePath : String) :
    pathEntriesOf (front ++ back) basePath =
      pathEntriesOf front basePath ++ pathEntriesOf back basePath := by
  induction front with
  | nil => rw [pathEntriesOf]; rfl
  | cons node front ih => rw [List.cons_append, pathEntriesOf, ih, pathEntriesOf, List.append_assoc]

@[simp] theorem taggedPaths_append (front back : List RawNode) (basePath : String) :
    taggedPaths (front ++ back) basePath =
      taggedPaths front basePath ++ taggedPaths back basePath := by
  rw [taggedPaths, pathEntriesOf_append, List.map_append, taggedPaths, taggedPaths]

theorem taggedPaths_flatMap {T : Type} (items : List T) (nodes : T → List RawNode)
    (basePath : String) : taggedPaths (items.flatMap nodes) basePath =
      items.flatMap fun x => taggedPaths (nodes x) basePath := by
  induction items with
  | nil => simp
  | cons x items ih => simp [ih]

/-- A named node stands in front of what is below it. -/
theorem taggedPaths_named {node : RawNode} {name basePath : String}
    (htag : node.tagName ≠ "SHORT-NAME") (h : scopeName node = some name) :
    taggedPaths [node] basePath =
      (basePath ++ "/" ++ name, node.tagName) :: taggedPaths node.children (basePath ++ "/" ++ name) := by
  have hpath : scopePath node basePath = basePath ++ "/" ++ name := by rw [scopePath, h]
  cases node
  simp [taggedPaths, pathEntriesOf, pathEntries, hpath, h, htag]

/-- An unnamed node only passes its base path on. -/
theorem taggedPaths_unnamed {node : RawNode} {basePath : String}
    (htag : node.tagName ≠ "SHORT-NAME") (h : scopeName node = none) :
    taggedPaths [node] basePath = taggedPaths node.children basePath := by
  have hpath : scopePath node basePath = basePath := by rw [scopePath, h]
  cases node
  simp [taggedPaths, pathEntriesOf, pathEntries, hpath, h, htag]

/-- A short name is no path element. -/
theorem taggedPaths_shortName {node : RawNode} {basePath : String}
    (htag : node.tagName = "SHORT-NAME") : taggedPaths [node] basePath = [] := by
  simp [taggedPaths, pathEntriesOf, htag]

/-! ## Errors -/

/-- The tag of the first node of a path. -/
def tagAt (paths : List (String × String)) (path : String) : Option String :=
  (paths.find? fun entry => entry.1 = path).map Prod.snd

/-- A reference that is no error: it is blank, or leads to a node whose tag the
destination type does not exclude. -/
def SoundRef (paths : List (String × String)) (path dest : String) : Prop :=
  path = "" ∨ ∃ tag, tagAt paths path = some tag ∧
    ∀ tags, destToTags.lookup dest = some tags → tag ∈ tags

/-- A site has no error exactly when its reference is sound. -/
theorem checkSite_error_iff {entries : List (String × RawNode)} {site : RefSite} :
    (∀ finding, checkSite (ofFirst entries) site = some finding → finding.severity ≠ .error) ↔
      SoundRef (entries.map fun entry => (entry.1, entry.2.tagName)) (trimText site.node.text)
        site.dest := by
  have htag : tagAt (entries.map fun entry => (entry.1, entry.2.tagName)) (trimText site.node.text) =
      (ofFirst entries)[trimText site.node.text]?.map RawNode.tagName := by
    rw [tagAt, getElem?_ofFirst, List.find?_map, Option.map_map, Option.map_map]
    rfl
  rw [SoundRef, htag, checkSite]
  by_cases hpath : trimText site.node.text = ""
  · simp [hpath]
  · cases hindex : (ofFirst entries)[trimText site.node.text]? with
    | none => simp [hpath, danglingFinding]
    | some target =>
      cases hdest : destToTags.lookup site.dest with
      | none => simp [hpath, unrecognizedFinding]
      | some tags => by_cases hmem : target.tagName ∈ tags <;> simp [hpath, hmem, mismatchFinding]

/-- One document has no errors exactly when all its references are sound. -/
theorem validateReferences_no_errors_iff {D : Type} [Double D] {file : ParsedFile D}
    {root : RawNode} (hfile : file.rawDocument = some root) (hroot : root.tagName ≠ "SHORT-NAME")
    (refs : StdMap ResolvedReference) :
    (validateReferences ⟨[file], refs⟩).hasErrors = false ↔
      ∀ site ∈ collectRefs root, SoundRef (taggedPaths [root] "") (trimText site.node.text)
        site.dest := by
  have hindex : buildReferencePathIndex ⟨[file], refs⟩ = ofFirst (pathEntries root "") := by
    simp only [buildReferencePathIndex, List.foldl_cons, List.foldl_nil, hfile, indexNode_eq]
    rfl
  have hpaths : taggedPaths [root] "" =
      (pathEntries root "").map fun entry => (entry.1, entry.2.tagName) := by
    simp [taggedPaths, pathEntriesOf, hroot]
  rw [hpaths]
  simp only [← checkSite_error_iff, validateReferences, hindex, List.flatMap_cons, hfile,
    List.flatMap_nil, List.append_nil, ValidationResult.hasErrors, List.any_eq_false,
    List.mem_filterMap, decide_eq_true_eq]
  exact ⟨fun h site hsite finding hfinding => h finding ⟨site, hsite, hfinding⟩,
    fun h finding ⟨site, hsite, hfinding⟩ => h site hsite finding hfinding⟩

end ParseX

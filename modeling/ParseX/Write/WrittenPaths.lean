import ParseX.Validator.ValidatorReferences
import ParseX.Write.WrittenNames

/-! # Paths of the written document

All elements stand below the package `Sys`, where the six types share one name
space and a path leads to its first node. -/
namespace ParseX
open Cpp

/-! ## Trimmed paths -/

/-- What is left of a name at the end of a trimmed path. -/
def pathTail (name : String) : String := String.ofList (name.toList.rdropWhile isBlank)

theorem rdropWhile_append_concat {p : Char → Bool} {front : List Char} {c : Char} (hc : p c = false)
    (back : List Char) :
    (front ++ [c] ++ back).rdropWhile p = front ++ [c] ++ back.rdropWhile p := by
  induction back using List.reverseRecOn with
  | nil => simp [hc]
  | append_singleton back d ih =>
    rw [← List.append_assoc, List.rdropWhile_concat, List.rdropWhile_concat]
    split
    · exact ih
    · rw [List.append_assoc]

theorem toList_pathTail (name : String) :
    (pathTail name).toList = name.toList.rdropWhile isBlank := String.toList_ofList

theorem trimText_sys (name : String) : trimText ("/Sys/" ++ name) = "/Sys/" ++ pathTail name := by
  apply String.toList_inj.mp
  rw [toList_trimText, String.toList_append, String.toList_append, toList_pathTail]
  exact @rdropWhile_append_concat isBlank ['/', 'S', 'y', 's'] '/' rfl name.toList

/-- A name without a blank in front. -/
def LeadingVisible (name : String) : Prop := ∀ c ∈ name.toList.head?, isBlank c = false

instance (name : String) : Decidable (LeadingVisible name) :=
  decidable_of_iff (name.toList.head?.all (fun c => !isBlank c) = true)
    (by unfold LeadingVisible; cases name.toList.head? <;> simp)

theorem pathTail_eq {name : String} (h : LeadingVisible name) : pathTail name = trimText name := by
  apply String.toList_inj.mp
  have hdrop : name.toList.dropWhile isBlank = name.toList := by
    cases hname : name.toList with
    | nil => rfl
    | cons c cs => simp [h c (by rw [hname]; rfl)]
  rw [toList_pathTail, toList_trimText, trimChars, hdrop]

theorem leadingVisible_of_pathTail {name : String} (hne : pathTail name ≠ "")
    (h : LeadingVisible (pathTail name)) : LeadingVisible name := by
  obtain ⟨rest, hrest⟩ : (pathTail name).toList <+: name.toList := by
    rw [toList_pathTail]
    exact List.rdropWhile_prefix _ _
  have hne' : (pathTail name).toList ≠ [] := fun he => hne (String.toList_inj.mp he)
  rw [LeadingVisible, ← hrest, List.head?_append_of_ne_nil _ hne']
  exact h

theorem leadingVisible_trimText (name : String) : LeadingVisible (trimText name) := by
  rw [LeadingVisible, toList_trimText]
  exact (trimmed_trimChars _).1

/-! ## Tagged paths -/

theorem tagAt_append (front back : List (String × String)) (path : String) :
    tagAt (front ++ back) path = (tagAt front path).or (tagAt back path) := by
  rw [tagAt, List.find?_append, Option.map_or, tagAt, tagAt]

theorem tagAt_eq_none {paths : List (String × String)} {path : String} :
    tagAt paths path = none ↔ path ∉ paths.map Prod.fst := by
  rw [tagAt, Option.map_eq_none_iff, List.find?_eq_none, List.mem_map]
  simp only [decide_eq_true_eq, not_exists, not_and]

theorem tagAt_eq_some {paths : List (String × String)} {path tag : String}
    (h : tagAt paths path = some tag) : (path, tag) ∈ paths := by
  obtain ⟨entry, hentry, rfl⟩ := Option.map_eq_some_iff.mp h
  obtain rfl : entry.1 = path := by simpa using List.find?_some hentry
  exact List.mem_of_find?_eq_some hentry

/-- Where all nodes have one tag, every path leads to it. -/
theorem tagAt_of_tag {paths : List (String × String)} {path tag : String}
    (h : ∀ entry ∈ paths, entry.2 = tag) (hpath : path ∈ paths.map Prod.fst) :
    tagAt paths path = some tag := by
  cases hat : tagAt paths path with
  | none => exact absurd hpath (tagAt_eq_none.mp hat)
  | some other => rw [← h _ (tagAt_eq_some hat)]

/-- The path below the package `Sys`. -/
def belowSys (entry : String × String) : String × String := ("/Sys/" ++ entry.1, entry.2)

theorem tagAt_belowSys (paths : List (String × String)) (path : String) :
    tagAt (paths.map belowSys) ("/Sys/" ++ path) = tagAt paths path := by
  have hentry : (fun entry : String × String => decide (entry.1 = "/Sys/" ++ path)) ∘ belowSys =
      fun entry => decide (entry.1 = path) := by
    funext entry
    simp only [Function.comp_apply, belowSys, String.append_right_inj]
  rw [tagAt, List.find?_map, Option.map_map, hentry, tagAt]
  rfl

theorem taggedPaths_cons (node : RawNode) (rest : List RawNode) (basePath : String) :
    taggedPaths (node :: rest) basePath = taggedPaths [node] basePath ++ taggedPaths rest basePath :=
  taggedPaths_append [node] rest basePath

@[simp] theorem taggedPaths_leaf (tagName text : String) (attributes : List (String × String))
    (rest : List RawNode) (basePath : String) :
    taggedPaths (leaf tagName text attributes :: rest) basePath = taggedPaths rest basePath := by
  rw [taggedPaths_cons]
  by_cases htag : tagName = "SHORT-NAME"
  · rw [taggedPaths_shortName htag, List.nil_append]
  · rw [taggedPaths_unnamed htag rfl, leaf, taggedPaths_nil, List.nil_append]

theorem taggedPaths_optionalLeaf {T : Type} (value : Option T) (tagName : String)
    (text : T → String) (rest : List RawNode) (basePath : String) :
    taggedPaths ((value.map fun x => leaf tagName (text x) []).toList ++ rest) basePath =
      taggedPaths rest basePath := by
  cases value <;> simp

/-- A wrapper only passes its base path on. -/
theorem taggedPaths_wrapper {empty : Bool} {tagName basePath : String} {children : List XmlNode}
    (htag : tagName ≠ "SHORT-NAME") (h : ∀ child ∈ children, child.name ≠ "SHORT-NAME")
    (hempty : empty = true → taggedPaths (children.map XmlNode.raw) basePath = []) :
    taggedPaths ((wrapperUnless empty tagName children).map XmlNode.raw) basePath =
      taggedPaths (children.map XmlNode.raw) basePath := by
  cases empty with
  | true => rw [wrapperUnless, if_pos rfl, hempty rfl, List.map_nil, taggedPaths_nil]
  | false =>
    have hname : scopeName (XmlNode.raw { name := tagName, children := children }) = none := by
      have hfind : findChild (XmlNode.raw { name := tagName, children := children }) "SHORT-NAME" =
          none := by
        rw [XmlNode.raw_eq, findChild, List.find?_map, Option.map_eq_none_iff, List.find?_eq_none]
        intro child hchild
        simpa [XmlNode.raw_eq] using h child hchild
      rw [scopeName, findShortNameChild, hfind]
    rw [wrapperUnless, if_neg Bool.false_ne_true, List.map_singleton, taggedPaths_unnamed _ hname]
    · rw [XmlNode.raw_eq]
    · rwa [XmlNode.raw_eq]

theorem Visible.trimText_ne {text : String} (h : Visible text) : trimText text ≠ "" := by
  intro he
  obtain ⟨-, c, hc, hb⟩ := h
  have hnil : trimChars text.toList = [] := by
    rw [← toList_trimText, he]
    rfl
  rw [trimChars, List.rdropWhile_eq_nil_iff] at hnil
  -- a blank head is dropped, so nothing is left
  have hdrop : text.toList.dropWhile isBlank = [] := by
    by_contra hne
    exact absurd (hnil _ (List.head_mem hne)) (by simpa using List.head_dropWhile_not isBlank hne)
  exact absurd (List.dropWhile_eq_nil_iff.mp hdrop c hc) (by simp [hb])

section
variable [LibXml] [LawfulLibXml]

theorem Visible.scopeName {tagName text name : String} {attributes : List (String × String)}
    {span : RawSpan} {rest : List RawNode} (h : Visible name) :
    scopeName ⟨tagName, attributes, text, span,
      leaf "SHORT-NAME" (LibXml.setContent name) [] :: rest⟩ = some (trimText name) := by
  simp [ParseX.scopeName, findShortNameChild, findChild, LawfulLibXml.setContent_plain _ h.1,
    h.trimText_ne]

/-- The paths of an owner and of the named nodes below it. -/
def ownerPaths (tag childTag owner : String) (names : List String) : List (String × String) :=
  (trimText owner, tag) :: names.map fun name => (trimText owner ++ "/" ++ trimText name, childTag)

omit [LibXml] [LawfulLibXml] in
/-- The nodes below an owner, named and without names below them. -/
theorem taggedPaths_children {T : Type} {items : List T} {element : T → XmlNode}
    {childTag basePath : String} {name : T → String} (htag : ∀ x, (element x).name = childTag)
    (hchild : childTag ≠ "SHORT-NAME")
    (hname : ∀ x ∈ items, scopeName (element x).raw = some (trimText (name x)))
    (hbelow : ∀ x path, taggedPaths (element x).raw.children path = []) :
    taggedPaths ((items.map element).map XmlNode.raw) basePath =
      items.map fun x => (basePath ++ "/" ++ trimText (name x), childTag) := by
  induction items with
  | nil => simp
  | cons x items ih =>
    obtain ⟨hx, hitems⟩ := List.forall_mem_cons.mp hname
    have htagName : (element x).raw.tagName = childTag := by rw [XmlNode.raw_eq, htag]
    rw [List.map_cons, List.map_cons, taggedPaths_cons, ih hitems,
      taggedPaths_named (htagName ▸ hchild) hx, hbelow, htagName]
    rfl

/-- Named elements of one tag below a path. -/
theorem taggedPaths_namedElements {tagName basePath : String} {names : List String}
    (htag : tagName ≠ "SHORT-NAME") (h : ∀ name ∈ names, Visible name) :
    taggedPaths ((names.map (namedElement tagName)).map XmlNode.raw) basePath =
      names.map fun name => (basePath ++ "/" ++ trimText name, tagName) := by
  refine taggedPaths_children (fun _ => rfl) htag (fun name hname => ?_) fun name path => ?_
  · rw [raw_namedElement]
    exact (h name hname).scopeName
  · rw [raw_namedElement, taggedPaths_leaf, taggedPaths_nil]

/-- A mapping has nothing named below it. -/
theorem taggedPaths_mapping {tagName refTag dest owner ref : String} {startPosition : UInt32}
    {idx : Nat} (path : String) : taggedPaths
      (mappingElement tagName refTag dest owner ref startPosition idx).raw.children path = [] := by
  rw [raw_mappingElement, taggedPaths_leaf]
  split <;> simp

/-- The wrapper around sorted named elements. -/
theorem taggedPaths_namedWrapper {wrapper tagName : String} (basePath : String)
    {names : List String} (hwrapper : wrapper ≠ "SHORT-NAME") (htag : tagName ≠ "SHORT-NAME")
    (h : ∀ name ∈ names, Visible name) :
    taggedPaths ((wrapperUnless names.isEmpty wrapper
        ((sortedStrings names).map (namedElement tagName))).map XmlNode.raw) basePath =
      (sortedStrings names).map fun name => (basePath ++ "/" ++ trimText name, tagName) := by
  have hnames := @taggedPaths_namedElements _ _ tagName basePath (sortedStrings names) htag
    fun name hname => h name (mem_sortedStrings.mp hname)
  rw [taggedPaths_wrapper hwrapper, hnames]
  · intro child hchild
    obtain ⟨name, -, rfl⟩ := List.mem_map.mp hchild
    exact htag
  · intro hempty
    rw [hnames, List.isEmpty_iff.mp hempty]
    rfl

/-- An owner and what stands below it. -/
theorem taggedPaths_owner {tagName childTag name : String} {attributes : List (String × String)}
    {text : String} {span : RawSpan} {rest : List RawNode} {names : List String}
    (htag : tagName ≠ "SHORT-NAME") (h : Visible name)
    (hrest : taggedPaths rest ("/Sys/" ++ trimText name) =
      names.map fun child => ("/Sys/" ++ trimText name ++ "/" ++ trimText child, childTag)) :
    taggedPaths [⟨tagName, attributes, text, span,
      leaf "SHORT-NAME" (LibXml.setContent name) [] :: rest⟩] "/Sys" =
        (ownerPaths tagName childTag name names).map belowSys := by
  have hpath : "/Sys" ++ "/" ++ trimText name = "/Sys/" ++ trimText name := rfl
  rw [taggedPaths_named htag h.scopeName, taggedPaths_leaf, hpath, hrest, ownerPaths, List.map_cons,
    List.map_map]
  simp only [Function.comp_def, belowSys, String.append_assoc]

theorem taggedPaths_cluster {value : Cluster} (h : Visible value.common.shortName)
    (hchannels : ∀ channel ∈ value.physicalChannels, Visible channel) :
    taggedPaths [(buildClusterElement value).raw] "/Sys" =
      (ownerPaths "CAN-CLUSTER" "CAN-PHYSICAL-CHANNEL" value.common.shortName
        (sortedStrings value.physicalChannels)).map belowSys := by
  have hconditional (path : String) : taggedPaths [(clusterConditional value).raw] path =
      (sortedStrings value.physicalChannels).map fun channel =>
        (path ++ "/" ++ trimText channel, "CAN-PHYSICAL-CHANNEL") := by
    have hname : scopeName (clusterConditional value).raw = none := by
      have hfind : findChild (clusterConditional value).raw "SHORT-NAME" = none := by
        rw [XmlNode.raw_eq, clusterConditional, findChild, List.map_append,
          map_raw_optionalTextChild, List.find?_append, find_wrapper (by decide)]
        cases value.baudrate <;> rfl
      rw [scopeName, findShortNameChild, hfind]
    rw [taggedPaths_unnamed _ hname, XmlNode.raw_eq, clusterConditional, List.map_append,
      map_raw_optionalTextChild, taggedPaths_optionalLeaf,
      taggedPaths_namedWrapper path (by decide) (by decide) hchannels]
    rw [XmlNode.raw_eq]
    exact (by decide : "CAN-CLUSTER-CONDITIONAL" ≠ "SHORT-NAME")
  rw [raw_buildClusterElement]
  refine taggedPaths_owner (by decide) h ?_
  rw [taggedPaths_optionalLeaf, taggedPaths_wrapper (by decide), List.map_singleton, hconditional]
  · simp [clusterConditional]
  · intro hempty
    have hnone : value.physicalChannels = [] := by simpa using (Bool.and_eq_true_iff.mp hempty).2
    rw [List.map_singleton, hconditional, hnone]
    rfl

theorem taggedPaths_ecuInstance {value : EcuInstance} (h : Visible value.common.shortName)
    (hcontrollers : ∀ controller ∈ value.controllers, Visible controller) :
    taggedPaths [(buildEcuInstanceElement value).raw] "/Sys" =
      (ownerPaths "ECU-INSTANCE" "CAN-COMMUNICATION-CONTROLLER" value.common.shortName
        (sortedStrings value.controllers)).map belowSys := by
  rw [raw_buildEcuInstanceElement]
  refine taggedPaths_owner (by decide) h ?_
  rw [taggedPaths_optionalLeaf, taggedPaths_namedWrapper _ (by decide) (by decide) hcontrollers]

/-- A sized owner of mappings. -/
theorem taggedPaths_sized {M : Type} {tagName owner lengthTag length wrapper childTag : String}
    {items : List M} {element : M → XmlNode} {name : M → String} (htag : tagName ≠ "SHORT-NAME")
    (hwrapper : wrapper ≠ "SHORT-NAME") (hchild : childTag ≠ "SHORT-NAME") (h : Visible owner)
    (hchildTag : ∀ x, (element x).name = childTag)
    (hname : ∀ x ∈ items, scopeName (element x).raw = some (trimText (name x)))
    (hbelow : ∀ x path, taggedPaths (element x).raw.children path = []) :
    taggedPaths [sizedNode tagName (LibXml.setContent owner) lengthTag length wrapper items element]
        "/Sys" = (ownerPaths tagName childTag owner (items.map name)).map belowSys := by
  refine taggedPaths_owner htag h ?_
  rw [taggedPaths_leaf, taggedPaths_wrapper hwrapper,
    taggedPaths_children hchildTag hchild hname hbelow, List.map_map]
  · rfl
  · intro child hmem
    obtain ⟨x, -, rfl⟩ := List.mem_map.mp hmem
    rw [hchildTag]
    exact hchild
  · intro hempty
    rw [List.isEmpty_iff.mp hempty]
    simp

theorem scopeName_mapping {tagName refTag dest owner ref : String} {startPosition : UInt32}
    {idx : Nat} (h : Visible owner) (href : '&' ∉ ref.toList) :
    scopeName (mappingElement tagName refTag dest owner ref startPosition idx).raw =
      some (trimText (mappingShortName owner ref idx)) := by
  rw [raw_mappingElement]
  exact (h.mappingShortName href idx).scopeName

theorem taggedPaths_frame {value : Frame} (h : Visible value.common.shortName)
    (hrefs : ∀ mapping ∈ value.pdus, '&' ∉ mapping.pduShortNameRef.toList) :
    taggedPaths [(buildFrameElement value).raw] "/Sys" =
      (ownerPaths "CAN-FRAME" "PDU-TO-FRAME-MAPPING" value.common.shortName
        ((sortedFramePduMappings value.pdus).zipIdx.map fun item =>
          mappingShortName value.common.shortName item.1.pduShortNameRef item.2)).map belowSys := by
  rw [raw_buildFrameElement]
  exact taggedPaths_sized (by decide) (by decide) (by decide) h (fun _ => rfl) (fun item hitem =>
    scopeName_mapping h (hrefs _ (mem_of_mem_zipIdx_stableSort hitem))) fun _ => taggedPaths_mapping

theorem taggedPaths_pdu {value : Pdu} (h : Visible value.common.shortName)
    (hrefs : ∀ mapping ∈ value.signalMappings, '&' ∉ mapping.signalShortNameRef.toList) :
    taggedPaths [(buildPduElement value).raw] "/Sys" =
      (ownerPaths "I-SIGNAL-I-PDU" "I-SIGNAL-TO-I-PDU-MAPPING" value.common.shortName
        ((sortedPduSignalMappings value.signalMappings).zipIdx.map fun item =>
          mappingShortName value.common.shortName item.1.signalShortNameRef item.2)).map
            belowSys := by
  rw [raw_buildPduElement]
  exact taggedPaths_sized (by decide) (by decide) (by decide) h (fun _ => rfl) (fun item hitem =>
    scopeName_mapping h (hrefs _ (mem_of_mem_zipIdx_stableSort hitem))) fun _ => taggedPaths_mapping

theorem taggedPaths_signal {D : Type} [Double D] [LawfulDouble D] {value : Signal D}
    (h : Visible value.common.shortName) :
    taggedPaths [(buildSignalElement value).raw] "/Sys" =
      [(trimText value.common.shortName, "I-SIGNAL")].map belowSys := by
  have hinit (d : D) (rest : List RawNode) (path : String) :
      taggedPaths (initValueNode d :: rest) path = taggedPaths rest path := by
    have hvalue : taggedPaths [⟨"NUMERICAL-VALUE-SPECIFICATION", [], "", {},
        [leaf "VALUE" (Double.print17 d) []]⟩] path = [] := by
      rw [taggedPaths_unnamed (by decide : "NUMERICAL-VALUE-SPECIFICATION" ≠ "SHORT-NAME") rfl,
        taggedPaths_leaf, taggedPaths_nil]
    rw [taggedPaths_cons, taggedPaths_unnamed (by decide : "INIT-VALUE" ≠ "SHORT-NAME") rfl]
    exact hvalue ▸ List.nil_append _
  have hbase (path : String) : taggedPaths [signedBaseTypeNode] path = [] := by
    rw [signedBaseTypeNode, taggedPaths_unnamed (by decide) rfl,
      taggedPaths_unnamed (by decide) rfl, taggedPaths_unnamed (by decide) rfl, taggedPaths_leaf,
      taggedPaths_nil]
  rw [raw_buildSignalElement]
  refine @taggedPaths_owner _ _ _ "" _ _ _ _ _ [] (by decide) h ?_
  cases value.initValue <;> cases value.isSigned <;> simp [hinit, hbase]

theorem taggedPaths_signalGroup {value : SignalGroup} (h : Visible value.common.shortName) :
    taggedPaths [(buildSignalGroupElement value).raw] "/Sys" =
      [(trimText value.common.shortName, "I-SIGNAL-GROUP")].map belowSys := by
  have hrefs (names : List String) (path : String) : taggedPaths ((names.map fun member =>
      refChild "I-SIGNAL-REF" "I-SIGNAL" ("/Sys/" ++ member)).map XmlNode.raw) path = [] := by
    induction names with
    | nil => rw [List.map_nil, List.map_nil, taggedPaths_nil]
    | cons name names ih => rw [List.map_cons, List.map_cons, raw_refChild, taggedPaths_leaf, ih]
  rw [raw_buildSignalGroupElement]
  refine @taggedPaths_owner _ _ _ "" _ _ _ _ _ [] (by decide) h ?_
  rw [taggedPaths_wrapper (by decide), hrefs, List.map_nil]
  · intro child hchild
    obtain ⟨member, -, rfl⟩ := List.mem_map.mp hchild
    exact (by decide : "I-SIGNAL-REF" ≠ "SHORT-NAME")
  · exact fun _ => hrefs _ _

end

/-! ## The document -/

/-- The names of an owner's mappings, in any order. -/
def mappingNames (owner : String) (refs : List String) : List String :=
  (List.range (refs.count "")).map (fun k => owner ++ "_mapping_" ++ toString k) ++
    (refs.filter (· ≠ "")).map fun ref => owner ++ "_" ++ ref

/-- The names an owner and the nodes below it take in the package. -/
def pathsBelow (owner : String) (names : List String) : List String :=
  trimText owner :: names.map fun name => trimText owner ++ "/" ++ trimText name

section
variable {D : Type} [Double D]

/-- The names that stand in front of the signals in the package. -/
def takenPaths (project : ParsedProject D) : List String :=
  ((collectAll project ParsedFile.clusters).flatMap fun x =>
    pathsBelow x.common.shortName x.physicalChannels) ++
  ((collectAll project ParsedFile.ecuInstances).flatMap fun x =>
    pathsBelow x.common.shortName x.controllers) ++
  ((collectAll project ParsedFile.frames).flatMap fun x => pathsBelow x.common.shortName
    (mappingNames x.common.shortName (x.pdus.map FramePduMapping.pduShortNameRef))) ++
  (collectAll project ParsedFile.pdus).flatMap fun x => pathsBelow x.common.shortName
    (mappingNames x.common.shortName (x.signalMappings.map PduSignalMapping.signalShortNameRef))

/-- The tagged paths in front of the signals, as the document lists them. -/
def ownersOf (project : ParsedProject D) : List (String × String) :=
  ((sortedCopy (collectAll project ParsedFile.clusters)).flatMap fun x =>
    ownerPaths "CAN-CLUSTER" "CAN-PHYSICAL-CHANNEL" x.common.shortName
      (sortedStrings x.physicalChannels)) ++
  ((sortedCopy (collectAll project ParsedFile.ecuInstances)).flatMap fun x =>
    ownerPaths "ECU-INSTANCE" "CAN-COMMUNICATION-CONTROLLER" x.common.shortName
      (sortedStrings x.controllers)) ++
  ((sortedCopy (collectAll project ParsedFile.frames)).flatMap fun x =>
    ownerPaths "CAN-FRAME" "PDU-TO-FRAME-MAPPING" x.common.shortName
      ((sortedFramePduMappings x.pdus).zipIdx.map fun item =>
        mappingShortName x.common.shortName item.1.pduShortNameRef item.2)) ++
  (sortedCopy (collectAll project ParsedFile.pdus)).flatMap fun x =>
    ownerPaths "I-SIGNAL-I-PDU" "I-SIGNAL-TO-I-PDU-MAPPING" x.common.shortName
      ((sortedPduSignalMappings x.signalMappings).zipIdx.map fun item =>
        mappingShortName x.common.shortName item.1.signalShortNameRef item.2)

/-- All tagged paths below the package, in document order. -/
def elementPaths (project : ParsedProject D) : List (String × String) :=
  ownersOf project ++
  (sortedCopy (collectAll project ParsedFile.signals)).map (fun x =>
    (trimText x.common.shortName, "I-SIGNAL")) ++
  (sortedCopy (collectAll project ParsedFile.signalGroups)).map fun x =>
    (trimText x.common.shortName, "I-SIGNAL-GROUP")

/-- What the guard of the writer leaves of the names and references. -/
structure VisibleNames (project : ParsedProject D) : Prop where
  elements : EveryCommon (fun common => Visible common.shortName) project
  channels : ∀ x ∈ collectAll project ParsedFile.clusters, ∀ channel ∈ x.physicalChannels,
    Visible channel
  controllers : ∀ x ∈ collectAll project ParsedFile.ecuInstances, ∀ controller ∈ x.controllers,
    Visible controller
  pduRefs : ∀ x ∈ collectAll project ParsedFile.frames, ∀ mapping ∈ x.pdus,
    '&' ∉ mapping.pduShortNameRef.toList
  signalRefs : ∀ x ∈ collectAll project ParsedFile.pdus, ∀ mapping ∈ x.signalMappings,
    '&' ∉ mapping.signalShortNameRef.toList
  members : ∀ x ∈ collectAll project ParsedFile.signalGroups, ∀ member ∈ x.members,
    '&' ∉ member.toList

theorem fst_ownerPaths (tag childTag owner : String) (names : List String) :
    (ownerPaths tag childTag owner names).map Prod.fst = pathsBelow owner names := by
  rw [ownerPaths, List.map_cons, List.map_map, pathsBelow]
  rfl

theorem mem_pathsBelow_congr {owner path : String} {names names' : List String}
    (h : ∀ name, name ∈ names ↔ name ∈ names') :
    path ∈ pathsBelow owner names ↔ path ∈ pathsBelow owner names' := by
  simp only [pathsBelow, List.mem_cons, List.mem_map, h]

/-- The names of sorted mappings. -/
theorem mem_mappingNames {M : Type} {key : M → String} {mappings : List M} {owner name : String} :
    (name ∈ (stableSort key mappings).zipIdx.map fun item =>
      mappingShortName owner (key item.1) item.2) ↔
      name ∈ mappingNames owner (mappings.map key) := by
  have hsorted : ((stableSort key mappings).map key).Pairwise (· ≤ ·) :=
    List.pairwise_map.mpr (pairwise_stableSort key mappings)
  have hperm : ((stableSort key mappings).map key).Perm (mappings.map key) :=
    (stableSort_perm key mappings).map key
  have hzip := mappingNames_eq owner hsorted
  rw [List.zipIdx_map, List.map_map] at hzip
  show name ∈ List.map ((fun item => mappingShortName owner item.1 item.2) ∘ Prod.map key id) _ ↔ _
  rw [hzip, mappingNames, hperm.count_eq, List.mem_append, List.mem_append,
    ((hperm.filter _).map _).mem_iff]

/-- The owners of one type and the names they take. -/
theorem mem_owners {T : Type} [DomainElement T] {items : List T} {tag childTag path : String}
    {names names' : T → List String} (h : ∀ x name, name ∈ names x ↔ name ∈ names' x) :
    (path ∈ ((sortedCopy items).flatMap fun x =>
      ownerPaths tag childTag (shortName x) (names x)).map Prod.fst) ↔
      path ∈ items.flatMap fun x => pathsBelow (shortName x) (names' x) := by
  simp only [List.map_flatMap, fst_ownerPaths, List.mem_flatMap, sortedCopy, mem_stableSort,
    mem_pathsBelow_congr (h _)]

theorem mem_ownersOf {project : ParsedProject D} {path : String} :
    path ∈ (ownersOf project).map Prod.fst ↔ path ∈ takenPaths project := by
  simp only [ownersOf, takenPaths, List.map_append, List.mem_append]
  refine or_congr (or_congr (or_congr ?_ ?_) ?_) ?_
  · exact mem_owners fun x name => mem_sortedStrings
  · exact mem_owners fun x name => mem_sortedStrings
  · exact mem_owners fun x name => mem_mappingNames
  · exact mem_owners fun x name => mem_mappingNames

/-- No owner and nothing below one is a signal. -/
theorem ownersOf_tag {project : ParsedProject D} :
    ∀ entry ∈ ownersOf project, entry.2 ≠ "I-SIGNAL" := by
  have howner {tag childTag owner : String} {names : List String} (htag : tag ≠ "I-SIGNAL")
      (hchild : childTag ≠ "I-SIGNAL") :
      ∀ entry ∈ ownerPaths tag childTag owner names, entry.2 ≠ "I-SIGNAL" := by
    rw [ownerPaths, List.forall_mem_cons, List.forall_mem_map]
    exact ⟨htag, fun _ _ => hchild⟩
  have hgroup {T : Type} {items : List T} {tag childTag : String} {owner : T → String}
      {names : T → List String} (htag : tag ≠ "I-SIGNAL") (hchild : childTag ≠ "I-SIGNAL") :
      ∀ entry ∈ items.flatMap fun x => ownerPaths tag childTag (owner x) (names x),
        entry.2 ≠ "I-SIGNAL" := by
    intro entry hentry
    obtain ⟨x, -, hentry⟩ := List.mem_flatMap.mp hentry
    exact howner htag hchild entry hentry
  simp only [ownersOf, List.forall_mem_append]
  exact ⟨⟨⟨hgroup (by decide) (by decide), hgroup (by decide) (by decide)⟩,
    hgroup (by decide) (by decide)⟩, hgroup (by decide) (by decide)⟩

/-- A path that starts with a visible character. -/
def VisiblePath (path : String) : Prop := path ≠ "" ∧ LeadingVisible path

theorem Visible.visiblePath {name : String} (h : Visible name) : VisiblePath (trimText name) :=
  ⟨h.trimText_ne, leadingVisible_trimText name⟩

theorem visiblePath_pathsBelow {owner : String} {names : List String} (h : Visible owner) :
    ∀ path ∈ pathsBelow owner names, VisiblePath path := by
  have hne : (trimText owner).toList ≠ [] := fun he => h.trimText_ne (String.toList_inj.mp he)
  rw [pathsBelow, List.forall_mem_cons, List.forall_mem_map]
  refine ⟨h.visiblePath, fun name _ => ⟨fun he => hne ?_, ?_⟩⟩
  · have hnil := congrArg String.toList he
    rw [String.append_assoc, String.toList_append] at hnil
    exact (List.append_eq_nil_iff.mp hnil).1
  · rw [LeadingVisible, String.append_assoc, String.toList_append, List.head?_append_of_ne_nil _ hne]
    exact h.visiblePath.2

/-- All paths of the document start with a visible character. -/
theorem VisibleNames.visiblePath {project : ParsedProject D} (h : VisibleNames project) :
    ∀ path ∈ (elementPaths project).map Prod.fst, VisiblePath path := by
  obtain ⟨n1, n2, n3, n4, n5, n6⟩ := h.elements
  have hgroup {T : Type} [DomainElement T] {items : List T} {names : T → List String}
      (hn : ∀ x ∈ items, Visible (shortName x)) :
      ∀ path ∈ items.flatMap fun x => pathsBelow (shortName x) (names x), VisiblePath path := by
    intro path hpath
    obtain ⟨x, hx, hpath⟩ := List.mem_flatMap.mp hpath
    exact visiblePath_pathsBelow (hn x hx) path hpath
  have hitems {T : Type} [DomainElement T] {items : List T} {tag : String}
      (hn : ∀ x ∈ items, Visible (shortName x)) :
      ∀ path ∈ ((sortedCopy items).map fun x => (trimText (shortName x), tag)).map Prod.fst,
        VisiblePath path := by
    rw [List.map_map, List.forall_mem_map]
    exact fun x hx => (hn x (mem_stableSort.mp hx)).visiblePath
  simp only [elementPaths, List.map_append, List.forall_mem_append, mem_ownersOf, takenPaths]
  exact ⟨⟨⟨⟨⟨hgroup n1, hgroup n2⟩, hgroup n3⟩, hgroup n4⟩, hitems n5⟩, hitems n6⟩

variable [LibXml] [LawfulLibXml] [LawfulDouble D] {project : ParsedProject D}

/-- The tagged paths of the written elements. -/
theorem taggedPaths_writeElements (h : VisibleNames project) :
    taggedPaths ((writeElements project).map XmlNode.raw) "/Sys" =
      (elementPaths project).map belowSys := by
  obtain ⟨n1, n2, n3, n4, n5, n6⟩ := h.elements
  have hgroup {T : Type} [DomainElement T] {items : List T} {element : T → XmlNode}
      {paths : T → List (String × String)}
      (hone : ∀ x ∈ items, taggedPaths [(element x).raw] "/Sys" = (paths x).map belowSys) :
      taggedPaths (((sortedCopy items).map element).map XmlNode.raw) "/Sys" =
        ((sortedCopy items).flatMap paths).map belowSys := by
    rw [List.map_map, List.map_eq_flatMap, taggedPaths_flatMap, List.map_flatMap]
    exact List.flatMap_congr fun x hx => hone x (mem_stableSort.mp hx)
  have h1 := hgroup fun x hx => taggedPaths_cluster (n1 x hx) (h.channels x hx)
  have h2 := hgroup fun x hx => taggedPaths_ecuInstance (n2 x hx) (h.controllers x hx)
  have h3 := hgroup fun x hx => taggedPaths_frame (n3 x hx) (h.pduRefs x hx)
  have h4 := hgroup fun x hx => taggedPaths_pdu (n4 x hx) (h.signalRefs x hx)
  have h5 := hgroup fun (x : Signal D) hx => taggedPaths_signal (n5 x hx)
  have h6 := hgroup fun x hx => taggedPaths_signalGroup (n6 x hx)
  rw [← List.map_eq_flatMap] at h5 h6
  simp only [writeElements, List.map_append, taggedPaths_append, h1, h2, h3, h4, h5, h6,
    elementPaths, ownersOf]

/-- The tagged paths of the document. -/
theorem taggedPaths_buildDocument (h : VisibleNames project) :
    taggedPaths [(buildDocument project).root.raw] "" =
      ("/Sys", "AR-PACKAGE") :: (elementPaths project).map belowSys := by
  obtain ⟨attributes, hroot⟩ := @raw_buildDocument D _ _ project
  have hsys : Visible "Sys" := ⟨by decide, 'S', by decide, by decide⟩
  have hpath : "" ++ "/" ++ trimText "Sys" = "/Sys" := by decide
  have helements : scopeName ⟨"ELEMENTS", [], "", {}, (writeElements project).map XmlNode.raw⟩ =
      none := by
    have hfind : findChild ⟨"ELEMENTS", [], "", {}, (writeElements project).map XmlNode.raw⟩
        "SHORT-NAME" = none :=
      List.find?_eq_none.mpr fun child hchild => by simpa using tagName_writeElements child hchild
    rw [scopeName, findShortNameChild, hfind]
  rw [hroot, taggedPaths_unnamed (by decide : "AUTOSAR" ≠ "SHORT-NAME") rfl,
    taggedPaths_unnamed (by decide : "AR-PACKAGES" ≠ "SHORT-NAME") rfl,
    taggedPaths_named (by decide : "AR-PACKAGE" ≠ "SHORT-NAME") hsys.scopeName, taggedPaths_leaf,
    taggedPaths_unnamed (by decide : "ELEMENTS" ≠ "SHORT-NAME") helements, hpath,
    taggedPaths_writeElements h]

/-! ## What the guard lets through -/

omit [LibXml] [LawfulLibXml] in
theorem guard_child {node child : XmlNode} (h : hasBlankText node = false)
    (hchild : child ∈ node.children) : hasBlankText child = false := by
  rw [hasBlankText_eq, Bool.or_eq_false_iff] at h
  simpa using List.any_eq_false.mp h.2 child hchild

theorem guard_textChild {tagName text : String} (h : hasBlankText (textChild tagName text) = false)
    (hplain : '&' ∉ text.toList) : Visible text := by
  rw [hasBlankText_eq, Bool.or_eq_false_iff, textChild, LawfulLibXml.setContent_plain text hplain]
    at h
  obtain ⟨c, hc, hb⟩ := List.all_eq_false.mp h.1
  exact ⟨hplain, c, hc, by simpa using hb⟩

theorem guard_shortName {node : XmlNode} {rest : List XmlNode} {name : String}
    (h : hasBlankText node = false) (hnode : node.children = textChild "SHORT-NAME" name :: rest)
    (hplain : '&' ∉ name.toList) : Visible name :=
  guard_textChild (guard_child h (by rw [hnode]; exact List.mem_cons_self)) hplain

omit [LibXml] [LawfulLibXml] in
theorem guard_wrapper {node child : XmlNode} {empty : Bool} {tagName : String}
    {front children : List XmlNode} (h : hasBlankText node = false)
    (hnode : node.children = front ++ wrapperUnless empty tagName children) (hempty : empty = false)
    (hchild : child ∈ children) : hasBlankText child = false := by
  have hmem : ({ name := tagName, children := children } : XmlNode) ∈ node.children := by
    rw [hnode, hempty]
    exact List.mem_append_right _ List.mem_cons_self
  exact guard_child (guard_child h hmem) hchild

theorem guard_named {node : XmlNode} {tagName wrapper : String} {front : List XmlNode}
    {names : List String} (h : hasBlankText node = false)
    (hnode : node.children = front ++ wrapperUnless names.isEmpty wrapper
      ((sortedStrings names).map (namedElement tagName)))
    (hplain : ∀ name ∈ names, '&' ∉ name.toList) : ∀ name ∈ names, Visible name := by
  intro name hname
  have hempty : names.isEmpty = false := by
    rw [← Bool.not_eq_true, List.isEmpty_iff]
    exact List.ne_nil_of_mem hname
  exact guard_shortName (guard_wrapper h hnode hempty
    (List.mem_map_of_mem (mem_sortedStrings.mpr hname))) rfl (hplain name hname)

omit [LawfulLibXml] [LawfulDouble D] in
theorem guard_element {node : XmlNode} (h : hasBlankText (buildDocument project).root = false)
    (hnode : node ∈ writeElements project) : hasBlankText node = false := by
  simp only [buildDocument, forRelease, hasBlankText, hasBlankTexts, hasBlankTexts_eq,
    Option.any_none, Bool.or_false, Bool.false_or, Bool.or_eq_false_iff] at h
  simpa using List.any_eq_false.mp h.2 node hnode

omit [LawfulDouble D] in
/-- The names and references of a project that was written. -/
theorem visibleNames_of_guard (hwithout : Without '&' project)
    (h : hasBlankText (buildDocument project).root = false) : VisibleNames project := by
  obtain ⟨w1, w2, w3, w4, w5, w6⟩ := hwithout
  have helements : ∀ node ∈ writeElements project, hasBlankText node = false :=
    fun node hnode => guard_element h hnode
  simp only [writeElements, List.forall_mem_append, List.forall_mem_map, sortedCopy,
    mem_stableSort] at helements
  obtain ⟨⟨⟨⟨⟨g1, g2⟩, g3⟩, g4⟩, g5⟩, g6⟩ := helements
  have hplain {common : CommonFields} {rest : List String}
      (hw : ∀ text ∈ common.texts ++ rest, '&' ∉ text.toList) : '&' ∉ common.shortName.toList :=
    hw _ (List.mem_append_left _ List.mem_cons_self)
  constructor
  · refine ⟨fun x hx => ?_, fun x hx => ?_, fun x hx => ?_, fun x hx => ?_, fun x hx => ?_,
      fun x hx => ?_⟩
    · exact guard_shortName (g1 x hx) rfl (hplain (w1 x hx))
    · have hw := w2 x hx
      rw [EcuInstance.texts, List.append_assoc] at hw
      exact guard_shortName (g2 x hx) rfl (hplain hw)
    · have hw := w3 x hx
      rw [Frame.texts, List.append_assoc] at hw
      exact guard_shortName (g3 x hx) rfl (hplain hw)
    · exact guard_shortName (g4 x hx) rfl (hplain (w4 x hx))
    · have hw := w5 x hx
      rw [Signal.texts, List.append_assoc, List.append_assoc] at hw
      exact guard_shortName (g5 x hx) rfl (hplain hw)
    · exact guard_shortName (g6 x hx) rfl (hplain (w6 x hx))
  · intro x hx channel hchannel
    have hempty : (x.baudrate.isNone && x.physicalChannels.isEmpty) = false := by
      rw [List.isEmpty_eq_false_iff.mpr (List.ne_nil_of_mem hchannel), Bool.and_false]
    have hconditional : hasBlankText (clusterConditional x) = false :=
      guard_wrapper (g1 x hx) rfl hempty List.mem_cons_self
    exact guard_named hconditional rfl (fun name hname =>
      w1 x hx name (List.mem_append_right _ hname)) channel hchannel
  · intro x hx
    exact guard_named (g2 x hx) rfl fun name hname => w2 x hx name (List.mem_append_right _ hname)
  · exact fun x hx mapping hmapping =>
      w3 x hx _ (List.mem_append_right _ (List.mem_map_of_mem hmapping))
  · exact fun x hx mapping hmapping =>
      w4 x hx _ (List.mem_append_right _ (List.mem_map_of_mem hmapping))
  · exact fun x hx member hmember => w6 x hx member (List.mem_append_right _ hmember)

end

end ParseX

import ParseX.Validator.ValidatorUniqueness
import ParseX.Write.Fidelity
import ParseX.Write.StableSort

/-! # Names of the written document

All elements of a project share the package `Sys`, and the mappings of an owner
get names made from its name. The uniqueness check of the document passes
exactly when these names are distinct. -/
namespace ParseX
open Cpp

/-! ## Scopes without findings -/

/-- The names of a list of siblings. -/
def siblingNames (nodes : List RawNode) : List String :=
  nodes.filterMap fun node => if node.tagName == "SHORT-NAME" then none else scopeName node

theorem namedChildren_names (node : RawNode) :
    (namedChildren node).map Prod.fst = siblingNames node.children := by
  rw [namedChildren, siblingNames, List.map_filterMap]
  apply List.filterMap_congr
  intro child _
  split <;> simp [Option.map_map, Function.comp_def]

/-- No scope of the tree has two children of a name. -/
def CleanScopes (node : RawNode) : Prop := checkNode node "" = []

/-- Where the tree stands makes no difference. -/
theorem checkNode_eq_nil_iff_clean (node : RawNode) :
    ∀ basePath, checkNode node basePath = [] ↔ CleanScopes node := by
  induction node using RawNode.induction with
  | step node ih =>
    intro basePath
    rw [CleanScopes, checkNode_eq_nil, checkNode_eq_nil]
    refine and_congr_right fun _ => forall₂_congr fun child hchild => ?_
    rw [ih child hchild, ih child hchild]

theorem cleanScopes_iff (node : RawNode) : CleanScopes node ↔ (siblingNames node.children).Nodup ∧
    ∀ child ∈ node.children, child.tagName ≠ "SHORT-NAME" → CleanScopes child := by
  rw [CleanScopes, checkNode_eq_nil, namedChildren_names]
  simp only [checkNode_eq_nil_iff_clean]

/-- Trees that stand side by side, each of them clean or a `SHORT-NAME`. -/
def CleanSiblings (nodes : List RawNode) : Prop :=
  ∀ node ∈ nodes, node.tagName ≠ "SHORT-NAME" → CleanScopes node

theorem cleanScopes_mk {tagName text : String} {attributes : List (String × String)}
    {span : RawSpan} {children : List RawNode} :
    CleanScopes ⟨tagName, attributes, text, span, children⟩ ↔
      (siblingNames children).Nodup ∧ CleanSiblings children :=
  cleanScopes_iff _

@[simp] theorem cleanScopes_leaf {tagName text : String} {attributes : List (String × String)} :
    CleanScopes (leaf tagName text attributes) :=
  cleanScopes_mk.mpr ⟨.nil, by simp [CleanSiblings]⟩

@[simp] theorem cleanSiblings_nil : CleanSiblings [] := by simp [CleanSiblings]

@[simp] theorem cleanSiblings_cons {node : RawNode} {nodes : List RawNode} :
    CleanSiblings (node :: nodes) ↔
      (node.tagName ≠ "SHORT-NAME" → CleanScopes node) ∧ CleanSiblings nodes :=
  List.forall_mem_cons

@[simp] theorem cleanSiblings_append {front back : List RawNode} :
    CleanSiblings (front ++ back) ↔ CleanSiblings front ∧ CleanSiblings back :=
  List.forall_mem_append

theorem cleanSiblings_map {T : Type} {node : T → RawNode} {items : List T}
    (htag : ∀ x, (node x).tagName ≠ "SHORT-NAME") :
    CleanSiblings (items.map node) ↔ ∀ x ∈ items, CleanScopes (node x) := by
  simp only [CleanSiblings, List.forall_mem_map]
  exact forall₂_congr fun x _ => ⟨fun h => h (htag x), fun h _ => h⟩

@[simp] theorem siblingNames_nil : siblingNames [] = [] := rfl

@[simp] theorem siblingNames_append (front back : List RawNode) :
    siblingNames (front ++ back) = siblingNames front ++ siblingNames back :=
  List.filterMap_append

@[simp] theorem siblingNames_leaf (tagName text : String) (attributes : List (String × String))
    (rest : List RawNode) : siblingNames (leaf tagName text attributes :: rest) =
      siblingNames rest := by
  rw [siblingNames, List.filterMap_cons_none]
  · rfl
  · split <;> rfl

/-- A sibling without a short name has no name. -/
theorem siblingNames_unnamed {node : RawNode} {rest : List RawNode}
    (h : findChild node "SHORT-NAME" = none) :
    siblingNames (node :: rest) = siblingNames rest := by
  rw [siblingNames, List.filterMap_cons_none]
  · rfl
  · simp [scopeName, findShortNameChild, h]

/-- The names of named elements. -/
theorem siblingNames_map {T : Type} (name : T → String) {node : T → RawNode} {items : List T}
    (htag : ∀ x, (node x).tagName ≠ "SHORT-NAME")
    (hname : ∀ x ∈ items, scopeName (node x) = some (name x)) :
    siblingNames (items.map node) = items.map name := by
  rw [siblingNames, List.filterMap_map, ← List.filterMap_eq_map]
  apply List.filterMap_congr
  intro x hx
  simp [htag x, hname x hx]

theorem cleanSiblings_wrapper {empty : Bool} {tagName : String} {children : List XmlNode}
    (htag : tagName ≠ "SHORT-NAME")
    (hempty : empty = true → (siblingNames (children.map XmlNode.raw)).Nodup ∧
      CleanSiblings (children.map XmlNode.raw)) :
    CleanSiblings ((wrapperUnless empty tagName children).map XmlNode.raw) ↔
      (siblingNames (children.map XmlNode.raw)).Nodup ∧ CleanSiblings (children.map XmlNode.raw) := by
  cases empty with
  | true => simpa [wrapperUnless] using hempty rfl
  | false => simp [wrapperUnless, XmlNode.raw_eq, htag, cleanScopes_mk]

theorem siblingNames_unnamedElement {node : XmlNode} {rest : List RawNode}
    (h : ∀ child ∈ node.children, child.name ≠ "SHORT-NAME") :
    siblingNames (node.raw :: rest) = siblingNames rest := by
  refine siblingNames_unnamed (List.find?_eq_none.mpr fun raw hraw => ?_)
  rw [XmlNode.raw_eq] at hraw
  obtain ⟨child, hchild, rfl⟩ := List.mem_map.mp hraw
  simpa [XmlNode.raw_eq] using h child hchild

/-- A wrapper has no name when none of its children is a short name. -/
theorem siblingNames_wrapper {empty : Bool} {tagName : String} {children : List XmlNode}
    (h : ∀ child ∈ children, child.name ≠ "SHORT-NAME") :
    siblingNames ((wrapperUnless empty tagName children).map XmlNode.raw) = [] := by
  cases empty with
  | true => rfl
  | false => exact siblingNames_unnamedElement h

/-- Leaves of an optional text. -/
@[simp] theorem clean_optionalLeaf {T : Type} (value : Option T) (tagName : String)
    (text : T → String) (rest : List RawNode) :
    siblingNames ((value.map fun x => leaf tagName (text x) []).toList ++ rest) =
        siblingNames rest ∧
      (CleanSiblings ((value.map fun x => leaf tagName (text x) []).toList ++ rest) ↔
        CleanSiblings rest) := by
  cases value <;> simp

@[simp] theorem scopeName_bare (node : RawNode) : scopeName node.bare = scopeName node := by
  rw [scopeName, scopeName, findShortNameChild, findShortNameChild, findChild_bare]
  cases findChild node "SHORT-NAME" <;> simp

theorem cleanScopes_bare (node : RawNode) : CleanScopes node.bare ↔ CleanScopes node := by
  induction node using RawNode.induction with
  | step node ih =>
    have hnames : siblingNames (node.children.map RawNode.bare) = siblingNames node.children := by
      simp only [siblingNames, List.filterMap_map, Function.comp_def, RawNode.bare_tagName,
        scopeName_bare]
    rw [cleanScopes_iff, cleanScopes_iff node, RawNode.bare_children, hnames, List.forall_mem_map]
    refine and_congr_right fun _ => forall₂_congr fun child hchild => ?_
    rw [ih child hchild, RawNode.bare_tagName]

/-! ## Names of mappings -/

/-- The references of an owner's mappings give distinct names: no reference is
repeated, and none looks like the name of a mapping without a reference. -/
structure DistinctMappings (refs : List String) : Prop where
  named : (refs.filter (· ≠ "")).Nodup
  unnamed : ∀ k < refs.count "", "mapping_" ++ toString k ∉ refs

instance (refs : List String) : Decidable (DistinctMappings refs) :=
  decidable_of_iff ((refs.filter (· ≠ "")).Nodup ∧
    ∀ k < refs.count "", "mapping_" ++ toString k ∉ refs) ⟨fun h => ⟨h.1, h.2⟩, fun h => ⟨h.1, h.2⟩⟩

theorem distinctMappings_perm {refs refs' : List String} (h : refs.Perm refs') :
    DistinctMappings refs ↔ DistinctMappings refs' := by
  constructor
  · rintro ⟨hnamed, hunnamed⟩
    exact ⟨(h.filter _).nodup_iff.mp hnamed, fun k hk hmem =>
      hunnamed k (h.count_eq "" ▸ hk) (h.mem_iff.mpr hmem)⟩
  · rintro ⟨hnamed, hunnamed⟩
    exact ⟨(h.filter _).nodup_iff.mpr hnamed, fun k hk hmem =>
      hunnamed k (h.count_eq "" ▸ hk) (h.mem_iff.mp hmem)⟩

theorem eq_empty_of_le {text : String} (h : text ≤ "") : text = "" := by
  by_contra hne
  refine absurd h (not_le.mpr (String.lt_iff_toList_lt.mpr ?_))
  cases htext : text.toList with
  | nil => exact absurd (String.toList_inj.mp htext) hne
  | cons c cs => exact List.nil_lt_cons c cs

/-- Sorted references start with the empty ones. -/
theorem sorted_split {refs : List String} (h : refs.Pairwise (· ≤ ·)) :
    refs = List.replicate (refs.count "") "" ++ refs.filter (· ≠ "") := by
  induction refs with
  | nil => rfl
  | cons ref rest ih =>
    obtain ⟨hle, hrest⟩ := List.pairwise_cons.mp h
    by_cases href : ref = ""
    · subst href
      rw [List.count_cons_self, List.replicate_succ, List.filter_cons_of_neg (by simp),
        List.cons_append, ← ih hrest]
    · have hall : ∀ other ∈ ref :: rest, other ≠ "" := by
        refine List.forall_mem_cons.mpr ⟨href, fun other hother he => ?_⟩
        exact href (eq_empty_of_le (he ▸ hle other hother))
      rw [List.count_eq_zero.mpr fun hmem => hall "" hmem rfl,
        List.filter_eq_self.mpr fun other hother => by simpa using hall other hother]
      rfl

theorem mappingNames_named (owner : String) {refs : List String} (h : ∀ ref ∈ refs, ref ≠ "") :
    ∀ start, (refs.zipIdx start).map (fun item => mappingShortName owner item.1 item.2) =
      refs.map fun ref => owner ++ "_" ++ ref := by
  induction refs with
  | nil => intro start; rfl
  | cons ref rest ih =>
    obtain ⟨href, hrest⟩ := List.forall_mem_cons.mp h
    intro start
    rw [List.zipIdx_cons, List.map_cons, ih hrest, mappingShortName, if_neg href, List.map_cons]

theorem mappingNames_unnamed (owner : String) (count : Nat) :
    ((List.replicate count "").zipIdx).map (fun item => mappingShortName owner item.1 item.2) =
      (List.range count).map fun k => owner ++ "_mapping_" ++ toString k := by
  conv_rhs => rw [List.range_eq_range', ← List.length_replicate (n := count) (a := ""),
    ← List.zipIdx_map_snd 0, List.map_map]
  refine List.map_congr_left fun item hitem => ?_
  have hempty : item.1 ∈ (List.replicate count "").zipIdx.map Prod.fst := List.mem_map_of_mem hitem
  rw [List.zipIdx_map_fst] at hempty
  exact if_pos (List.eq_of_mem_replicate hempty)

/-- The names of sorted mappings, those without a reference first. -/
theorem mappingNames_eq (owner : String) {refs : List String} (h : refs.Pairwise (· ≤ ·)) :
    refs.zipIdx.map (fun item => mappingShortName owner item.1 item.2) =
      (List.range (refs.count "")).map (fun k => owner ++ "_mapping_" ++ toString k) ++
        (refs.filter (· ≠ "")).map fun ref => owner ++ "_" ++ ref := by
  conv_lhs => rw [sorted_split h]
  rw [List.zipIdx_append, List.map_append, mappingNames_unnamed, mappingNames_named owner]
  intro ref href
  simpa using (List.mem_filter.mp href).2

/-- Sorted mappings have distinct names exactly when their references give
distinct names. -/
theorem nodup_mappingNames_iff (owner : String) {refs : List String}
    (h : refs.Pairwise (· ≤ ·)) :
    (refs.zipIdx.map fun item => mappingShortName owner item.1 item.2).Nodup ↔
      DistinctMappings refs := by
  have hmapping (k : Nat) : owner ++ "_mapping_" ++ toString k =
      owner ++ "_" ++ ("mapping_" ++ toString k) := by
    simp only [String.append_assoc]
    rfl
  have hunnamed : ((List.range (refs.count "")).map fun k =>
      owner ++ "_mapping_" ++ toString k).Nodup :=
    List.nodup_range.map fun a b hab => toString_nat_inj ((String.append_right_inj _).mp hab)
  have hnamed : ((refs.filter (· ≠ "")).map fun ref => owner ++ "_" ++ ref).Nodup ↔
      (refs.filter (· ≠ "")).Nodup :=
    List.nodup_map_iff fun a b hab => (String.append_right_inj _).mp hab
  rw [mappingNames_eq owner h, List.nodup_append, hnamed]
  constructor
  · rintro ⟨-, hdistinct, hapart⟩
    refine ⟨hdistinct, fun k hk hmem => ?_⟩
    refine hapart _ (List.mem_map_of_mem (List.mem_range.mpr hk)) _
      (List.mem_map_of_mem (List.mem_filter.mpr ⟨hmem, ?_⟩)) (hmapping k)
    refine decide_eq_true fun hempty => ?_
    have := congrArg String.toList hempty
    simp at this
  · rintro ⟨hdistinct, hapart⟩
    refine ⟨hunnamed, hdistinct, fun name hname other hother heq => ?_⟩
    obtain ⟨k, hk, rfl⟩ := List.mem_map.mp hname
    obtain ⟨ref, href, rfl⟩ := List.mem_map.mp hother
    rw [hmapping, String.append_right_inj] at heq
    exact hapart k (List.mem_range.mp hk) (heq ▸ (List.mem_filter.mp href).1)

/-- The mappings of an owner, sorted by reference, have distinct names exactly
when their references give distinct names. -/
theorem nodup_sortedMappings_iff {M : Type} (owner : String) (key : M → String)
    (mappings : List M) : ((stableSort key mappings).zipIdx.map fun item =>
      mappingShortName owner (key item.1) item.2).Nodup ↔ DistinctMappings (mappings.map key) := by
  have hkeys : ((stableSort key mappings).zipIdx.map fun item =>
      mappingShortName owner (key item.1) item.2) =
      ((stableSort key mappings).map key).zipIdx.map fun item =>
        mappingShortName owner item.1 item.2 := by
    rw [List.zipIdx_map, List.map_map]
    rfl
  rw [hkeys, nodup_mappingNames_iff owner (List.pairwise_map.mpr (pairwise_stableSort key mappings))]
  exact distinctMappings_perm ((stableSort_perm key mappings).map key)

/-! ## Elements -/

section
variable [LibXml] [LawfulLibXml]

/-- A node that starts with its short name. -/
theorem scopeName_named {tagName text name : String} {attributes : List (String × String)}
    {span : RawSpan} {rest : List RawNode} (h : PlainText name) (hne : name ≠ "") :
    scopeName ⟨tagName, attributes, text, span,
      leaf "SHORT-NAME" (LibXml.setContent name) [] :: rest⟩ = some name := by
  simp [scopeName, findShortNameChild, findChild, setContent_plainText h, hne]

omit [LawfulLibXml] in
theorem cleanScopes_named (tagName name : String) : CleanScopes (namedElement tagName name).raw := by
  rw [raw_namedElement]
  exact cleanScopes_mk.mpr ⟨by simp, by simp⟩

/-- Named elements of one tag, under their names. -/
theorem clean_namedElements (tagName : String) {names : List String}
    (htag : tagName ≠ "SHORT-NAME") (h : ∀ name ∈ names, PlainText name ∧ name ≠ "") :
    siblingNames ((names.map (namedElement tagName)).map XmlNode.raw) = names ∧
      CleanSiblings ((names.map (namedElement tagName)).map XmlNode.raw) := by
  have htags (name : String) : (namedElement tagName name).raw.tagName ≠ "SHORT-NAME" := by
    rw [raw_namedElement]
    exact htag
  rw [List.map_map]
  refine ⟨?_, (cleanSiblings_map htags).mpr fun name _ => cleanScopes_named tagName name⟩
  refine (siblingNames_map id htags fun name hname => ?_).trans (List.map_id _)
  rw [raw_namedElement]
  exact scopeName_named (h name hname).1 (h name hname).2

/-- The wrapper around named elements. -/
theorem clean_namedWrapper (wrapper tagName : String) {empty : Bool} {names items : List String}
    (hwrapper : wrapper ≠ "SHORT-NAME") (htag : tagName ≠ "SHORT-NAME")
    (hempty : empty = items.isEmpty) (hnames : names.Perm items)
    (h : ∀ name ∈ items, PlainText name ∧ name ≠ "") :
    siblingNames ((wrapperUnless empty wrapper (names.map (namedElement tagName))).map
        XmlNode.raw) = [] ∧
      (CleanSiblings ((wrapperUnless empty wrapper (names.map (namedElement tagName))).map
        XmlNode.raw) ↔ items.Nodup) := by
  obtain ⟨hsiblings, hclean⟩ := clean_namedElements tagName htag fun name hname =>
    h name (hnames.mem_iff.mp hname)
  constructor
  · refine siblingNames_wrapper fun child hchild => ?_
    obtain ⟨name, -, rfl⟩ := List.mem_map.mp hchild
    exact htag
  · rw [cleanSiblings_wrapper hwrapper, hsiblings, hnames.nodup_iff]
    · exact and_iff_left hclean
    · intro he
      rw [hempty, List.isEmpty_iff] at he
      subst he
      rw [hnames.eq_nil]
      exact ⟨.nil, cleanSiblings_nil⟩

theorem Cluster.Plain.cleanScopes_iff {value : Cluster} (h : value.Plain) :
    CleanScopes (buildClusterElement value).raw ↔ value.physicalChannels.Nodup := by
  obtain ⟨hunnamed, hchannels⟩ := clean_namedWrapper "PHYSICAL-CHANNELS" "CAN-PHYSICAL-CHANNEL"
    (by decide) (by decide) rfl (stableSort_perm id value.physicalChannels) h.physicalChannels
  have hconditional : CleanScopes (clusterConditional value).raw ↔
      value.physicalChannels.Nodup := by
    rw [XmlNode.raw_eq, cleanScopes_mk, clusterConditional, List.map_append,
      map_raw_optionalTextChild, (clean_optionalLeaf _ _ _ _).1, (clean_optionalLeaf _ _ _ _).2]
    exact ⟨fun hc => hchannels.mp hc.2, fun hn => ⟨hunnamed ▸ .nil, hchannels.mpr hn⟩⟩
  have hname : siblingNames [(clusterConditional value).raw] = [] := by
    refine siblingNames_unnamed ?_
    rw [XmlNode.raw_eq, clusterConditional, findChild, List.map_append, map_raw_optionalTextChild,
      List.find?_append, find_wrapper (by decide)]
    cases value.baudrate <;> rfl
  have hvariants : CleanSiblings [(clusterConditional value).raw] ↔
      value.physicalChannels.Nodup := by
    have htag : (clusterConditional value).raw.tagName ≠ "SHORT-NAME" := by
      rw [XmlNode.raw_eq]
      exact (by decide : "CAN-CLUSTER-CONDITIONAL" ≠ "SHORT-NAME")
    rw [cleanSiblings_cons, hconditional]
    exact ⟨fun hc => hc.1 htag, fun hn => ⟨fun _ => hn, cleanSiblings_nil⟩⟩
  have hwrapper : siblingNames ((wrapperUnless (value.baudrate.isNone &&
      value.physicalChannels.isEmpty) "CAN-CLUSTER-VARIANTS" [clusterConditional value]).map
        XmlNode.raw) = [] :=
    siblingNames_wrapper (by simp [clusterConditional])
  rw [raw_buildClusterElement, cleanScopes_mk, siblingNames_leaf, cleanSiblings_cons,
    (clean_optionalLeaf _ _ _ _).1, (clean_optionalLeaf _ _ _ _).2, hwrapper,
    cleanSiblings_wrapper (by decide), List.map_singleton, hname, hvariants]
  · simp
  · intro hempty
    have hchannels : value.physicalChannels = [] := by
      simpa using (Bool.and_eq_true_iff.mp hempty).2
    rw [List.map_singleton, hname, hvariants, hchannels]
    exact ⟨.nil, .nil⟩

theorem EcuInstance.Plain.cleanScopes_iff {value : EcuInstance} (h : value.Plain) :
    CleanScopes (buildEcuInstanceElement value).raw ↔ value.controllers.Nodup := by
  obtain ⟨hunnamed, hcontrollers⟩ := clean_namedWrapper "COMM-CONTROLLERS"
    "CAN-COMMUNICATION-CONTROLLER" (by decide) (by decide) rfl
    (stableSort_perm id value.controllers) h.controllers
  rw [raw_buildEcuInstanceElement, cleanScopes_mk, siblingNames_leaf, cleanSiblings_cons,
    (clean_optionalLeaf _ _ _ _).1, (clean_optionalLeaf _ _ _ _).2]
  exact ⟨fun hc => hcontrollers.mp hc.2.2,
    fun hn => ⟨hunnamed ▸ .nil, fun _ => cleanScopes_leaf, hcontrollers.mpr hn⟩⟩

omit [LibXml] [LawfulLibXml] in
/-- A sized node is clean when its items have distinct names and are clean. -/
theorem cleanScopes_sized {M : Type} {tagName shortName lengthTag length wrapper : String}
    {items : List M} {element : M → XmlNode} (name : M → String)
    (hwrapper : wrapper ≠ "SHORT-NAME") (htag : ∀ x, (element x).name ≠ "SHORT-NAME")
    (hname : ∀ x ∈ items, scopeName (element x).raw = some (name x))
    (hclean : ∀ x ∈ items, CleanScopes (element x).raw) :
    CleanScopes (sizedNode tagName shortName lengthTag length wrapper items element) ↔
      (items.map name).Nodup := by
  have htags (x : M) : (element x).raw.tagName ≠ "SHORT-NAME" := by
    rw [XmlNode.raw_eq]
    exact htag x
  have hnames : siblingNames ((items.map element).map XmlNode.raw) = items.map name := by
    rw [List.map_map]
    exact siblingNames_map name htags hname
  have hitems : CleanSiblings ((items.map element).map XmlNode.raw) := by
    rw [List.map_map]
    exact (cleanSiblings_map htags).mpr hclean
  have hunnamed : siblingNames ((wrapperUnless items.isEmpty wrapper (items.map element)).map
      XmlNode.raw) = [] := by
    refine siblingNames_wrapper fun child hchild => ?_
    obtain ⟨x, -, rfl⟩ := List.mem_map.mp hchild
    exact htag x
  rw [sizedNode, cleanScopes_mk, siblingNames_leaf, siblingNames_leaf, hunnamed,
    cleanSiblings_cons, cleanSiblings_cons, cleanSiblings_wrapper hwrapper, hnames]
  · exact ⟨fun hc => hc.2.2.2.1,
      fun hn => ⟨.nil, fun _ => cleanScopes_leaf, fun _ => cleanScopes_leaf, hn, hitems⟩⟩
  · intro hempty
    rw [hnames, List.isEmpty_iff.mp hempty]
    exact ⟨.nil, by simp⟩

omit [LibXml] [LawfulLibXml] in
theorem isTrimmed_append {front back : String} (hfront : IsTrimmed front) (hne : front ≠ "")
    (hback : back ≠ "") (hlast : ∀ c ∈ back.toList.getLast?, isBlank c = false) :
    IsTrimmed (front ++ back) := by
  apply String.toList_inj.mp
  have hne' : front.toList ≠ [] := fun h => hne (String.toList_inj.mp h)
  have hback' : back.toList ≠ [] := fun h => hback (String.toList_inj.mp h)
  have htrimmed := trimmed_trimChars front.toList
  rw [← toList_trimText, hfront] at htrimmed
  rw [toList_trimText, String.toList_append]
  refine trimChars_eq_self ⟨fun c hc => htrimmed.1 c ?_, fun c hc => hlast c ?_⟩
  · rwa [List.head?_append_of_ne_nil _ hne'] at hc
  · rwa [List.getLast?_append_of_ne_nil _ hback'] at hc

omit [LibXml] [LawfulLibXml] in
/-- The name of a mapping is written as it is. -/
theorem plainText_mappingShortName {owner ref : String} {idx : Nat} (h : PlainText owner)
    (hne : owner ≠ "") (href : PlainRef ref) :
    PlainText (mappingShortName owner ref idx) ∧ mappingShortName owner ref idx ≠ "" := by
  have hvisible := (h.visible hne).mappingShortName href.2 idx
  have htrimmed : IsTrimmed (mappingShortName owner ref idx) := by
    have hlast {front back : String} (hback : back ≠ "")
        (h : ∀ c ∈ back.toList.getLast?, isBlank c = false) :
        front ++ back ≠ "" ∧ ∀ c ∈ (front ++ back).toList.getLast?, isBlank c = false := by
      have hback' : back.toList ≠ [] := fun he => hback (String.toList_inj.mp he)
      rw [String.toList_append, List.getLast?_append_of_ne_nil _ hback']
      exact ⟨fun he => hback' (List.append_eq_nil_iff.mp
        (String.toList_append ▸ congrArg String.toList he)).2, h⟩
    unfold mappingShortName
    split
    · rw [String.append_assoc]
      obtain ⟨h1, h2⟩ := @hlast "_mapping_" (toString idx) (toString_nat_ne_empty idx) (by
        have := trimmed_trimChars (toString idx).toList
        rw [← toList_trimText, trimText_toString_nat] at this
        exact this.2)
      exact isTrimmed_append h.1 hne h1 h2
    · rename_i hne'
      rw [String.append_assoc]
      obtain ⟨h1, h2⟩ := @hlast "_" ref hne' href.1.2
      exact isTrimmed_append h.1 hne h1 h2
  refine ⟨⟨htrimmed, hvisible.1⟩, fun he => ?_⟩
  obtain ⟨-, c, hc, -⟩ := hvisible
  rw [he] at hc
  cases hc

theorem scopeName_mappingElement {tagName refTag dest owner ref : String}
    {startPosition : UInt32} {idx : Nat} (h : PlainText owner) (hne : owner ≠ "")
    (href : PlainRef ref) :
    scopeName (mappingElement tagName refTag dest owner ref startPosition idx).raw =
      some (mappingShortName owner ref idx) := by
  obtain ⟨hplain, hname⟩ := @plainText_mappingShortName _ _ idx h hne href
  rw [raw_mappingElement]
  exact scopeName_named hplain hname

theorem cleanScopes_mappingElement {tagName refTag dest owner ref : String}
    {startPosition : UInt32} {idx : Nat} :
    CleanScopes (mappingElement tagName refTag dest owner ref startPosition idx).raw := by
  rw [raw_mappingElement, cleanScopes_mk]
  split <;> simp

omit [LibXml] [LawfulLibXml] in
theorem mem_of_mem_zipIdx_stableSort {M : Type} {key : M → String} {mappings : List M}
    {item : M × Nat} (h : item ∈ (stableSort key mappings).zipIdx) : item.1 ∈ mappings := by
  have hmem : item.1 ∈ (stableSort key mappings).zipIdx.map Prod.fst := List.mem_map_of_mem h
  rw [List.zipIdx_map_fst] at hmem
  exact mem_stableSort.mp hmem

theorem Frame.Plain.cleanScopes_iff {value : Frame} (h : value.Plain)
    (hne : value.common.shortName ≠ "") : CleanScopes (buildFrameElement value).raw ↔
      DistinctMappings (value.pdus.map FramePduMapping.pduShortNameRef) := by
  rw [raw_buildFrameElement]
  refine Iff.trans (cleanScopes_sized (fun item => mappingShortName value.common.shortName
    item.1.pduShortNameRef item.2) (by decide) (fun _ => ?_) (fun item hitem => ?_)
    fun _ _ => cleanScopes_mappingElement) (nodup_sortedMappings_iff _ _ _)
  · exact (by decide : "PDU-TO-FRAME-MAPPING" ≠ "SHORT-NAME")
  · exact scopeName_mappingElement h.shortName hne (h.pdus _ (mem_of_mem_zipIdx_stableSort hitem))

theorem Pdu.Plain.cleanScopes_iff {value : Pdu} (h : value.Plain)
    (hne : value.common.shortName ≠ "") : CleanScopes (buildPduElement value).raw ↔
      DistinctMappings (value.signalMappings.map PduSignalMapping.signalShortNameRef) := by
  rw [raw_buildPduElement]
  refine Iff.trans (cleanScopes_sized (fun item => mappingShortName value.common.shortName
    item.1.signalShortNameRef item.2) (by decide) (fun _ => ?_) (fun item hitem => ?_)
    fun _ _ => cleanScopes_mappingElement) (nodup_sortedMappings_iff _ _ _)
  · exact (by decide : "I-SIGNAL-TO-I-PDU-MAPPING" ≠ "SHORT-NAME")
  · exact scopeName_mappingElement h.shortName hne
      (h.signalMappings _ (mem_of_mem_zipIdx_stableSort hitem))

theorem cleanScopes_signal {D : Type} [Double D] [LawfulDouble D] (value : Signal D) :
    CleanScopes (buildSignalElement value).raw := by
  have hinit (d : D) (rest : List RawNode) :
      siblingNames (initValueNode d :: rest) = siblingNames rest ∧
        CleanScopes (initValueNode d) := by
    refine ⟨siblingNames_unnamed rfl, ?_⟩
    simp [initValueNode, cleanScopes_mk, siblingNames_unnamed, findChild]
  have hbase : siblingNames [signedBaseTypeNode] = [] ∧ CleanScopes signedBaseTypeNode := by
    refine ⟨siblingNames_unnamed rfl, ?_⟩
    simp [signedBaseTypeNode, cleanScopes_mk, siblingNames_unnamed, findChild]
  rw [raw_buildSignalElement, cleanScopes_mk]
  cases value.initValue <;> cases value.isSigned <;> simp [hinit, hbase, (hinit _ []).2]

omit [LawfulLibXml] in
theorem cleanScopes_signalGroup (value : SignalGroup) :
    CleanScopes (buildSignalGroupElement value).raw := by
  have hleaves (names : List String) : siblingNames ((names.map fun member =>
      refChild "I-SIGNAL-REF" "I-SIGNAL" ("/Sys/" ++ member)).map XmlNode.raw) = [] ∧
      CleanSiblings ((names.map fun member =>
        refChild "I-SIGNAL-REF" "I-SIGNAL" ("/Sys/" ++ member)).map XmlNode.raw) := by
    induction names with
    | nil => exact ⟨rfl, cleanSiblings_nil⟩
    | cons name names ih =>
      simp only [List.map_cons, raw_refChild, siblingNames_leaf, cleanSiblings_cons]
      exact ⟨ih.1, fun _ => cleanScopes_leaf, ih.2⟩
  rw [raw_buildSignalGroupElement, cleanScopes_mk, siblingNames_leaf, cleanSiblings_cons,
    siblingNames_wrapper, cleanSiblings_wrapper (by decide), (hleaves _).1]
  · exact ⟨.nil, fun _ => cleanScopes_leaf, .nil, (hleaves _).2⟩
  · exact fun _ => ⟨by rw [(hleaves _).1]; exact .nil, (hleaves _).2⟩
  · intro child hchild
    obtain ⟨member, -, rfl⟩ := List.mem_map.mp hchild
    exact (by decide : "I-SIGNAL-REF" ≠ "SHORT-NAME")

/-! ## The document -/

section
variable {T : Type} [DomainElement T] {element : T → XmlNode} {items : List T} {P : T → Prop}

omit [LibXml] [LawfulLibXml] in
/-- The elements of one type side by side. -/
theorem clean_group (htag : ∀ x, (element x).name ≠ "SHORT-NAME")
    (hname : ∀ x ∈ items, scopeName (element x).raw = some (shortName x))
    (hclean : ∀ x ∈ items, (CleanScopes (element x).raw ↔ P x)) :
    siblingNames (((sortedCopy items).map element).map XmlNode.raw) =
        (sortedCopy items).map shortName ∧
      (CleanSiblings (((sortedCopy items).map element).map XmlNode.raw) ↔ ∀ x ∈ items, P x) := by
  have htags (x : T) : (element x).raw.tagName ≠ "SHORT-NAME" := by
    rw [XmlNode.raw_eq]
    exact htag x
  rw [List.map_map]
  refine ⟨siblingNames_map shortName htags fun x hx => hname x (mem_stableSort.mp hx), ?_⟩
  refine (cleanSiblings_map htags).trans ⟨fun h x hx => ?_, fun h x hx => ?_⟩
  · exact (hclean x hx).mp (h x (mem_stableSort.mpr hx))
  · exact (hclean x (mem_stableSort.mp hx)).mpr (h x (mem_stableSort.mp hx))

end

end

section
variable {D : Type} [Double D]

/-- The short names of all elements, whatever their type and file. -/
def elementNames (project : ParsedProject D) : List String :=
  (collectAll project ParsedFile.clusters).map shortName ++
  (collectAll project ParsedFile.ecuInstances).map shortName ++
  (collectAll project ParsedFile.frames).map shortName ++
  (collectAll project ParsedFile.pdus).map shortName ++
  (collectAll project ParsedFile.signals).map shortName ++
  (collectAll project ParsedFile.signalGroups).map shortName

/-- No two elements share a name, no two channels of a cluster and no two
controllers of an ECU, and the mappings of every owner get distinct names. -/
structure DistinctNames (project : ParsedProject D) : Prop where
  elements : (elementNames project).Nodup
  channels : ∀ x ∈ collectAll project ParsedFile.clusters, x.physicalChannels.Nodup
  controllers : ∀ x ∈ collectAll project ParsedFile.ecuInstances, x.controllers.Nodup
  frames : ∀ x ∈ collectAll project ParsedFile.frames,
    DistinctMappings (x.pdus.map FramePduMapping.pduShortNameRef)
  pdus : ∀ x ∈ collectAll project ParsedFile.pdus,
    DistinctMappings (x.signalMappings.map PduSignalMapping.signalShortNameRef)

variable [LibXml] [LawfulLibXml] [LawfulDouble D] {project : ParsedProject D}

/-- The elements of the document. -/
theorem clean_writeElements (hplain : PlainProject project)
    (hnamed : EveryCommon (fun common => common.shortName ≠ "") project) :
    (siblingNames ((writeElements project).map XmlNode.raw)).Perm (elementNames project) ∧
      (CleanSiblings ((writeElements project).map XmlNode.raw) ↔
        (∀ x ∈ collectAll project ParsedFile.clusters, x.physicalChannels.Nodup) ∧
        (∀ x ∈ collectAll project ParsedFile.ecuInstances, x.controllers.Nodup) ∧
        (∀ x ∈ collectAll project ParsedFile.frames,
          DistinctMappings (x.pdus.map FramePduMapping.pduShortNameRef)) ∧
        ∀ x ∈ collectAll project ParsedFile.pdus,
          DistinctMappings (x.signalMappings.map PduSignalMapping.signalShortNameRef)) := by
  obtain ⟨n1, c1⟩ := clean_group (fun _ => (by decide : "CAN-CLUSTER" ≠ "SHORT-NAME"))
    (fun x hx => by
      rw [raw_buildClusterElement]
      exact scopeName_named (hplain.clusters x hx).shortName (hnamed.clusters x hx))
    fun x hx => (hplain.clusters x hx).cleanScopes_iff
  obtain ⟨n2, c2⟩ := clean_group (fun _ => (by decide : "ECU-INSTANCE" ≠ "SHORT-NAME"))
    (fun x hx => by
      rw [raw_buildEcuInstanceElement]
      exact scopeName_named (hplain.ecuInstances x hx).shortName (hnamed.ecuInstances x hx))
    fun x hx => (hplain.ecuInstances x hx).cleanScopes_iff
  obtain ⟨n3, c3⟩ := clean_group (fun _ => (by decide : "CAN-FRAME" ≠ "SHORT-NAME"))
    (fun x hx => by
      rw [raw_buildFrameElement]
      exact scopeName_named (hplain.frames x hx).shortName (hnamed.frames x hx))
    fun x hx => (hplain.frames x hx).cleanScopes_iff (hnamed.frames x hx)
  obtain ⟨n4, c4⟩ := clean_group (fun _ => (by decide : "I-SIGNAL-I-PDU" ≠ "SHORT-NAME"))
    (fun x hx => by
      rw [raw_buildPduElement]
      exact scopeName_named (hplain.pdus x hx).shortName (hnamed.pdus x hx))
    fun x hx => (hplain.pdus x hx).cleanScopes_iff (hnamed.pdus x hx)
  obtain ⟨n5, c5⟩ := clean_group (fun _ => (by decide : "I-SIGNAL" ≠ "SHORT-NAME"))
    (fun x hx => by
      rw [raw_buildSignalElement]
      exact scopeName_named (hplain.signals x hx).shortName (hnamed.signals x hx))
    fun (x : Signal D) _ => iff_true_intro (cleanScopes_signal x)
  obtain ⟨n6, c6⟩ := clean_group (fun _ => (by decide : "I-SIGNAL-GROUP" ≠ "SHORT-NAME"))
    (fun x hx => by
      rw [raw_buildSignalGroupElement]
      exact scopeName_named (hplain.signalGroups x hx).shortName (hnamed.signalGroups x hx))
    fun x _ => iff_true_intro (cleanScopes_signalGroup x)
  have hperm {T : Type} [DomainElement T] (items : List T) :
      ((sortedCopy items).map shortName).Perm (items.map shortName) :=
    (stableSort_perm shortName items).map _
  constructor
  · simp only [writeElements, List.map_append, siblingNames_append, n1, n2, n3, n4, n5, n6]
    exact (((((hperm _).append (hperm _)).append (hperm _)).append (hperm _)).append
      (hperm _)).append (hperm _)
  · simp only [writeElements, List.map_append, cleanSiblings_append, c1, c2, c3, c4, c5, c6]
    simp only [and_assoc, implies_true, and_true]

omit [LawfulLibXml] [LawfulDouble D] in
/-- The spine of the document. -/
theorem raw_buildDocument : ∃ attributes, (buildDocument project).root.raw =
    ⟨"AUTOSAR", attributes, "", {}, [⟨"AR-PACKAGES", [], "", {}, [⟨"AR-PACKAGE", [], "", {},
      [leaf "SHORT-NAME" (LibXml.setContent "Sys") [],
        ⟨"ELEMENTS", [], "", {}, (writeElements project).map XmlNode.raw⟩]⟩]⟩]⟩ := by
  refine ⟨[("xsi:schemaLocation", namespaceUriForRelease (writeRelease project) ++ " " ++
    schemaFilenameForRelease (writeRelease project))], ?_⟩
  simp only [buildDocument, forRelease, XmlNode.raw, rawOf_eq, List.map_cons, List.map_nil,
    raw_textChild]
  rfl

omit [LawfulLibXml] [LawfulDouble D] in
theorem tagName_writeElements : ∀ child ∈ (writeElements project).map XmlNode.raw,
    child.tagName ≠ "SHORT-NAME" := by
  intro child hchild
  obtain ⟨node, hnode, rfl⟩ := List.mem_map.mp hchild
  have htag : node.name ∈ ["CAN-CLUSTER", "ECU-INSTANCE", "CAN-FRAME", "I-SIGNAL-I-PDU",
      "I-SIGNAL", "I-SIGNAL-GROUP"] := by
    simp only [writeElements, List.mem_append, List.mem_map] at hnode
    rcases hnode with ((((⟨_, _, rfl⟩ | ⟨_, _, rfl⟩) | ⟨_, _, rfl⟩) | ⟨_, _, rfl⟩) | ⟨_, _, rfl⟩) |
      ⟨_, _, rfl⟩ <;> simp [buildClusterElement, buildEcuInstanceElement, buildFrameElement,
        buildPduElement, buildSignalElement, buildSignalGroupElement]
  rw [XmlNode.raw_eq]
  exact ne_of_mem_of_not_mem htag (by decide)

omit [LibXml] [LawfulLibXml] in
/-- One unnamed node alone in its scope. -/
theorem cleanScopes_single {tagName text : String} {attributes : List (String × String)}
    {span : RawSpan} {child : RawNode} (htag : child.tagName ≠ "SHORT-NAME") :
    CleanScopes ⟨tagName, attributes, text, span, [child]⟩ ↔ CleanScopes child := by
  have hle : (siblingNames [child]).length ≤ 1 := List.length_filterMap_le _ _
  rw [cleanScopes_mk, cleanSiblings_cons]
  refine ⟨fun h => h.2.1 htag, fun h => ⟨?_, fun _ => h, cleanSiblings_nil⟩⟩
  match hnames : siblingNames [child], hle with
  | [], _ => exact .nil
  | [name], _ => exact List.nodup_singleton name

/-- The written document has clean scopes exactly when the names are distinct. -/
theorem cleanScopes_buildDocument (hplain : PlainProject project)
    (hnamed : EveryCommon (fun common => common.shortName ≠ "") project) :
    CleanScopes (buildDocument project).root.raw ↔ DistinctNames project := by
  obtain ⟨hnames, hclean⟩ := clean_writeElements hplain hnamed
  obtain ⟨attributes, hroot⟩ := @raw_buildDocument D _ _ project
  have helements : siblingNames [⟨"ELEMENTS", [], "", {}, (writeElements project).map XmlNode.raw⟩] =
      [] := siblingNames_unnamed (List.find?_eq_none.mpr fun child hchild => by
        simpa using tagName_writeElements child hchild)
  have htag : "ELEMENTS" ≠ "SHORT-NAME" := by decide
  rw [hroot, cleanScopes_single (by decide : "AR-PACKAGES" ≠ "SHORT-NAME"),
    cleanScopes_single (by decide : "AR-PACKAGE" ≠ "SHORT-NAME"), cleanScopes_mk, siblingNames_leaf,
    helements, cleanSiblings_cons, cleanSiblings_cons, cleanScopes_mk, hnames.nodup_iff, hclean]
  constructor
  · rintro ⟨-, -, h, -⟩
    obtain ⟨h1, h2, h3, h4, h5⟩ := h htag
    exact ⟨h1, h2, h3, h4, h5⟩
  · rintro ⟨h1, h2, h3, h4, h5⟩
    exact ⟨.nil, fun _ => cleanScopes_leaf, fun _ => ⟨h1, h2, h3, h4, h5⟩, cleanSiblings_nil⟩

/-- The uniqueness check of the written document passes exactly when the names
of the project are distinct. -/
theorem written_names_iff (hparsed : ∀ file ∈ project.files, ParserOutput file)
    (hvalid : WriteEngine.validate project = ⟨[]⟩) (hwithout : Without '&' project)
    {document : XmlDocument} (hwrite : WriteEngine.write project = .ok document)
    {root : RawNode} (hroot : Reloads document root) {file : ParsedFile D}
    (hfile : file.rawDocument = some root) (refs : StdMap ResolvedReference) :
    validateUniqueness ⟨[file], refs⟩ = ⟨[]⟩ ↔ DistinctNames project := by
  have hdocument : document = buildDocument project := by
    unfold WriteEngine.write at hwrite
    split_ifs at hwrite
    exact (Except.ok.inj hwrite).symm
  have hcheck : validateUniqueness ⟨[file], refs⟩ = ⟨[]⟩ ↔ CleanScopes root := by
    simp [validateUniqueness, hfile, CleanScopes]
  subst hdocument
  rw [hcheck, ← cleanScopes_bare, hroot, cleanScopes_bare]
  exact cleanScopes_buildDocument (plainProject_of_parsed hparsed hwithout)
    (everyCommon_of_validate hvalid)

end

/-! ## An instance -/

/-- A document with two packages, each with one signal. -/
def documentOfSignals (first second : String) : RawNode :=
  { tagName := "AUTOSAR"
    attributes := [("xsi:schemaLocation", "http://autosar.org/schema/r4.0 AUTOSAR_00046.xsd")]
    children := [{ tagName := "AR-PACKAGES", children :=
      [("Body", first), ("Chassis", second)].map fun (package, signal) =>
        { tagName := "AR-PACKAGE", children := [leaf "SHORT-NAME" package [],
          { tagName := "ELEMENTS", children :=
            [{ tagName := "I-SIGNAL", children := [leaf "SHORT-NAME" signal []] }] }] } }] }

def projectOfSignals (first second : String) : ParsedProject WholeDouble :=
  { files := (parseDocument "<buffer>" (documentOfSignals first second)).toOption.toList }

theorem parsed_of_signals (first second : String) :
    ∀ file ∈ (projectOfSignals first second).files, ParserOutput file :=
  fun _ => @parserOutput_of_document _ _ "<buffer>" (documentOfSignals first second) _

/-- A project of one document alone, for the checks. -/
def projectOfDocument (document : XmlDocument) : ParsedProject WholeDouble :=
  { files := [{ rawDocument := some document.root.raw }] }

/-- The uniqueness check passes on the project and fails on its document. -/
structure LosesUniqueness [LibXml] (project : ParsedProject WholeDouble) : Prop where
  parsed : ∀ file ∈ project.files, ParserOutput file
  valid : WriteEngine.validate project = ⟨[]⟩
  unique : validateUniqueness project = ⟨[]⟩
  duplicate : ∃ document, WriteEngine.write project = .ok document ∧
    validateUniqueness (projectOfDocument document) ≠ ⟨[]⟩

/-- The text with the character reference of the letter `A` resolved. -/
def resolveLetter (text : List Char) : List Char :=
  match text with
  | '&' :: '#' :: '6' :: '5' :: ';' :: rest => 'A' :: resolveLetter rest
  | letter :: rest => letter :: resolveLetter rest
  | [] => []

/-- A libxml2 that resolves one character reference. -/
@[reducible] def resolvingLibXml : LibXml := ⟨fun text => String.ofList (resolveLetter text.toList)⟩

theorem lawful_resolvingLibXml : @LawfulLibXml resolvingLibXml := by
  have hkeep (text : List Char) (h : '&' ∉ text) : resolveLetter text = text := by
    induction text with
    | nil => rfl
    | cons letter rest ih =>
      obtain ⟨hletter, hrest⟩ := List.ne_and_not_mem_of_not_mem_cons h
      rw [resolveLetter, ih hrest]
      intro _ he
      exact absurd he.symm hletter
  refine @LawfulLibXml.mk resolvingLibXml fun text h => ?_
  exact String.toList_inj.mp (String.toList_ofList.trans (hkeep _ h))

namespace Literal

/-- Names from two packages clash in the one package of the document, and so do
names that libxml2 resolves to one text. -/
theorem merged_names_clash : LosesUniqueness (projectOfSignals "Speed" "Speed") ∧
    @LawfulLibXml resolvingLibXml ∧ @LosesUniqueness resolvingLibXml (projectOfSignals "A" "&#65;") ∧
    DistinctNames (projectOfSignals "A" "&#65;") := by
  refine ⟨⟨parsed_of_signals _ _, by decide +kernel, by decide +kernel, ?_⟩, lawful_resolvingLibXml,
    @LosesUniqueness.mk resolvingLibXml _ (parsed_of_signals _ _) (by decide +kernel)
      (by decide +kernel) ?_, by constructor <;> decide +kernel⟩
  · refine ⟨buildDocument (projectOfSignals "Speed" "Speed"), ?_, by decide +kernel⟩
    rw [WriteEngine.write, if_neg (by decide +kernel), if_neg (by decide +kernel)]
  · let : LibXml := resolvingLibXml
    refine ⟨buildDocument (projectOfSignals "A" "&#65;"), ?_, by decide +kernel⟩
    rw [WriteEngine.write, if_neg (by decide +kernel), if_neg (by decide +kernel)]

theorem written_names_two_signals :
    let project := projectOfSignals "Speed" "Torque"
    WriteEngine.write project = .ok (buildDocument project) ∧
      validateUniqueness (projectOfDocument (buildDocument project)) = ⟨[]⟩ := by
  intro project
  have hvalid : WriteEngine.validate project = ⟨[]⟩ := by decide +kernel
  have hwithout : Without '&' project := by constructor <;> decide +kernel
  have hwrite : WriteEngine.write project = .ok (buildDocument project) := by
    rw [WriteEngine.write, if_neg (by decide +kernel), if_neg (by decide +kernel)]
  have hdistinct : DistinctNames project := by constructor <;> decide +kernel
  exact ⟨hwrite, (written_names_iff (parsed_of_signals _ _) hvalid hwithout hwrite rfl rfl ∅).mpr
    hdistinct⟩

end Literal

end ParseX

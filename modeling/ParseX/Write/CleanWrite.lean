import ParseX.Write.EmittedTexts

/-! # Writing after a clean validation

A project that validates is written, with every text read back as it was given, exactly when no
text is empty or has an ampersand. -/
namespace ParseX
open Cpp

/-- A text with references is longer than what libxml2 makes of it. -/
class ResolvingLibXml [LibXml] : Prop where
  setContent_shorter : ∀ text : String, '&' ∈ text.toList →
    (LibXml.setContent text).length < text.length

/-! ## Trimmed texts -/

instance (text : String) : Decidable (IsTrimmed text) :=
  inferInstanceAs (Decidable (trimText text = text))

theorem length_trimText_le (text : String) : (trimText text).length ≤ text.length := by
  rw [← String.length_toList, ← String.length_toList, toList_trimText, trimChars]
  exact ((List.rdropWhile_prefix _ _).sublist.trans (List.dropWhile_sublist _)).length_le

/-- A reference to a name is trimmed where the name is. -/
theorem isTrimmed_sys {name : String} (h : IsRefName name) (hne : name ≠ "") :
    IsTrimmed ("/Sys/" ++ name) :=
  isTrimmed_append (by decide) (by decide) hne h.2

theorem append_ne_empty {front back : String} (h : front ≠ "") : front ++ back ≠ "" := by
  intro he
  have hlist := congrArg String.toList he
  rw [String.toList_append] at hlist
  exact h (String.toList_inj.mp (List.append_eq_nil_iff.mp hlist).1)

theorem map_eq_self_iff {T : Type} {f : T → T} {items : List T} :
    items.map f = items ↔ ∀ x ∈ items, f x = x := by
  simpa using List.map_eq_map_iff (f := f) (g := id) (l := items)

/-! ## The texts of a plain project -/

/-- The texts of mappings are trimmed, and none is empty. -/
theorem mappingTexts_spec {owner : String} {refs : List String} (howner : PlainText owner)
    (hne : owner ≠ "") (hrefs : ∀ ref ∈ refs, PlainRef ref) :
    ∀ text ∈ mappingTexts owner refs, IsTrimmed text ∧ text ≠ "" := by
  intro text htext
  obtain ⟨⟨ref, idx⟩, hitem, hmem⟩ := List.mem_flatMap.mp htext
  have href := hrefs ref (List.fst_mem_of_mem_zipIdx hitem)
  rcases List.mem_cons.mp hmem with rfl | hmem
  · obtain ⟨hplain, hname⟩ := @plainText_mappingShortName _ _ idx howner hne href
    exact ⟨hplain.1, hname⟩
  · split at hmem
    · cases hmem
    · rename_i hfull
      rw [List.mem_singleton.mp hmem]
      exact ⟨isTrimmed_sys href.1 hfull, append_ne_empty (by decide)⟩

/-- A name and a category are trimmed, and only the category can be empty. -/
theorem common_spec {common : CommonFields} (hname : PlainText common.shortName)
    (hne : common.shortName ≠ "") (hcategory : ∀ text ∈ common.category, PlainText text) :
    ∀ text ∈ common.texts, IsTrimmed text ∧ (text = "" → common.category = some "") := by
  intro text htext
  rcases List.mem_cons.mp htext with rfl | hmem
  · exact ⟨hname.1, fun he => absurd he hne⟩
  · have hmem := Option.mem_toList.mp hmem
    exact ⟨(hcategory text hmem).1, fun he => he ▸ hmem⟩

theorem Cluster.givenTexts_spec {value : Cluster} (h : value.Plain) (hne : value.common.shortName ≠ "") :
    ∀ text ∈ value.givenTexts, IsTrimmed text ∧ (text = "" → value.common.category = some "") := by
  intro text htext
  rcases List.mem_append.mp htext with hmem | hmem
  · exact common_spec h.shortName hne h.category text hmem
  · obtain ⟨hplain, hne⟩ := h.physicalChannels text (mem_sortedStrings.mp hmem)
    exact ⟨hplain.1, fun he => absurd he hne⟩

theorem EcuInstance.givenTexts_spec {value : EcuInstance} (h : value.Plain)
    (hne : value.common.shortName ≠ "") :
    ∀ text ∈ value.givenTexts, IsTrimmed text ∧ (text = "" → value.common.category = some "") := by
  intro text htext
  rcases List.mem_append.mp htext with hmem | hmem
  · exact common_spec h.shortName hne h.category text hmem
  · obtain ⟨hplain, hne⟩ := h.controllers text (mem_sortedStrings.mp hmem)
    exact ⟨hplain.1, fun he => absurd he hne⟩

theorem Frame.givenTexts_spec {value : Frame} (h : value.Plain) (hne : value.common.shortName ≠ "") :
    ∀ text ∈ value.givenTexts, IsTrimmed text ∧ text ≠ "" := by
  refine List.forall_mem_cons.mpr ⟨⟨h.shortName.1, hne⟩, ?_⟩
  refine mappingTexts_spec h.shortName hne fun ref href => ?_
  obtain ⟨mapping, hmapping, rfl⟩ := List.mem_map.mp href
  exact h.pdus mapping (mem_stableSort.mp hmapping)

theorem Pdu.givenTexts_spec {value : Pdu} (h : value.Plain) (hne : value.common.shortName ≠ "") :
    ∀ text ∈ value.givenTexts, IsTrimmed text ∧ text ≠ "" := by
  refine List.forall_mem_cons.mpr ⟨⟨h.shortName.1, hne⟩, ?_⟩
  refine mappingTexts_spec h.shortName hne fun ref href => ?_
  obtain ⟨mapping, hmapping, rfl⟩ := List.mem_map.mp href
  exact h.signalMappings mapping (mem_stableSort.mp hmapping)

theorem Signal.givenTexts_spec {D : Type} [Double D] {value : Signal D} (h : value.Plain)
    (hne : value.common.shortName ≠ "") : ∀ text ∈ value.givenTexts, IsTrimmed text ∧ text ≠ "" := by
  refine List.forall_mem_cons.mpr ⟨⟨h.shortName.1, hne⟩, fun text htext => ?_⟩
  split at htext
  · rw [List.mem_singleton.mp htext]
    decide
  · cases htext

theorem SignalGroup.givenTexts_spec {value : SignalGroup} (h : value.Plain)
    (hne : value.common.shortName ≠ "") : ∀ text ∈ value.givenTexts, IsTrimmed text ∧ text ≠ "" := by
  refine List.forall_mem_cons.mpr ⟨⟨h.shortName.1, hne⟩, fun text htext => ?_⟩
  obtain ⟨member, hmember, rfl⟩ := List.mem_map.mp htext
  obtain ⟨hplain, hfull⟩ := h.members member (mem_sortedStrings.mp hmember)
  exact ⟨isTrimmed_sys hplain.1 hfull, append_ne_empty (by decide)⟩

/-! ## The texts of a project -/

section
variable {D : Type} [Double D] {project : ParsedProject D}

/-- A property of every text that the writer is given for an element. -/
structure EveryGiven (P : String → Prop) (project : ParsedProject D) : Prop where
  clusters : ∀ x ∈ collectAll project ParsedFile.clusters, ∀ text ∈ x.givenTexts, P text
  ecuInstances : ∀ x ∈ collectAll project ParsedFile.ecuInstances, ∀ text ∈ x.givenTexts, P text
  frames : ∀ x ∈ collectAll project ParsedFile.frames, ∀ text ∈ x.givenTexts, P text
  pdus : ∀ x ∈ collectAll project ParsedFile.pdus, ∀ text ∈ x.givenTexts, P text
  signals : ∀ x ∈ collectAll project ParsedFile.signals, ∀ text ∈ x.givenTexts, P text
  signalGroups : ∀ x ∈ collectAll project ParsedFile.signalGroups, ∀ text ∈ x.givenTexts, P text

theorem forall_givenTexts {P : String → Prop} :
    (∀ text ∈ givenTexts project, P text) ↔ P "Sys" ∧ EveryGiven P project := by
  have hgroup {T : Type} [DomainElement T] {items : List T} {given : T → List String} :
      (∀ text ∈ (sortedCopy items).flatMap given, P text) ↔ ∀ x ∈ items, ∀ text ∈ given x, P text := by
    simp only [List.forall_mem_flatMap, sortedCopy, mem_stableSort]
  simp only [givenTexts, List.forall_mem_cons, List.forall_mem_append, hgroup]
  refine and_congr_right fun _ => ⟨?_, fun h => ?_⟩
  · rintro ⟨⟨⟨⟨⟨h1, h2⟩, h3⟩, h4⟩, h5⟩, h6⟩
    exact ⟨h1, h2, h3, h4, h5, h6⟩
  · exact ⟨⟨⟨⟨⟨h.clusters, h.ecuInstances⟩, h.frames⟩, h.pdus⟩, h.signals⟩, h.signalGroups⟩

/-- The texts of a plain project are trimmed, and only a category can be empty. -/
theorem givenTexts_spec (h : PlainProject project)
    (hnames : EveryCommon (fun common => common.shortName ≠ "") project) :
    ∀ text ∈ givenTexts project, IsTrimmed text ∧ (text = "" → ¬ NoEmptyCategory project) := by
  have hnever {text : String} (hspec : IsTrimmed text ∧ text ≠ "") :
      IsTrimmed text ∧ (text = "" → ¬ NoEmptyCategory project) :=
    ⟨hspec.1, fun he => absurd he hspec.2⟩
  refine forall_givenTexts.mpr ⟨hnever (by decide), fun x hx text htext => ?_, fun x hx text htext => ?_,
    fun x hx text htext => ?_, fun x hx text htext => ?_, fun x hx text htext => ?_,
    fun x hx text htext => ?_⟩
  · obtain ⟨htrimmed, hempty⟩ := Cluster.givenTexts_spec (h.clusters x hx) (hnames.clusters x hx) text htext
    exact ⟨htrimmed, fun he hcategories => hcategories.clusters x hx (hempty he)⟩
  · obtain ⟨htrimmed, hempty⟩ :=
      EcuInstance.givenTexts_spec (h.ecuInstances x hx) (hnames.ecuInstances x hx) text htext
    exact ⟨htrimmed, fun he hcategories => hcategories.ecuInstances x hx (hempty he)⟩
  · exact hnever (Frame.givenTexts_spec (h.frames x hx) (hnames.frames x hx) text htext)
  · exact hnever (Pdu.givenTexts_spec (h.pdus x hx) (hnames.pdus x hx) text htext)
  · exact hnever (Signal.givenTexts_spec (h.signals x hx) (hnames.signals x hx) text htext)
  · exact hnever (SignalGroup.givenTexts_spec (h.signalGroups x hx) (hnames.signalGroups x hx) text htext)

/-- A reference without ampersand, from the texts that hold it. -/
theorem plain_of_mappingTexts {owner : String} {refs : List String}
    (h : ∀ text ∈ mappingTexts owner refs, '&' ∉ text.toList) : ∀ ref ∈ refs, '&' ∉ ref.toList := by
  intro ref href
  by_cases hempty : ref = ""
  · rw [hempty]
    decide
  · rw [← List.zipIdx_map_fst 0 refs] at href
    obtain ⟨item, hitem, rfl⟩ := List.mem_map.mp href
    have hmem : "/Sys/" ++ item.1 ∈ mappingTexts owner refs :=
      List.mem_flatMap.mpr ⟨item, hitem, List.mem_cons_of_mem _ (by rw [if_neg hempty]; simp)⟩
    intro hamp
    refine h _ hmem ?_
    rw [String.toList_append]
    exact List.mem_append_right _ hamp

/-- Parser outputs are plain when no text that the writer is given has an ampersand. -/
theorem plainProject_of_given (hparsed : ∀ file ∈ project.files, ParserOutput file)
    (h : ∀ text ∈ givenTexts project, '&' ∉ text.toList) : PlainProject project := by
  obtain ⟨-, g1, g2, g3, g4, g5, g6⟩ := forall_givenTexts.mp h
  constructor
  · intro x hx
    obtain ⟨node, rfl⟩ := exists_build (fun _ _ h => h.clusters) hparsed hx
    refine buildCluster_plain fun text htext => g1 _ hx text ?_
    rw [Cluster.givenTexts, List.mem_append, mem_sortedStrings]
    exact List.mem_append.mp htext
  · intro x hx
    obtain ⟨node, rfl⟩ := exists_build (fun _ _ h => h.ecuInstances) hparsed hx
    refine buildEcuInstance_plain fun text htext => g2 _ hx text ?_
    rw [EcuInstance.givenTexts, List.mem_append, mem_sortedStrings]
    exact List.mem_append.mp htext
  · intro x hx
    obtain ⟨node, rfl⟩ := exists_build (fun _ _ h => h.frames) hparsed hx
    obtain ⟨hname, hmappings⟩ := List.forall_mem_cons.mp (g3 _ hx)
    exact buildFrame_plain hname fun mapping hmapping => plain_of_mappingTexts hmappings _
      (List.mem_map_of_mem (mem_stableSort.mpr hmapping))
  · intro x hx
    obtain ⟨node, rfl⟩ := exists_build (fun _ _ h => h.pdus) hparsed hx
    obtain ⟨hname, hmappings⟩ := List.forall_mem_cons.mp (g4 _ hx)
    exact buildPdu_plain hname fun mapping hmapping => plain_of_mappingTexts hmappings _
      (List.mem_map_of_mem (mem_stableSort.mpr hmapping))
  · intro x hx
    obtain ⟨node, rfl⟩ := exists_build (fun _ _ h => h.signals) hparsed hx
    exact buildSignal_plain (g5 _ hx _ List.mem_cons_self)
  · intro x hx
    obtain ⟨node, rfl⟩ := exists_build (fun _ _ h => h.signalGroups) hparsed hx
    obtain ⟨hname, hmembers⟩ := List.forall_mem_cons.mp (g6 _ hx)
    refine buildSignalGroup_plain hname fun member hmember hamp => ?_
    refine hmembers _ (List.mem_map_of_mem (mem_sortedStrings.mpr hmember)) ?_
    rw [String.toList_append]
    exact List.mem_append_right _ hamp

end

/-! ## The writer -/

section
variable {D : Type} [Double D] [LibXml] [LawfulLibXml] {project : ParsedProject D}

/-- An empty category stops at the guard. -/
theorem noEmptyCategory_of_guard (h : hasBlankText (buildDocument project).root = false) :
    NoEmptyCategory project := by
  have hcategory {category : Option String} {node : XmlNode}
      (hnode : node ∈ writeElements project)
      (hchild : ∀ child ∈ optionalTextChild "CATEGORY" category, child ∈ node.children) :
      category ≠ some "" := by
    rintro rfl
    have hguard := guard_child (guard_element h hnode) (hchild _ (List.mem_singleton_self _))
    obtain ⟨-, c, hc, -⟩ := guard_textChild hguard (by decide)
    cases hc
  constructor
  · intro x hx
    refine @hcategory _ (buildClusterElement x) ?_ fun child hchild => ?_
    · simp only [writeElements, List.mem_append, List.mem_map]
      exact .inl (.inl (.inl (.inl (.inl ⟨x, mem_stableSort.mpr hx, rfl⟩))))
    · exact List.mem_append_left _ (List.mem_cons_of_mem _ hchild)
  · intro x hx
    refine @hcategory _ (buildEcuInstanceElement x) ?_ fun child hchild => ?_
    · simp only [writeElements, List.mem_append, List.mem_map]
      exact .inl (.inl (.inl (.inl (.inr ⟨x, mem_stableSort.mpr hx, rfl⟩))))
    · exact List.mem_append_left _ (List.mem_cons_of_mem _ hchild)

omit [LawfulLibXml] in
/-- A text that is read back has no ampersand. -/
theorem plain_of_reread [ResolvingLibXml] {text : String} (h : rereadText text = text) :
    '&' ∉ text.toList := by
  intro hamp
  have hshorter := ResolvingLibXml.setContent_shorter text hamp
  have htrim := length_trimText_le (LibXml.setContent text)
  rw [rereadText] at h
  rw [h] at htrim
  omega

variable [ResolvingLibXml] [LawfulDouble D]

/-- **A clean validation promises a clean write exactly when every text given is there and has no
ampersand.** -/
theorem clean_write_iff (hparsed : ∀ file ∈ project.files, ParserOutput file)
    (hvalid : WriteEngine.validate project = ⟨[]⟩) :
    (∃ document, WriteEngine.write project = .ok document ∧
      ∀ root, Reloads document root → storedTexts root = givenTexts project) ↔
      ∀ text ∈ givenTexts project, text ≠ "" ∧ '&' ∉ text.toList := by
  have hnames := everyCommon_of_validate hvalid
  have hclean : (WriteEngine.validate project).hasErrors = false := by rw [hvalid]; rfl
  constructor
  · rintro ⟨document, hwrite, hread⟩
    rw [WriteEngine.write, hclean] at hwrite
    cases hguard : hasBlankText (buildDocument project).root with
    | true =>
      rw [hguard] at hwrite
      cases hwrite
    | false =>
      rw [hguard] at hwrite
      obtain rfl := Except.ok.inj hwrite
      have hstored := hread (buildDocument project).root.raw rfl
      rw [storedTexts_buildDocument] at hstored
      have hreread : ∀ text ∈ givenTexts project, rereadText text = text :=
        map_eq_self_iff.mp hstored
      have hplain := plainProject_of_given hparsed fun text htext => plain_of_reread (hreread text htext)
      intro text htext
      refine ⟨fun he => ?_, plain_of_reread (hreread text htext)⟩
      exact (givenTexts_spec hplain hnames text htext).2 he (noEmptyCategory_of_guard hguard)
  · intro h
    have hplain := plainProject_of_given hparsed fun text htext => (h text htext).2
    have hspec := givenTexts_spec hplain hnames
    have hgiven := (forall_givenTexts.mp h).2
    have hcategories : NoEmptyCategory project := by
      refine ⟨fun x hx he => ?_, fun x hx he => ?_⟩
      · exact (hgiven.clusters x hx "" (by simp [Cluster.givenTexts, CommonFields.texts, he])).1 rfl
      · exact (hgiven.ecuInstances x hx "" (by simp [EcuInstance.givenTexts, CommonFields.texts, he])).1 rfl
    refine ⟨buildDocument project, write_ok hplain hvalid hcategories, fun root hroot => ?_⟩
    rw [← storedTexts_bare, hroot, storedTexts_bare, storedTexts_buildDocument]
    refine map_eq_self_iff.mpr fun text htext => ?_
    rw [rereadText, LawfulLibXml.setContent_plain text (h text htext).2]
    exact (hspec text htext).1

end

/-! ## An instance -/

/-- The characters that the predefined entities stand for. -/
def predefinedEntity (name : List Char) : List Char :=
  if name = "amp".toList then ['&']
  else if name = "lt".toList then ['<']
  else if name = "gt".toList then ['>']
  else if name = "quot".toList then ['"']
  else if name = "apos".toList then ['\'']
  else []

/-- A text with its references resolved; inside one, with the letters of its name. -/
def resolveText : Option (List Char) → List Char → List Char
  | _, [] => []
  | none, letter :: rest =>
    if letter = '&' then resolveText (some []) rest else letter :: resolveText none rest
  | some name, letter :: rest =>
    if letter = ';' then predefinedEntity name ++ resolveText none rest
    else resolveText (some (name ++ [letter])) rest

theorem length_resolveText_le (text : List Char) :
    ∀ name, (resolveText name text).length ≤ text.length := by
  induction text with
  | nil =>
    intro name
    cases name <;> exact Nat.le_refl _
  | cons letter rest ih =>
    intro name
    have hentity (name : List Char) : (predefinedEntity name).length ≤ 1 := by
      unfold predefinedEntity
      repeat' split
      all_goals decide
    cases name with
    | none =>
      rw [resolveText]
      split
      · exact Nat.le_succ_of_le (ih _)
      · exact Nat.succ_le_succ (ih none)
    | some name =>
      rw [resolveText]
      split
      · have hname := hentity name
        have hrest := ih none
        rw [List.length_append, List.length_cons]
        omega
      · exact Nat.le_succ_of_le (ih _)

/-- A libxml2 that resolves the predefined entities. -/
@[reducible] def entityLibXml : LibXml := ⟨fun text => String.ofList (resolveText none text.toList)⟩

theorem lawful_entityLibXml : @LawfulLibXml entityLibXml := by
  have hkeep (text : List Char) (h : '&' ∉ text) : resolveText none text = text := by
    induction text with
    | nil => rfl
    | cons letter rest ih =>
      obtain ⟨hletter, hrest⟩ := List.ne_and_not_mem_of_not_mem_cons h
      rw [resolveText, if_neg (Ne.symm hletter), ih hrest]
  refine @LawfulLibXml.mk entityLibXml fun text h => ?_
  exact String.toList_inj.mp (String.toList_ofList.trans (hkeep _ h))

theorem resolving_entityLibXml : @ResolvingLibXml entityLibXml := by
  have hshorter (text : List Char) (h : '&' ∈ text) : (resolveText none text).length < text.length := by
    induction text with
    | nil => cases h
    | cons letter rest ih =>
      rw [resolveText]
      split
      · exact Nat.lt_succ_of_le (length_resolveText_le rest _)
      · rename_i hletter
        exact Nat.succ_lt_succ (ih ((List.mem_cons.mp h).resolve_left (Ne.symm hletter)))
  refine @ResolvingLibXml.mk entityLibXml fun text h => ?_
  rw [← String.length_toList, ← String.length_toList]
  show (String.ofList (resolveText none text.toList)).toList.length < text.toList.length
  rw [String.toList_ofList]
  exact hshorter _ h

/-- A document with one cluster. -/
def documentOfCluster (shortName category : String) : RawNode :=
  { tagName := "AUTOSAR"
    attributes := [("xsi:schemaLocation", "http://autosar.org/schema/r4.0 AUTOSAR_00046.xsd")]
    children := [{ tagName := "CAN-CLUSTER", children :=
      [leaf "SHORT-NAME" shortName [], leaf "CATEGORY" category []] }] }

/-- The parsed document alone. -/
def projectOfCluster (shortName category : String) : ParsedProject WholeDouble :=
  { files := (parseDocument "<buffer>" (documentOfCluster shortName category)).toOption.toList }

theorem parsed_of_cluster (shortName category : String) :
    ∀ file ∈ (projectOfCluster shortName category).files, ParserOutput file :=
  fun _ => @parserOutput_of_document _ _ "<buffer>" (documentOfCluster shortName category) _

/-- An empty category stops the write, and a name with a reference comes back without it. -/
theorem dry_run_misleads :
    let _ : LibXml := entityLibXml
    let unwritten := projectOfCluster "Body" ""
    let altered := projectOfCluster "A&amp;B" "CAN"
    (∀ file ∈ unwritten.files, ParserOutput file) ∧ WriteEngine.validate unwritten = ⟨[]⟩ ∧
      WriteEngine.write unwritten = .error .blankText ∧
    (∀ file ∈ altered.files, ParserOutput file) ∧ WriteEngine.validate altered = ⟨[]⟩ ∧
      WriteEngine.write altered = .ok (buildDocument altered) ∧
      givenTexts altered = ["Sys", "A&amp;B", "CAN"] ∧
      storedTexts (buildDocument altered).root.raw = ["Sys", "A&B", "CAN"] := by
  intro _ unwritten altered
  refine ⟨parsed_of_cluster _ _, by decide +kernel, ?_, parsed_of_cluster _ _, by decide +kernel, ?_,
    by decide +kernel, by decide +kernel⟩
  · rw [WriteEngine.write, if_neg (by decide +kernel), if_pos (by decide +kernel)]
  · rw [WriteEngine.write, if_neg (by decide +kernel), if_neg (by decide +kernel)]

theorem clean_write_cluster :
    let _ : LibXml := entityLibXml
    let project := projectOfCluster "Body" "CAN"
    ∃ document, WriteEngine.write project = .ok document ∧
      ∀ root, Reloads document root → storedTexts root = givenTexts project := by
  intro _ project
  have := lawful_entityLibXml
  have := resolving_entityLibXml
  exact (clean_write_iff (parsed_of_cluster _ _) (by decide +kernel)).mpr (by decide +kernel)

end ParseX

import ParseX.Parser.Resolve

/-! # Names a project still lacks

What the discovery of files looks for: short names that references want and no
element of their type has. -/
namespace ParseX
open Cpp

structure WantedRefs where
  pdus : StdSet := ∅
  signals : StdSet := ∅
  ecus : StdSet := ∅

def WantedRefs.empty (wanted : WantedRefs) : Bool :=
  wanted.pdus.isEmpty && wanted.signals.isEmpty && wanted.ecus.isEmpty

def wantName (known wanted : StdSet) (name : String) : StdSet :=
  if name ≠ "" ∧ name ∉ known then wanted.insert name else wanted

def wantFrameRefs (known : KnownRefs) (wanted : WantedRefs) (frame : Frame) : WantedRefs :=
  { wanted with
    ecus := frame.transmitters.foldl (wantName known.ecus) wanted.ecus
    pdus := (frame.pdus.map FramePduMapping.pduShortNameRef).foldl (wantName known.pdus)
      wanted.pdus }

section
variable {D : Type} [Double D]

/-- The loops over PDUs, signals and groups, each over the names one element
refers to. -/
def wantFileRefs (known : KnownRefs) (wanted : WantedRefs) (file : ParsedFile D) : WantedRefs :=
  let wanted := file.frames.foldl (wantFrameRefs known) wanted
  let wanted := file.pdus.foldl (fun wanted pdu =>
    { wanted with
      signals := (pdu.signalMappings.map PduSignalMapping.signalShortNameRef).foldl
        (wantName known.signals) wanted.signals }) wanted
  let wanted := file.signals.foldl (fun wanted signal =>
    { wanted with
      ecus := signal.receivers.foldl (wantName known.ecus) wanted.ecus }) wanted
  file.signalGroups.foldl (fun wanted group =>
    { wanted with
      signals := group.members.foldl (wantName known.signals) wanted.signals }) wanted

def collectWantedRefs (project : ParsedProject D) : WantedRefs :=
  project.files.foldl (wantFileRefs (collectKnownRefs project)) {}

def definesWantedName (file : ParsedFile D) (wanted : WantedRefs) : Bool :=
  (file.pdus.any fun pdu => wanted.pdus.contains pdu.common.shortName) ||
  (file.signals.any fun signal => wanted.signals.contains signal.common.shortName) ||
  file.ecuInstances.any fun ecu => wanted.ecus.contains ecu.common.shortName

def flattenWanted (wanted : WantedRefs) : List String :=
  wanted.pdus.toList ++ wanted.signals.toList ++ wanted.ecus.toList

/-! ## Families -/

/-- The types of element that a reference can want. -/
inductive RefFamily where
  | pdus
  | signals
  | ecus
  deriving DecidableEq, Repr

def WantedRefs.of (wanted : WantedRefs) : RefFamily → StdSet
  | .pdus => wanted.pdus
  | .signals => wanted.signals
  | .ecus => wanted.ecus

def KnownRefs.of (known : KnownRefs) : RefFamily → StdSet
  | .pdus => known.pdus
  | .signals => known.signals
  | .ecus => known.ecus

/-- The names that the references of a file want. -/
def referencedNames (file : ParsedFile D) : RefFamily → List String
  | .pdus => file.frames.flatMap fun frame => frame.pdus.map FramePduMapping.pduShortNameRef
  | .signals =>
    (file.pdus.flatMap fun pdu => pdu.signalMappings.map PduSignalMapping.signalShortNameRef) ++
      file.signalGroups.flatMap SignalGroup.members
  | .ecus => file.frames.flatMap Frame.transmitters ++ file.signals.flatMap Signal.receivers

/-- The names of the elements of a file. -/
def definedNames (file : ParsedFile D) : RefFamily → List String
  | .pdus => file.pdus.map shortName
  | .signals => file.signals.map shortName
  | .ecus => file.ecuInstances.map shortName

/-- The files refer to the name and do not define it. -/
def Lacks (files : List (ParsedFile D)) (family : RefFamily) (name : String) : Prop :=
  name ≠ "" ∧ (∃ file ∈ files, name ∈ referencedNames file family) ∧
    ∀ file ∈ files, name ∉ definedNames file family

/-! ## What is wanted -/

/-- The change adds the unknown names of the references, each to its family. -/
def Adds (known : KnownRefs) (change : WantedRefs → WantedRefs) (refs : RefFamily → List String) :
    Prop :=
  ∀ wanted family name, name ∈ (change wanted).of family ↔
    name ∈ wanted.of family ∨ name ∈ refs family ∧ name ≠ "" ∧ name ∉ known.of family

theorem mem_wantName {known wanted : StdSet} {ref name : String} :
    name ∈ wantName known wanted ref ↔
      name ∈ wanted ∨ name = ref ∧ name ≠ "" ∧ name ∉ known := by
  rw [wantName]
  split
  case isTrue h =>
    rw [Std.ExtTreeSet.mem_insert, Std.LawfulEqOrd.compare_eq_iff_eq]
    constructor
    · rintro (rfl | hmem)
      · exact .inr ⟨rfl, h⟩
      · exact .inl hmem
    · rintro (hmem | ⟨rfl, -⟩)
      · exact .inr hmem
      · exact .inl rfl
  case isFalse h =>
    constructor
    · exact .inl
    · rintro (hmem | ⟨rfl, hwant⟩)
      · exact hmem
      · exact absurd hwant h

theorem mem_foldl_wantName {known : StdSet} {refs : List String} {name : String} :
    ∀ wanted : StdSet, name ∈ refs.foldl (wantName known) wanted ↔
      name ∈ wanted ∨ name ∈ refs ∧ name ≠ "" ∧ name ∉ known := by
  induction refs with
  | nil => intro wanted; simp
  | cons ref refs ih =>
    intro wanted
    rw [List.foldl_cons, ih, mem_wantName, List.mem_cons]
    tauto

section
variable {known : KnownRefs}

theorem Adds.comp {first second : WantedRefs → WantedRefs} {refs refs' : RefFamily → List String}
    (h : Adds known first refs) (h' : Adds known second refs') :
    Adds known (fun wanted => second (first wanted)) fun family => refs family ++ refs' family := by
  intro wanted family name
  rw [h', h, List.mem_append]
  tauto

theorem Adds.foldl {T : Type} {change : WantedRefs → T → WantedRefs}
    {refs : T → RefFamily → List String}
    (h : ∀ x, Adds known (fun wanted => change wanted x) (refs x)) (items : List T) :
    Adds known (fun wanted => items.foldl change wanted)
      fun family => items.flatMap fun x => refs x family := by
  induction items with
  | nil => intro wanted family name; simp
  | cons x items ih =>
    intro wanted family name
    have hfirst := h x wanted family name
    have hrest := ih (change wanted x) family name
    dsimp only at hfirst hrest ⊢
    rw [List.foldl_cons, hrest, hfirst, List.flatMap_cons, List.mem_append]
    tauto

theorem Adds.congr {change : WantedRefs → WantedRefs} {refs refs' : RefFamily → List String}
    (h : Adds known change refs) (heq : ∀ family name, name ∈ refs family ↔ name ∈ refs' family) :
    Adds known change refs' := by
  intro wanted family name
  rw [h, heq]

theorem adds_wantFrameRefs (frame : Frame) :
    Adds known (fun wanted => wantFrameRefs known wanted frame) fun
      | .pdus => frame.pdus.map FramePduMapping.pduShortNameRef
      | .signals => []
      | .ecus => frame.transmitters := by
  intro wanted family name
  cases family with
  | pdus => exact mem_foldl_wantName _
  | signals => simp [wantFrameRefs, WantedRefs.of]
  | ecus => exact mem_foldl_wantName _

theorem adds_signals (refs : List String) :
    Adds known (fun wanted => { wanted with
      signals := refs.foldl (wantName known.signals) wanted.signals }) fun
      | .signals => refs
      | _ => [] := by
  intro wanted family name
  cases family with
  | pdus => simp [WantedRefs.of]
  | signals => exact mem_foldl_wantName _
  | ecus => simp [WantedRefs.of]

theorem adds_ecus (refs : List String) :
    Adds known (fun wanted => { wanted with
      ecus := refs.foldl (wantName known.ecus) wanted.ecus }) fun
      | .ecus => refs
      | _ => [] := by
  intro wanted family name
  cases family with
  | pdus => simp [WantedRefs.of]
  | signals => simp [WantedRefs.of]
  | ecus => exact mem_foldl_wantName _

theorem adds_wantFileRefs (file : ParsedFile D) :
    Adds known (fun wanted => wantFileRefs known wanted file) (referencedNames file) := by
  have hframes := Adds.foldl (@adds_wantFrameRefs known) file.frames
  have hpdus := Adds.foldl (fun pdu : Pdu => @adds_signals known
    (pdu.signalMappings.map PduSignalMapping.signalShortNameRef)) file.pdus
  have hsignals := Adds.foldl (fun signal : Signal D => @adds_ecus known signal.receivers) file.signals
  have hgroups := Adds.foldl (fun group : SignalGroup => @adds_signals known group.members)
    file.signalGroups
  refine (((hframes.comp hpdus).comp hsignals).comp hgroups).congr fun family name => ?_
  cases family <;> simp [referencedNames]

end

theorem mem_known {project : ParsedProject D} {family : RefFamily} {name : String} :
    name ∈ (collectKnownRefs project).of family ↔
      ∃ file ∈ project.files, name ∈ definedNames file family := by
  rw [← List.mem_flatMap]
  cases family <;>
    simp [KnownRefs.of, collectKnownRefs, definedNames, Std.ExtTreeSet.mem_ofList]

/-- The wanted names are those that the project lacks. -/
theorem mem_collectWantedRefs {project : ParsedProject D} {family : RefFamily} {name : String} :
    name ∈ (collectWantedRefs project).of family ↔ Lacks project.files family name := by
  have hadds := Adds.foldl (fun file : ParsedFile D =>
    @adds_wantFileRefs _ _ (collectKnownRefs project) file) project.files
  rw [collectWantedRefs, hadds {} family name, mem_known, List.mem_flatMap, Lacks]
  have hempty : name ∉ ({} : WantedRefs).of family := by cases family <;> simp [WantedRefs.of]
  simp only [hempty, false_or, not_exists, not_and]
  tauto

theorem WantedRefs.empty_iff {wanted : WantedRefs} :
    wanted.empty = true ↔ ∀ family name, name ∉ wanted.of family := by
  simp only [WantedRefs.empty, Bool.and_eq_true, Std.ExtTreeSet.isEmpty_iff]
  constructor
  · rintro ⟨⟨hpdus, hsignals⟩, hecus⟩ family name
    cases family <;> simp [WantedRefs.of, hpdus, hsignals, hecus]
  · intro h
    have hnone (family : RefFamily) : wanted.of family = ∅ :=
      Std.ExtTreeSet.eq_empty_iff_forall_not_mem.mpr (h family)
    exact ⟨⟨hnone .pdus, hnone .signals⟩, hnone .ecus⟩

theorem exists_family {P : RefFamily → Prop} :
    (∃ family, P family) ↔ P .pdus ∨ P .signals ∨ P .ecus := by
  constructor
  · rintro ⟨family, h⟩
    cases family with
    | pdus => exact .inl h
    | signals => exact .inr (.inl h)
    | ecus => exact .inr (.inr h)
  · rintro (h | h | h)
    · exact ⟨_, h⟩
    · exact ⟨_, h⟩
    · exact ⟨_, h⟩

theorem definesWantedName_iff {file : ParsedFile D} {wanted : WantedRefs} :
    definesWantedName file wanted = true ↔
      ∃ family, ∃ name ∈ definedNames file family, name ∈ wanted.of family := by
  have hany {T : Type} [DomainElement T] (items : List T) (names : StdSet) :
      (items.any fun x => names.contains (shortName x)) = true ↔
        ∃ name ∈ items.map shortName, name ∈ names := by
    simp [List.any_eq_true]
  rw [exists_family]
  refine Iff.trans ?_ (or_congr (hany file.pdus wanted.pdus)
    (or_congr (hany file.signals wanted.signals) (hany file.ecuInstances wanted.ecus)))
  rw [← or_assoc, ← Bool.or_eq_true, ← Bool.or_eq_true]
  rfl

theorem mem_flattenWanted {wanted : WantedRefs} {name : String} :
    name ∈ flattenWanted wanted ↔ ∃ family, name ∈ wanted.of family := by
  rw [exists_family, flattenWanted, List.mem_append, List.mem_append, or_assoc]
  simp only [Std.ExtTreeSet.mem_toList]
  rfl

/-! ## The references of the final pass -/

theorem exists_missing_sitesOf {owner field : String} {refs : List String} {knownNames : StdSet}
    {name : String} : (∃ site ∈ sitesOf owner field refs knownNames,
      site.Missing ∧ site.wanted = name) ↔ name ∈ refs ∧ name ≠ "" ∧ name ∉ knownNames := by
  constructor
  · rintro ⟨site, hsite, hmissing, rfl⟩
    obtain ⟨⟨ref, idx⟩, href, rfl⟩ := List.mem_map.mp hsite
    exact ⟨List.mem_of_getElem? (List.mem_zipIdx_iff_getElem?.mp href), hmissing⟩
  · rintro ⟨href, hwant⟩
    obtain ⟨site, hsite, rfl, rfl⟩ := @mem_sitesOf owner field _ knownNames _ href
    exact ⟨site, hsite, hwant, rfl⟩

theorem exists_missing_append {front back : List ReferenceSite} {name : String} :
    (∃ site ∈ front ++ back, site.Missing ∧ site.wanted = name) ↔
      (∃ site ∈ front, site.Missing ∧ site.wanted = name) ∨
        ∃ site ∈ back, site.Missing ∧ site.wanted = name := by
  simp only [List.mem_append, or_and_right, exists_or]

theorem exists_missing_flatMap {T : Type} {items : List T} {sites : T → List ReferenceSite}
    {refs : T → List String} {knownNames : StdSet} {name : String}
    (h : ∀ x, (∃ site ∈ sites x, site.Missing ∧ site.wanted = name) ↔
      name ∈ refs x ∧ name ≠ "" ∧ name ∉ knownNames) :
    (∃ site ∈ items.flatMap sites, site.Missing ∧ site.wanted = name) ↔
      name ∈ items.flatMap refs ∧ name ≠ "" ∧ name ∉ knownNames := by
  simp only [List.mem_flatMap]
  constructor
  · rintro ⟨site, ⟨x, hx, hsite⟩, hmissing⟩
    obtain ⟨href, hwant⟩ := (h x).mp ⟨site, hsite, hmissing⟩
    exact ⟨⟨x, hx, href⟩, hwant⟩
  · rintro ⟨⟨x, hx, href⟩, hwant⟩
    obtain ⟨site, hsite, hmissing⟩ := (h x).mpr ⟨href, hwant⟩
    exact ⟨site, ⟨x, hx, hsite⟩, hmissing⟩

theorem exists_missing_flatMap_append {T : Type} {items : List T}
    {sites sites' : T → List ReferenceSite} {name : String} :
    (∃ site ∈ items.flatMap fun x => sites x ++ sites' x, site.Missing ∧ site.wanted = name) ↔
      (∃ site ∈ items.flatMap sites, site.Missing ∧ site.wanted = name) ∨
        ∃ site ∈ items.flatMap sites', site.Missing ∧ site.wanted = name := by
  rw [← exists_missing_append]
  refine exists_congr fun site => and_congr_left fun _ => ?_
  simp only [List.mem_flatMap, List.mem_append, and_or_left, exists_or]

/-- The missing references of a file, family by family. -/
theorem exists_missing_fileSites {known : KnownRefs} {file : ParsedFile D} {name : String} :
    (∃ site ∈ fileSites known file, site.Missing ∧ site.wanted = name) ↔
      ∃ family, name ∈ referencedNames file family ∧ name ≠ "" ∧ name ∉ known.of family := by
  rw [exists_family, fileSites, exists_missing_append, exists_missing_append,
    exists_missing_append, exists_missing_flatMap_append,
    exists_missing_flatMap fun _ => exists_missing_sitesOf,
    exists_missing_flatMap fun _ => exists_missing_sitesOf,
    exists_missing_flatMap fun _ => exists_missing_sitesOf,
    exists_missing_flatMap fun _ => exists_missing_sitesOf,
    exists_missing_flatMap fun _ => exists_missing_sitesOf]
  simp only [referencedNames, KnownRefs.of, List.mem_append]
  tauto

theorem missing_names {project : ParsedProject D} {name : String} :
    (∃ file ∈ project.files, ∃ site ∈ fileSites (collectKnownRefs project) file,
      site.Missing ∧ site.wanted = name) ↔ ∃ family, Lacks project.files family name := by
  simp only [exists_missing_fileSites, mem_known, not_exists, not_and]
  constructor
  · rintro ⟨file, hfile, family, href, hne, hundefined⟩
    exact ⟨family, hne, ⟨file, hfile, href⟩, hundefined⟩
  · rintro ⟨family, hne, ⟨file, hfile, href⟩, hundefined⟩
    exact ⟨file, hfile, family, href, hne, hundefined⟩

/-- The pass succeeds when the files lack no name. -/
theorem resolve_ok {project resolved : ParsedProject D}
    (h : resolveCrossFileReferences project = .ok resolved) :
    resolved.files = project.files ∧ ∀ family name, ¬ Lacks project.files family name := by
  constructor
  · rw [resolveCrossFileReferences] at h
    split at h
    · obtain rfl := Except.ok.inj h
      rfl
    · cases h
  · intro family name hlacks
    obtain ⟨file, hfile, site, hsite, hmissing, -⟩ := missing_names.mpr ⟨family, hlacks⟩
    exact resolveCrossFileReferences_ok_iff.mp ⟨resolved, h⟩ file hfile site hsite hmissing

/-- The names of every family. -/
def WantedRefs.all (wanted : WantedRefs) : StdSet := wanted.pdus ∪ wanted.signals ∪ wanted.ecus

theorem toList_congr {names names' : StdSet} (h : ∀ name, name ∈ names ↔ name ∈ names') :
    names.toList = names'.toList := by
  rw [Std.ExtTreeSet.ext_mem h]

theorem mem_all {wanted : WantedRefs} {name : String} :
    name ∈ wanted.all ↔ ∃ family, name ∈ wanted.of family := by
  rw [exists_family, WantedRefs.all, Std.ExtTreeSet.mem_union_iff, Std.ExtTreeSet.mem_union_iff,
    or_assoc]
  rfl

/-- The failure lists the names that the files lack. -/
theorem mem_dangling_refs {project : ParsedProject D} {failure : DanglingFileReference}
    (h : resolveCrossFileReferences project = .error failure) (name : String) :
    name ∈ failure.refs ↔ ∃ family, Lacks project.files family name := by
  rw [resolveCrossFileReferences] at h
  split at h
  · cases h
  · obtain rfl := Except.error.inj h
    rw [← missing_names, Std.ExtTreeSet.mem_toList, Std.ExtTreeSet.mem_ofList,
      List.contains_iff_mem, unresolved_files, List.nil_append, List.map_map]
    simp only [List.mem_map, List.mem_filter, List.mem_flatMap, decide_eq_true_eq, Function.comp]
    constructor
    · rintro ⟨site, ⟨⟨file, hfile, hsite⟩, hmissing⟩, hname⟩
      exact ⟨file, hfile, site, hsite, hmissing, hname⟩
    · rintro ⟨file, hfile, site, hsite, hmissing, hname⟩
      exact ⟨site, ⟨⟨file, hfile, hsite⟩, hmissing⟩, hname⟩

/-- The discovery and the final pass agree: nothing is wanted exactly when the
pass succeeds, and a failure names what is wanted. -/
theorem wanted_refs_agree (project : ParsedProject D) :
    ((collectWantedRefs project).empty = true ↔
      ∃ resolved, resolveCrossFileReferences project = .ok resolved) ∧
    ∀ failure, resolveCrossFileReferences project = .error failure →
      failure.refs = (collectWantedRefs project).all.toList := by
  constructor
  · rw [WantedRefs.empty_iff, resolveCrossFileReferences_ok_iff]
    simp only [mem_collectWantedRefs]
    constructor
    · intro hnone file hfile site hsite hmissing
      obtain ⟨family, hlacks⟩ := missing_names.mp ⟨file, hfile, site, hsite, hmissing, rfl⟩
      exact hnone family site.wanted hlacks
    · intro hnone family name hlacks
      obtain ⟨file, hfile, site, hsite, hmissing, -⟩ := missing_names.mpr ⟨family, hlacks⟩
      exact hnone file hfile site hsite hmissing
  · intro failure h
    have hmem := mem_dangling_refs h
    rw [resolveCrossFileReferences] at h
    split at h
    · cases h
    · obtain rfl := Except.error.inj h
      dsimp only at hmem ⊢
      refine toList_congr fun name => ?_
      rw [← Std.ExtTreeSet.mem_toList, hmem, mem_all]
      simp only [mem_collectWantedRefs]

end

end ParseX

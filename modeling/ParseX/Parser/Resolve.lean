import ParseX.Model.Domain
import Std.Data.ExtTreeSet.Lemmas

/-! # Cross-file references

The final pass of every project parse: each reference of the five families must
name an element of its type somewhere in the project. -/
namespace ParseX
open Cpp

/-! ## Known names -/

/-- `std::set<std::string>`. -/
abbrev StdSet := Std.ExtTreeSet String compare

structure KnownRefs where
  pdus : StdSet
  signals : StdSet
  ecus : StdSet

/-- One place that holds a reference, the name it wants and the names known for
its type. -/
structure ReferenceSite where
  key : String
  wanted : String
  knownNames : StdSet

/-- The sites of one list of references. -/
def sitesOf (owner field : String) (refs : List String) (knownNames : StdSet) :
    List ReferenceSite :=
  refs.zipIdx.map fun (wanted, idx) =>
    { key := owner ++ "." ++ field ++ "[" ++ toString idx ++ "]", wanted, knownNames }

structure UnresolvedSite where
  key : String
  wanted : String
  deriving DecidableEq, Repr

/-- What `resolveFileRefs` fills. -/
structure Resolution where
  resolved : StdMap ResolvedReference := ∅
  unresolved : List UnresolvedSite := []

/-- The local function `resolve` of `resolveFileRefs`. -/
def resolve (state : Resolution) (site : ReferenceSite) : Resolution :=
  if site.wanted = "" then state
  else if site.wanted ∈ site.knownNames then
    { state with
      resolved := state.resolved.insertIfNew site.key ⟨site.wanted⟩ }
  else
    { state with
      unresolved := state.unresolved ++ [⟨site.key, site.wanted⟩] }

/-! ## Searched directories -/

/-- `std::filesystem::path::parent_path` of a POSIX path. -/
def parentPath (path : String) : String :=
  let directory := path.toList.rdropWhile (· ≠ '/')
  let trimmed := directory.rdropWhile (· = '/')
  String.ofList (if trimmed.isEmpty then directory else trimmed)

/-- `operator==` of paths without a trailing slash: equal elements, both
absolute or both relative. -/
def samePath (path other : String) : Bool :=
  (path.toList.head? == some '/') == (other.toList.head? == some '/') &&
    (path.toList.splitOnP (· = '/')).filter (· ≠ []) ==
      (other.toList.splitOnP (· = '/')).filter (· ≠ [])

/-- The directories of the files, each once. -/
def searchedDirs (sourcePaths : List String) : List String :=
  sourcePaths.foldl (fun dirs path =>
    let directory := if parentPath path = "" then "." else parentPath path
    if dirs.any (samePath directory) then dirs else dirs ++ [directory]) []

/-- `DanglingFileReferenceError`. -/
structure DanglingFileReference where
  refs : List String
  searchedDirs : List String
  context : String
  deriving DecidableEq, Repr

/-- `DanglingFileReferenceError::buildMessage`. -/
def DanglingFileReference.message (failure : DanglingFileReference) : String :=
  "parsex: dangling file reference(s): " ++
    ", ".intercalate (failure.refs.map fun ref => "'" ++ ref ++ "'") ++
    " — no parsed or discovered ARXML file defines them (searched:" ++
    String.join (failure.searchedDirs.map fun dir => " " ++ dir) ++ ")" ++
    if failure.context = "" then "" else " [unresolved sites: " ++ failure.context ++ "]"

section
variable {D : Type} [Double D]

def collectKnownRefs (project : ParsedProject D) : KnownRefs where
  pdus := .ofList (project.files.flatMap fun file => file.pdus.map shortName)
  signals := .ofList (project.files.flatMap fun file => file.signals.map shortName)
  ecus := .ofList (project.files.flatMap fun file => file.ecuInstances.map shortName)

/-- The sites of a file, in the order of the loops of `resolveFileRefs`. -/
def fileSites (known : KnownRefs) (file : ParsedFile D) : List ReferenceSite :=
  (file.frames.flatMap fun frame =>
    sitesOf frame.common.shortName "transmitters" frame.transmitters known.ecus ++
    sitesOf frame.common.shortName "pdus" (frame.pdus.map FramePduMapping.pduShortNameRef)
      known.pdus) ++
  (file.pdus.flatMap fun pdu =>
    sitesOf pdu.common.shortName "signalMappings"
      (pdu.signalMappings.map PduSignalMapping.signalShortNameRef) known.signals) ++
  (file.signals.flatMap fun signal =>
    sitesOf signal.common.shortName "receivers" signal.receivers known.ecus) ++
  file.signalGroups.flatMap fun group =>
    sitesOf group.common.shortName "members" group.members known.signals

def resolveFileRefs (known : KnownRefs) (state : Resolution) (file : ParsedFile D) : Resolution :=
  (fileSites known file).foldl resolve state

def resolveCrossFileReferences (project : ParsedProject D) :
    Except DanglingFileReference (ParsedProject D) :=
  let state := project.files.foldl (resolveFileRefs (collectKnownRefs project)) {}
  if state.unresolved.isEmpty then
    .ok { project with
      resolvedRefs := state.resolved }
  else
    .error {
      refs := (Std.ExtTreeSet.ofList (state.unresolved.map UnresolvedSite.wanted)).toList
      searchedDirs := searchedDirs (project.files.map ParsedFile.sourcePath)
      context := "; ".intercalate (state.unresolved.map fun site =>
        site.key ++ " -> " ++ site.wanted) }

/-! ## When everything resolves -/

/-- A site that `resolve` records as missing. -/
def ReferenceSite.Missing (site : ReferenceSite) : Prop :=
  site.wanted ≠ "" ∧ site.wanted ∉ site.knownNames

instance (site : ReferenceSite) : Decidable site.Missing := inferInstanceAs (Decidable (_ ∧ _))

/-- The missing sites are collected in order. -/
theorem unresolved_foldl (sites : List ReferenceSite) : ∀ state : Resolution,
    (sites.foldl resolve state).unresolved = state.unresolved ++
      (sites.filter fun site => site.Missing).map fun site => ⟨site.key, site.wanted⟩ := by
  induction sites with
  | nil => intro state; simp
  | cons site sites ih =>
    intro state
    rw [List.foldl_cons, ih, resolve]
    by_cases hempty : site.wanted = ""
    · simp [hempty, ReferenceSite.Missing]
    · by_cases hknown : site.wanted ∈ site.knownNames <;>
        simp [hempty, hknown, ReferenceSite.Missing]

theorem unresolved_files (known : KnownRefs) (files : List (ParsedFile D)) : ∀ state : Resolution,
    (files.foldl (resolveFileRefs known) state).unresolved = state.unresolved ++
      ((files.flatMap (fileSites known)).filter fun site => site.Missing).map fun site =>
        ⟨site.key, site.wanted⟩ := by
  induction files with
  | nil => intro state; simp
  | cons file files ih =>
    intro state
    rw [List.foldl_cons, ih, resolveFileRefs, unresolved_foldl, List.flatMap_cons,
      List.filter_append, List.map_append, List.append_assoc]

/-- The pass succeeds exactly when no site is missing its element. -/
theorem resolveCrossFileReferences_ok_iff {project : ParsedProject D} :
    (∃ resolved, resolveCrossFileReferences project = .ok resolved) ↔
      ∀ file ∈ project.files, ∀ site ∈ fileSites (collectKnownRefs project) file,
        ¬ site.Missing := by
  have hnil : (project.files.foldl (resolveFileRefs (collectKnownRefs project)) {}).unresolved = [] ↔
      ∀ file ∈ project.files, ∀ site ∈ fileSites (collectKnownRefs project) file,
        ¬ site.Missing := by
    rw [unresolved_files, List.nil_append, List.map_eq_nil_iff, List.filter_eq_nil_iff]
    simp only [List.mem_flatMap, decide_eq_true_eq]
    exact ⟨fun h file hfile site hsite => h site ⟨file, hfile, hsite⟩,
      fun h site ⟨file, hfile, hsite⟩ => h file hfile site hsite⟩
  rw [← hnil, ← List.isEmpty_iff]
  constructor
  · rintro ⟨resolved, h⟩
    by_contra hne
    rw [resolveCrossFileReferences, if_neg hne] at h
    cases h
  · intro h
    exact ⟨_, if_pos h⟩

theorem mem_sitesOf {owner field : String} {refs : List String} {knownNames : StdSet}
    {ref : String} (h : ref ∈ refs) :
    ∃ site ∈ sitesOf owner field refs knownNames, site.wanted = ref ∧
      site.knownNames = knownNames := by
  obtain ⟨idx, hidx⟩ := List.mem_iff_getElem?.mp h
  have hmem : (ref, idx) ∈ refs.zipIdx := List.mem_zipIdx_iff_getElem?.mpr hidx
  exact ⟨_, List.mem_map_of_mem hmem, rfl, rfl⟩

/-- The known names of a type are the short names of its elements. -/
theorem mem_ofList_names {T : Type} [DomainElement T] {project : ParsedProject D}
    {member : ParsedFile D → List T} {ref : String} :
    ref ∈ (Std.ExtTreeSet.ofList (project.files.flatMap fun file => (member file).map shortName) :
      StdSet) ↔ ∃ x ∈ collectAll project member, shortName x = ref := by
  rw [Std.ExtTreeSet.mem_ofList, List.contains_iff_mem, ← List.map_flatMap, List.mem_map]
  rfl

/-- Every reference to a PDU or a signal of a resolved project names one. -/
theorem references_known {project resolved : ParsedProject D}
    (h : resolveCrossFileReferences project = .ok resolved) :
    (∀ frame ∈ collectAll project ParsedFile.frames, ∀ mapping ∈ frame.pdus,
      mapping.pduShortNameRef ≠ "" →
        ∃ pdu ∈ collectAll project ParsedFile.pdus, pdu.common.shortName = mapping.pduShortNameRef) ∧
    (∀ pdu ∈ collectAll project ParsedFile.pdus, ∀ mapping ∈ pdu.signalMappings,
      mapping.signalShortNameRef ≠ "" → ∃ signal ∈ collectAll project ParsedFile.signals,
        signal.common.shortName = mapping.signalShortNameRef) ∧
    ∀ group ∈ collectAll project ParsedFile.signalGroups, ∀ member ∈ group.members, member ≠ "" →
      ∃ signal ∈ collectAll project ParsedFile.signals, signal.common.shortName = member := by
  have hsites := resolveCrossFileReferences_ok_iff.mp ⟨resolved, h⟩
  have hknown (owner field : String) {file : ParsedFile D} {ref : String} {refs : List String}
      {knownNames : StdSet} (hfile : file ∈ project.files)
      (hsub : sitesOf owner field refs knownNames ⊆ fileSites (collectKnownRefs project) file)
      (href : ref ∈ refs) (hne : ref ≠ "") : ref ∈ knownNames := by
    obtain ⟨site, hsite, rfl, rfl⟩ := @mem_sitesOf owner field _ knownNames _ href
    by_contra hmissing
    exact hsites file hfile site (hsub hsite) ⟨hne, hmissing⟩
  refine ⟨fun frame hframe mapping hmapping hne => ?_, fun pdu hpdu mapping hmapping hne => ?_,
    fun group hgroup member hmember hne => ?_⟩
  · obtain ⟨file, hfile, hframe⟩ := List.mem_flatMap.mp hframe
    refine mem_ofList_names.mp (hknown frame.common.shortName "pdus" hfile (fun site hsite => ?_)
      (List.mem_map_of_mem hmapping) hne)
    simp only [fileSites, List.mem_append, List.mem_flatMap]
    exact .inl (.inl (.inl ⟨frame, hframe, .inr hsite⟩))
  · obtain ⟨file, hfile, hpdu⟩ := List.mem_flatMap.mp hpdu
    refine mem_ofList_names.mp (hknown pdu.common.shortName "signalMappings" hfile
      (fun site hsite => ?_) (List.mem_map_of_mem hmapping) hne)
    simp only [fileSites, List.mem_append, List.mem_flatMap]
    exact .inl (.inl (.inr ⟨pdu, hpdu, hsite⟩))
  · obtain ⟨file, hfile, hgroup⟩ := List.mem_flatMap.mp hgroup
    refine mem_ofList_names.mp (hknown group.common.shortName "members" hfile
      (fun site hsite => ?_) hmember hne)
    simp only [fileSites, List.mem_append, List.mem_flatMap]
    exact .inr ⟨group, hgroup, hsite⟩

end

end ParseX

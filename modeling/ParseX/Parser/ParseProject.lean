import Mathlib.Data.Char
import Mathlib.Data.List.Forall2
import Mathlib.Data.List.Lex
import ParseX.Parser.LazyDiscovery

/-! # Projects from entry points

The three modes in which `parseProject` finds its files, what order and repetition of the entry
points mean to them, and how two of them agree. -/
namespace ParseX
open Cpp

/-! ## Modes -/

inductive FileDiscoveryMode where
  | explicitList
  | directoryScan
  | lazyOnReference
  deriving DecidableEq, Repr

/-- What a project is parsed from: also the regular files right in a directory, none where it
cannot be listed. -/
structure ProjectSource (E D : Type) [Double D] extends FileSource E D where
  filesIn : String → Option (List String)

inductive ProjectFailure (E : Type) where
  | file (failure : E)
  | directory (path : String)
  | dangling (failure : DanglingFileReference)

section
variable {E D : Type} [Double D]

def LazyFailure.project : LazyFailure E → ProjectFailure E
  | .file failure => .file failure
  | .dangling failure => .dangling failure

/-- The files in the order they are parsed in, then the references between them: one failing file
fails the whole call. -/
def parseAll (source : ProjectSource E D) (paths : List String) :
    Except (ProjectFailure E) (ParsedProject D) :=
  match paths.mapM source.parse with
  | .error failure => .error (.file failure)
  | .ok files =>
    match resolveCrossFileReferences { files } with
    | .error failure => .error (.dangling failure)
    | .ok project => .ok project

/-- The directory whose files are scanned with an entry point. -/
def directoryOf (source : ProjectSource E D) (entry : String) : String :=
  if parentPath entry = "" then source.currentPath else parentPath entry

/-- One iteration of the loop that fills the set `discovered`. -/
def discoverEntry (source : ProjectSource E D) (discovered : StdSet) (entry : String) :
    Except (ProjectFailure E) StdSet :=
  match source.filesIn (directoryOf source entry) with
  | none => .error (.directory (directoryOf source entry))
  | some siblings => .ok ((discovered.insert (normalizePath source.currentPath entry)).insertMany
      ((siblings.filter isArxmlFile).map (normalizePath source.currentPath)))

def discover (source : ProjectSource E D) (entryPoints : List String) :
    Except (ProjectFailure E) StdSet :=
  entryPoints.foldlM (discoverEntry source) ∅

/-- `Parser::parseProject`. -/
def parseProject (source : ProjectSource E D) (entryPoints : List String) :
    FileDiscoveryMode → Except (ProjectFailure E) (ParsedProject D)
  | .lazyOnReference => (parseProjectLazy source.toFileSource entryPoints).mapError LazyFailure.project
  | .explicitList => parseAll source entryPoints
  | .directoryScan => discover source entryPoints >>= fun discovered =>
      parseAll source (sortedPaths discovered.toList)

/-! ## What a scan finds -/

/-- The paths an entry point brings to a scan: its own and those of its siblings. -/
def scannedWith (source : ProjectSource E D) (entry : String) : List String :=
  normalizePath source.currentPath entry ::
    (((source.filesIn (directoryOf source entry)).getD []).filter isArxmlFile).map
      (normalizePath source.currentPath)

variable {source : ProjectSource E D} {entryPoints : List String}

theorem discoverEntry_ok {discovered next : StdSet} {entry : String}
    (h : discoverEntry source discovered entry = .ok next) :
    (source.filesIn (directoryOf source entry)).isSome = true ∧
      ∀ path, path ∈ next ↔ path ∈ discovered ∨ path ∈ scannedWith source entry := by
  rw [discoverEntry] at h
  rw [scannedWith]
  cases hfiles : source.filesIn (directoryOf source entry) with
  | none =>
    rw [hfiles] at h
    cases h
  | some siblings =>
    rw [hfiles] at h
    obtain rfl := Except.ok.inj h
    refine ⟨rfl, fun path => ?_⟩
    rw [Std.ExtTreeSet.mem_insertMany_list, Std.ExtTreeSet.mem_insert, Std.LawfulEqOrd.compare_eq_iff_eq,
      List.contains_iff_mem, List.mem_cons, Option.getD_some, or_assoc, eq_comm, or_left_comm]

theorem foldlM_discoverEntry {discovered final : StdSet}
    (h : entryPoints.foldlM (discoverEntry source) discovered = .ok final) :
    (∀ entry ∈ entryPoints, (source.filesIn (directoryOf source entry)).isSome = true) ∧
      ∀ path, path ∈ final ↔ path ∈ discovered ∨ ∃ entry ∈ entryPoints, path ∈ scannedWith source entry := by
  induction entryPoints generalizing discovered with
  | nil =>
    obtain rfl := Except.ok.inj h
    simp
  | cons entry entryPoints ih =>
    rw [List.foldlM_cons] at h
    cases hentry : discoverEntry source discovered entry with
    | error failure =>
      rw [hentry] at h
      cases h
    | ok next =>
      rw [hentry] at h
      obtain ⟨hlisted, hnext⟩ := discoverEntry_ok hentry
      obtain ⟨hrest, hfinal⟩ := ih h
      refine ⟨List.forall_mem_cons.mpr ⟨hlisted, hrest⟩, fun path => ?_⟩
      rw [hfinal, hnext, or_assoc]
      simp

/-- A scan finds the entry points and their siblings, where the directories can be listed. -/
theorem discover_ok {discovered : StdSet} (h : discover source entryPoints = .ok discovered) :
    (∀ entry ∈ entryPoints, (source.filesIn (directoryOf source entry)).isSome = true) ∧
      ∀ path, path ∈ discovered ↔ ∃ entry ∈ entryPoints, path ∈ scannedWith source entry := by
  obtain ⟨hlisted, hmem⟩ := foldlM_discoverEntry h
  refine ⟨hlisted, fun path => ?_⟩
  rw [hmem]
  simp

theorem discover_total (h : ∀ entry ∈ entryPoints, (source.filesIn (directoryOf source entry)).isSome = true) :
    ∃ discovered, discover source entryPoints = .ok discovered := by
  rw [discover]
  generalize (∅ : StdSet) = discovered
  induction entryPoints generalizing discovered with
  | nil => exact ⟨discovered, rfl⟩
  | cons entry entryPoints ih =>
    obtain ⟨hentry, hrest⟩ := List.forall_mem_cons.mp h
    obtain ⟨siblings, hsiblings⟩ := Option.isSome_iff_exists.mp hentry
    rw [List.foldlM_cons, discoverEntry, hsiblings]
    exact ih hrest _

/-! ## The order of a scan -/

theorem pathElements_inj {path other : String} (h : pathElements path = pathElements other) :
    path = other := by
  have hjoin (path : String) : ['/'].intercalate (pathElements path) = path.toList := by
    have hsplit : pathElements path = path.toList.splitOn '/' := by
      rw [pathElements, List.splitOn]
      congr 1
    rw [hsplit, List.intercalate_splitOn]
  rw [← String.toList_inj, ← hjoin path, ← hjoin other, h]

/-- The order of paths in a `std::set`. -/
def BeforePath (path other : String) : Prop := pathElements path < pathElements other

theorem sortedPaths_pairwise {paths : List String} (h : paths.Nodup) :
    (sortedPaths paths).Pairwise BeforePath := by
  have htotal : Std.Total fun path other => ¬ pathElements other < pathElements path :=
    ⟨fun path other => by simpa only [not_lt] using le_total (pathElements path) (pathElements other)⟩
  have htrans : IsTrans String fun path other => ¬ pathElements other < pathElements path :=
    ⟨fun first second third hfirst hsecond => by
      simp only [not_lt] at hfirst hsecond ⊢
      exact hfirst.trans hsecond⟩
  have hsorted : (sortedPaths paths).Pairwise fun path other => ¬ pathElements other < pathElements path :=
    List.pairwise_insertionSort _ _
  have hnodup : (sortedPaths paths).Nodup := (List.perm_insertionSort _ paths).nodup_iff.mpr h
  refine (hsorted.and hnodup).imp fun {path other} hpair => ?_
  exact lt_of_le_of_ne (not_lt.mp hpair.1) fun heq => hpair.2 (pathElements_inj heq)

theorem mem_sortedPaths {paths : List String} {path : String} : path ∈ sortedPaths paths ↔ path ∈ paths :=
  (List.perm_insertionSort _ paths).mem_iff

/-- Paths in that order are told by which they are. -/
theorem BeforePath.eq_of_mem_iff {paths others : List String} (h : paths.Pairwise BeforePath)
    (h' : others.Pairwise BeforePath) (hmem : ∀ path, path ∈ paths ↔ path ∈ others) : paths = others := by
  have hanti : Std.Antisymm BeforePath :=
    ⟨fun path other hpath hother => absurd (hpath : pathElements path < _) (lt_asymm hother)⟩
  have hirrefl : Std.Irrefl BeforePath := ⟨fun path hpath => lt_irrefl _ hpath⟩
  exact h.eq_of_mem_iff h' hmem

theorem mapM_ok_iff {S T F : Type} {f : S → Except F T} : ∀ {xs : List S} {ys : List T},
    xs.mapM f = .ok ys ↔ List.Forall₂ (fun x y => f x = .ok y) xs ys
  | [], ys => by
    rw [List.mapM_nil, List.forall₂_nil_left_iff]
    exact ⟨fun h => (Except.ok.inj h).symm, fun h => h ▸ rfl⟩
  | x :: xs, ys => by
    rw [List.mapM_cons, List.forall₂_cons_left_iff]
    constructor
    · intro h
      cases hx : f x with
      | error failure =>
        rw [hx] at h
        cases h
      | ok y =>
        cases hxs : xs.mapM f with
        | error failure =>
          rw [hx, hxs] at h
          cases h
        | ok ys' =>
          rw [hx, hxs] at h
          exact ⟨y, ys', rfl, mapM_ok_iff.mp hxs, (Except.ok.inj h).symm⟩
    · rintro ⟨y, ys', hx, hxs, rfl⟩
      rw [hx, mapM_ok_iff.mpr hxs]
      rfl

/-- The results of a pass without failure are those of its items. -/
theorem mem_of_mapM_ok {S T F : Type} {f : S → Except F T} {xs : List S} {ys : List T}
    (h : xs.mapM f = .ok ys) : (∀ x ∈ xs, ∃ y ∈ ys, f x = .ok y) ∧ ∀ y ∈ ys, ∃ x ∈ xs, f x = .ok y := by
  induction mapM_ok_iff.mp h with
  | nil => simp
  | cons hx hrest ih =>
    obtain ⟨hleft, hright⟩ := ih (mapM_ok_iff.mpr hrest)
    refine ⟨List.forall_mem_cons.mpr ⟨⟨_, List.mem_cons_self, hx⟩, fun x hmem => ?_⟩,
      List.forall_mem_cons.mpr ⟨⟨_, List.mem_cons_self, hx⟩, fun y hmem => ?_⟩⟩
    · obtain ⟨y, hy, hfound⟩ := hleft x hmem
      exact ⟨y, List.mem_cons_of_mem _ hy, hfound⟩
    · obtain ⟨x, hx, hfound⟩ := hright y hmem
      exact ⟨x, List.mem_cons_of_mem _ hx, hfound⟩

theorem mapM_total {S T F : Type} {f : S → Except F T} {xs : List S} (h : ∀ x ∈ xs, ∃ y, f x = .ok y) :
    ∃ ys, xs.mapM f = .ok ys := by
  induction xs with
  | nil => exact ⟨[], rfl⟩
  | cons x xs ih =>
    obtain ⟨⟨y, hy⟩, hrest⟩ := List.forall_mem_cons.mp h
    obtain ⟨ys, hys⟩ := ih hrest
    exact ⟨y :: ys, mapM_ok_iff.mpr (.cons hy (mapM_ok_iff.mp hys))⟩

theorem parseAll_ok_iff {paths : List String} {project : ParsedProject D} :
    parseAll source paths = .ok project ↔ ∃ files, paths.mapM source.parse = .ok files ∧
      resolveCrossFileReferences { files } = .ok project := by
  rw [parseAll]
  cases paths.mapM source.parse with
  | error failure => simp
  | ok files => cases hresolve : resolveCrossFileReferences ({ files } : ParsedProject D) <;> simp [hresolve]

/-- A scan accepts entry points where the directories can be listed, every file that is reached parses,
each once in the order of their paths, and no reference dangles. -/
theorem directoryScan_ok_iff (source : ProjectSource E D) (entryPoints : List String)
    (project : ParsedProject D) :
    parseProject source entryPoints .directoryScan = .ok project ↔
      (∀ entry ∈ entryPoints, (source.filesIn (directoryOf source entry)).isSome = true) ∧
      ∃ paths : List String, paths.Pairwise BeforePath ∧
        (∀ path, path ∈ paths ↔ ∃ entry ∈ entryPoints, path ∈ scannedWith source entry) ∧
        ∃ files, paths.mapM source.parse = .ok files ∧
          resolveCrossFileReferences { files } = .ok project := by
  have hscan {discovered : StdSet} (h : discover source entryPoints = .ok discovered) :
      parseProject source entryPoints .directoryScan = parseAll source (sortedPaths discovered.toList) := by
    rw [parseProject, h]
    rfl
  have hsorted (discovered : StdSet) : (sortedPaths discovered.toList).Pairwise BeforePath :=
    sortedPaths_pairwise (discovered.distinct_toList.imp fun hne heq =>
      hne (by rw [heq]; exact Std.ReflCmp.compare_self))
  constructor
  · intro h
    cases hdiscover : discover source entryPoints with
    | error failure =>
      rw [parseProject, hdiscover] at h
      cases h
    | ok discovered =>
      rw [hscan hdiscover, parseAll_ok_iff] at h
      obtain ⟨hlisted, hmem⟩ := discover_ok hdiscover
      refine ⟨hlisted, sortedPaths discovered.toList, hsorted discovered, fun path => ?_, h⟩
      rw [mem_sortedPaths, Std.ExtTreeSet.mem_toList, hmem]
  · rintro ⟨hlisted, paths, hpaths, hreached, hparsed⟩
    obtain ⟨discovered, hdiscover⟩ := discover_total hlisted
    have hsame : sortedPaths discovered.toList = paths := by
      refine BeforePath.eq_of_mem_iff (hsorted discovered) hpaths fun path => ?_
      rw [mem_sortedPaths, Std.ExtTreeSet.mem_toList, (discover_ok hdiscover).2, hreached]
    rw [hscan hdiscover, hsame, parseAll_ok_iff]
    exact hparsed

/-- **A scan reaches a set of files**: neither the order nor the repetition of the entry points matters,
nor the order in which a directory lists its files. -/
theorem directoryScan_reordered {entryPoints' : List String} {filesIn' : String → Option (List String)}
    (hentries : ∀ entry, entry ∈ entryPoints ↔ entry ∈ entryPoints')
    (hlisted : ∀ directory, (source.filesIn directory).isSome = (filesIn' directory).isSome)
    (hlisting : ∀ directory path,
      path ∈ (source.filesIn directory).getD [] ↔ path ∈ (filesIn' directory).getD [])
    (project : ParsedProject D) :
    parseProject source entryPoints .directoryScan = .ok project ↔
      parseProject { source with filesIn := filesIn' } entryPoints' .directoryScan = .ok project := by
  have hscanned (entry path : String) : path ∈ scannedWith source entry ↔
      path ∈ scannedWith { source with filesIn := filesIn' } entry := by
    simp only [scannedWith, List.mem_cons, List.mem_map, List.mem_filter, directoryOf, hlisting]
  rw [directoryScan_ok_iff, directoryScan_ok_iff]
  simp only [directoryOf, hlisted, hentries, hscanned]

/-! ## Two modes -/

/-- An entry point and its normal form name the same file, which keeps the path it is parsed by. -/
def Coherent (source : ProjectSource E D) (entryPoints : List String) : Prop :=
  ∀ entry ∈ entryPoints, ∀ file, source.parse (normalizePath source.currentPath entry) = .ok file →
    source.parse entry = .ok { file with sourcePath := entry }

/-- Below the directories of the entry points lies no file that does not lie right in them. -/
def Flat (source : ProjectSource E D) (entryPoints : List String) : Prop :=
  ∀ entry ∈ entryPoints, ∀ path,
    path ∈ ((source.filesBelow (if parentPath entry = "" then source.currentPath
      else normalizePath source.currentPath (parentPath entry))).filter isArxmlFile).map
        (normalizePath source.currentPath) ↔
    path ∈ (((source.filesIn (directoryOf source entry)).getD []).filter isArxmlFile).map
      (normalizePath source.currentPath)

theorem definedNames_sourcePath (file : ParsedFile D) (path : String) (family : RefFamily) :
    definedNames { file with sourcePath := path } family = definedNames file family := by
  cases family <;> rfl

theorem referencedNames_sourcePath (file : ParsedFile D) (path : String) (family : RefFamily) :
    referencedNames { file with sourcePath := path } family = referencedNames file family := by
  cases family <;> rfl

/-- Candidates of a flat search are the paths of a scan that are no entry points. -/
theorem Flat.mem_candidates (h : Flat source entryPoints) {files : List (ParsedFile D)} {path : String} :
    path ∈ candidatesOf source.toFileSource entryPoints files ↔
      (∃ entry ∈ entryPoints, path ∈ scannedWith source entry) ∧
        path ∉ entryPoints.map (normalizePath source.currentPath) := by
  have hdirectories {p : String → Prop} : (∃ directory, directory ∈
      (Std.ExtTreeSet.ofList (entryPoints.map fun entry => if parentPath entry = "" then source.currentPath
        else normalizePath source.currentPath (parentPath entry)) : StdSet).toList ∧ p directory) ↔
      ∃ entry ∈ entryPoints, p (if parentPath entry = "" then source.currentPath
        else normalizePath source.currentPath (parentPath entry)) := by
    simp [Std.ExtTreeSet.mem_toList, Std.ExtTreeSet.mem_ofList]
  rw [candidatesOf, enumerateCandidates, mem_sortedPaths, List.mem_filter, entryExpansion,
    List.filter_flatMap, List.map_flatMap, List.mem_flatMap, hdirectories, decide_eq_true_eq,
    Std.ExtTreeSet.mem_ofList, List.contains_iff_mem]
  refine and_congr_left fun hnot => exists_congr fun entry => and_congr_right fun hentry => ?_
  rw [h entry hentry path, scannedWith, List.mem_cons]
  refine ⟨.inr, fun hpath => hpath.resolve_left fun heq => hnot ?_⟩
  exact List.mem_map.mpr ⟨entry, hentry, heq.symm⟩

/-- Files that lack no name resolve. -/
theorem resolve_of_not_lacks {files : List (ParsedFile D)} (h : ∀ family name, ¬ Lacks files family name) :
    ∃ project, resolveCrossFileReferences { files } = .ok project := by
  refine resolveCrossFileReferences_ok_iff.mpr fun file hfile site hsite hmissing => ?_
  obtain ⟨family, hlacks⟩ := missing_names.mp ⟨file, hfile, site, hsite, hmissing, rfl⟩
  exact h family _ hlacks

/-- The loop ends where a round adds nothing, with the files that joined. -/
theorem expandProject_settled {source : FileSource E D} {files : List (ParsedFile D)}
    (h : Saturation.Settles (expansionRound source (candidatesOf source entryPoints files))
      kMaxLazyIterations (entryExpansion source entryPoints files)) :
    ∃ rounds : List (Round D), Expanded source (candidatesOf source entryPoints files)
        (entryExpansion source entryPoints files) rounds (expandProject source entryPoints files).1 ∧
      (expansionRound source (candidatesOf source entryPoints files)
        (expandProject source entryPoints files).1).1 = false := by
  have hidle (expansion : Expansion D)
      (hstop : (expansionRound source (candidatesOf source entryPoints files) expansion).1 = false) :
      (expansionRound source (candidatesOf source entryPoints files) expansion).2 = expansion := by
    rcases expansionRound_cases source (candidatesOf source entryPoints files) expansion with
      ⟨hadvance, -⟩ | ⟨hsame, -⟩
    · rw [hadvance] at hstop
      cases hstop
    · rw [hsame]
  obtain ⟨n, last, hadvances, hlast, hend, -⟩ := Saturation.run_of_settles hidle h
  obtain ⟨rounds, -, hexpanded⟩ := Expanded.of_advances hadvances
  rw [expandProject, hend]
  exact ⟨rounds, hexpanded, hlast⟩

/-- **Two modes agree.** In flat directories the references are resolved lazily wherever a scan resolves
them, from files of the scan alone. -/
theorem lazy_of_scan {scanned : ParsedProject D}
    (hscan : parseProject source entryPoints .directoryScan = .ok scanned)
    (hflat : Flat source entryPoints) (hcoherent : Coherent source entryPoints)
    (hkeeps : source.toFileSource.KeepsDefining)
    (hrounds : ∀ files, entryPoints.mapM source.parse = .ok files →
      Saturation.Settles (expansionRound source.toFileSource
        (candidatesOf source.toFileSource entryPoints files)) kMaxLazyIterations
        (entryExpansion source.toFileSource entryPoints files)) :
    ∃ project, parseProject source entryPoints .lazyOnReference = .ok project ∧
      ∀ file ∈ project.files, ∃ other ∈ scanned.files,
        file = { other with sourcePath := file.sourcePath } := by
  obtain ⟨-, paths, -, hreached, scannedFiles, hparsed, hresolved⟩ := (directoryScan_ok_iff ..).mp hscan
  obtain ⟨hread, hscannedFrom⟩ := mem_of_mapM_ok hparsed
  obtain ⟨hscanned, hcomplete⟩ := resolve_ok hresolved
  rw [hscanned]
  -- the entry points parse by the paths they are given by
  have hentry : ∀ entry ∈ entryPoints, ∃ other ∈ scannedFiles,
      source.parse (normalizePath source.currentPath entry) = .ok other ∧
      source.parse entry = .ok { other with sourcePath := entry } := by
    intro entry hentry
    obtain ⟨other, hother, hfound⟩ := hread _ ((hreached _).mpr ⟨entry, hentry, List.mem_cons_self⟩)
    exact ⟨other, hother, hfound, hcoherent entry hentry other hfound⟩
  obtain ⟨files, hfiles⟩ : ∃ files, entryPoints.mapM source.parse = .ok files := by
    refine mapM_total fun entry hmem => ?_
    obtain ⟨other, -, -, hfound⟩ := hentry entry hmem
    exact ⟨_, hfound⟩
  obtain ⟨hleft, hright⟩ := mem_of_mapM_ok hfiles
  obtain ⟨rounds, hexpanded, hstop⟩ := expandProject_settled (hrounds files hfiles)
  have hgathered : (expandProject source.toFileSource entryPoints files).1.project.files =
      files ++ rounds.flatten.map Prod.snd := hexpanded.joined.files
  -- what is gathered was scanned
  have hfrom : ∀ file ∈ (expandProject source.toFileSource entryPoints files).1.project.files,
      ∃ other ∈ scannedFiles, file = { other with sourcePath := file.sourcePath } := by
    intro file hfile
    rw [hgathered, List.mem_append] at hfile
    rcases hfile with hfile | hfile
    · obtain ⟨entry, hmem, hfound⟩ := hright file hfile
      obtain ⟨other, hother, -, hsame⟩ := hentry entry hmem
      obtain rfl := Except.ok.inj (hfound.symm.trans hsame)
      exact ⟨other, hother, rfl⟩
    · obtain ⟨joined, hjoined, rfl⟩ := List.mem_map.mp hfile
      obtain ⟨hcandidate, hfound⟩ := hexpanded.candidate joined hjoined
      obtain ⟨other, hother, hsame⟩ := hread _ ((hreached _).mpr (hflat.mem_candidates.mp hcandidate).1)
      obtain rfl := Except.ok.inj (hfound.symm.trans hsame)
      exact ⟨joined.2, hother, rfl⟩
  -- a name that is lacking would be lacking in the scan
  have hnone (family : RefFamily) (name : String) :
      ¬ Lacks (expandProject source.toFileSource entryPoints files).1.project.files family name := by
    intro hlacks
    obtain ⟨hne, ⟨file, hfile, href⟩, hundefined⟩ := hlacks
    obtain ⟨other, hother, hsame⟩ := hfrom file hfile
    rw [hsame, referencedNames_sourcePath] at href
    have hdefined : ¬ ∀ file ∈ scannedFiles, name ∉ definedNames file family := fun h =>
      hcomplete family name ⟨hne, ⟨other, hother, href⟩, h⟩
    push Not at hdefined
    obtain ⟨definer, hdefiner, hdefines⟩ := hdefined
    obtain ⟨path, hpath, hfound⟩ := hscannedFrom definer hdefiner
    by_cases hnamed : path ∈ entryPoints.map (normalizePath source.currentPath)
    · obtain ⟨entry, hmem, rfl⟩ := List.mem_map.mp hnamed
      obtain ⟨again, -, hagain, hparse⟩ := hentry entry hmem
      obtain rfl := Except.ok.inj (hfound.symm.trans hagain)
      obtain ⟨file', hfile', hparse'⟩ := hleft entry hmem
      obtain rfl := Except.ok.inj (hparse.symm.trans hparse')
      refine hundefined _ ?_ ((definedNames_sourcePath definer entry family).symm ▸ hdefines)
      rw [hgathered]
      exact List.mem_append_left _ hfile'
    · have hcandidate : path ∈ candidatesOf source.toFileSource entryPoints files :=
        hflat.mem_candidates.mpr ⟨(hreached path).mp hpath, hnamed⟩
      exact hexpanded.not_defined hkeeps hstop (not_mem_parsed_of_candidate hcandidate)
        ⟨hne, ⟨file, hfile, by rw [hsame, referencedNames_sourcePath]; exact href⟩, hundefined⟩
        hcandidate hfound hdefines
  obtain ⟨project, hproject⟩ := resolve_of_not_lacks hnone
  have hlast : resolveCrossFileReferences (expandProject source.toFileSource entryPoints files).1.project =
      .ok project := hproject
  refine ⟨project, ?_, ?_⟩
  · rw [parseProject, parseProjectLazy, hfiles]
    simp only [hlast]
    rfl
  · rw [(resolve_ok hlast).1]
    exact hfrom

end

/-! ## A flat directory -/

def statusFile : ParsedFile WholeDouble := { pduFile with sourcePath := "/can/status.arxml" }

def flatDirectory : ProjectSource Unit WholeDouble where
  currentPath := "/"
  filesBelow directory := if directory = "/can" then ["/can/frames.arxml", "/can/status.arxml"] else []
  filesIn directory :=
    if directory = "/can" then some ["/can/status.arxml", "/can/frames.arxml", "/can/notes.txt"] else none
  bytesOf path :=
    if path = "/can/status.arxml" then utf8 "<PDU><SHORT-NAME>Status</SHORT-NAME></PDU>"
    else utf8 "<FRAME/>"
  parse path :=
    if path = "/can/frames.arxml" then .ok frameFile
    else if path = "/can/status.arxml" then .ok statusFile
    else .error ()

theorem flatDirectory_keepsDefining : flatDirectory.KeepsDefining := by
  intro path file wanted hparse hdefines
  obtain ⟨family, name, hname, hwanted⟩ := definesWantedName_iff.mp hdefines
  have hraw : rawDefinesShortName (flatDirectory.bytesOf path) (utf8 name) = true := by
    by_cases hframes : path = "/can/frames.arxml"
    · subst hframes
      obtain rfl : frameFile = file := Except.ok.inj hparse
      cases family <;> cases hname
    · by_cases hpdus : path = "/can/status.arxml"
      · subst hpdus
        obtain rfl : statusFile = file := Except.ok.inj hparse
        have hall : ∀ name ∈ statusFile.pdus.map shortName, rawDefinesShortName
            (flatDirectory.bytesOf "/can/status.arxml") (utf8 name) = true := by decide +kernel
        cases family with
        | pdus => exact hall name hname
        | signals => cases hname
        | ecus => cases hname
      · simp [flatDirectory, hframes, hpdus] at hparse
  rw [candidateDefinesAny, Bool.or_eq_true, List.any_eq_true]
  exact .inr ⟨name, mem_flattenWanted.mpr ⟨family, hwanted⟩, hraw⟩

theorem lazy_of_scan_flatDirectory : ∃ scanned project,
    parseProject flatDirectory ["/can/frames.arxml"] .directoryScan = .ok scanned ∧
    parseProject flatDirectory ["/can/frames.arxml"] .lazyOnReference = .ok project ∧
      ∀ file ∈ project.files, ∃ other ∈ scanned.files,
        file = { other with sourcePath := file.sourcePath } := by
  have hnormal : normalizePath "/" "/can/frames.arxml" = "/can/frames.arxml" := by decide +kernel
  have hsucceeds : (parseProject flatDirectory ["/can/frames.arxml"] .directoryScan).toOption.isSome = true := by
    decide +kernel
  cases hscan : parseProject flatDirectory ["/can/frames.arxml"] .directoryScan with
  | error failure =>
    rw [hscan] at hsucceeds
    cases hsucceeds
  | ok scanned =>
    have hflat : Flat flatDirectory ["/can/frames.arxml"] := by
      intro entry hentry path
      obtain rfl := List.mem_singleton.mp hentry
      have hbelow : ((flatDirectory.filesBelow "/can").filter isArxmlFile).map (normalizePath "/") =
          ["/can/frames.arxml", "/can/status.arxml"] := by decide +kernel
      have hin : (((flatDirectory.filesIn "/can").getD []).filter isArxmlFile).map (normalizePath "/") =
          ["/can/status.arxml", "/can/frames.arxml"] := by decide +kernel
      have hdirectory : (if parentPath "/can/frames.arxml" = "" then flatDirectory.currentPath
          else normalizePath flatDirectory.currentPath (parentPath "/can/frames.arxml")) = "/can" := by
        decide +kernel
      have hparent : directoryOf flatDirectory "/can/frames.arxml" = "/can" := by decide +kernel
      rw [hdirectory, hparent, show flatDirectory.currentPath = "/" from rfl, hbelow, hin]
      exact (List.Perm.swap ..).mem_iff
    have hcoherent : Coherent flatDirectory ["/can/frames.arxml"] := by
      intro entry hentry file hfile
      rw [List.mem_singleton.mp hentry] at hfile ⊢
      rw [show flatDirectory.currentPath = "/" from rfl, hnormal] at hfile
      obtain rfl : frameFile = file := Except.ok.inj hfile
      rfl
    obtain ⟨project, hproject, hfrom⟩ := lazy_of_scan hscan hflat hcoherent flatDirectory_keepsDefining
      fun files hfiles => by
        obtain rfl : [frameFile] = files := Except.ok.inj hfiles
        exact ⟨1, by decide, _, .tail .refl (by decide +kernel), by decide +kernel⟩
    exact ⟨scanned, project, rfl, hproject, hfrom⟩

theorem directoryScan_reordered_flatDirectory : ∃ project,
    parseProject flatDirectory ["/can/frames.arxml"] .directoryScan = .ok project ∧
    parseProject { flatDirectory with
        filesIn := fun directory => (flatDirectory.filesIn directory).map List.reverse }
      ["/can/frames.arxml", "/can/frames.arxml"] .directoryScan = .ok project := by
  have hsucceeds : (parseProject flatDirectory ["/can/frames.arxml"] .directoryScan).toOption.isSome = true := by
    decide +kernel
  cases hscan : parseProject flatDirectory ["/can/frames.arxml"] .directoryScan with
  | error failure =>
    rw [hscan] at hsucceeds
    cases hsucceeds
  | ok project =>
    refine ⟨project, rfl, (directoryScan_reordered (fun entry => ?_) (fun directory => ?_)
      (fun directory path => ?_) project).mp hscan⟩
    · simp
    · rw [Option.isSome_map]
    · cases flatDirectory.filesIn directory <;> simp

end ParseX

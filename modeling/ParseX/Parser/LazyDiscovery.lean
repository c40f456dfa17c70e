import Mathlib.Algebra.BigOperators.Group.List.Basic
import Mathlib.Data.List.Dedup
import Mathlib.Data.List.Perm.Subperm
import Mathlib.Data.List.Sort
import ParseX.Base.Saturation
import ParseX.Parser.Prefilter

/-! # Discovery of referenced files

`LazyOnReference`: files below the directories of the entry points join the
project when they define a name that it still lacks. -/
namespace ParseX
open Cpp

/-! ## Paths -/

def pathElements (path : String) : List (List Char) := path.toList.splitOnP (· = '/')

/-- `std::filesystem::absolute` and `lexically_normal` of a POSIX path. -/
def normalizePath (currentPath path : String) : String :=
  let full := if path.toList.head? = some '/' then path else currentPath ++ "/" ++ path
  let normal := (pathElements full).foldl (fun out element =>
    if element = [] ∨ element = ['.'] then out
    else if element = ['.', '.'] then out.dropLast
    else out ++ [element]) []
  let isDirectory := (pathElements full).getLast? ∈ [some [], some ['.'], some ['.', '.']]
  "/" ++ "/".intercalate (normal.map String.ofList) ++
    if isDirectory ∧ normal ≠ [] then "/" else ""

/-- `std::filesystem::path::extension`. -/
def extension (path : String) : String :=
  let filename := (pathElements path).getLast?.getD []
  let stem := filename.rdropWhile (· ≠ '.')
  if filename = ['.', '.'] ∨ stem.length ≤ 1 then ""
  else String.ofList ('.' :: filename.rtakeWhile (· ≠ '.'))

/-- Case-insensitive: some tools emit .ARXML / .ArXml. -/
def isArxmlFile (path : String) : Bool :=
  (extension path).toList.map Char.toLower == ['.', 'a', 'r', 'x', 'm', 'l']

/-- Paths of files by their elements. -/
def sortedPaths (paths : List String) : List String :=
  paths.insertionSort fun path other => ¬ pathElements other < pathElements path

/-! ## The expansion -/

def kMaxLazyIterations : Nat := 50

inductive ExpansionStep where
  | complete
  | advanced
  | stuck
  deriving DecidableEq, Repr

/-- What the discovery reads: the working directory, the regular files that a
directory holds at any depth, their bytes and what parsing them gives. -/
structure FileSource (E D : Type) [Double D] where
  currentPath : String
  filesBelow : String → List String
  bytesOf : String → List UInt8
  parse : String → Except E (ParsedFile D)

/-- The project and the files that joined it. -/
structure Expansion (D : Type) [Double D] where
  project : ParsedProject D
  parsed : StdSet

inductive LazyFailure (E : Type) where
  | file (failure : E)
  | dangling (failure : DanglingFileReference)

section
variable {E D : Type} [Double D]

def enumerateCandidates (source : FileSource E D) (entryPoints : List String) (parsed : StdSet) :
    List String :=
  let searchDirs : StdSet := .ofList (entryPoints.map fun entry =>
    if parentPath entry = "" then source.currentPath
    else normalizePath source.currentPath (parentPath entry))
  sortedPaths (((searchDirs.toList.flatMap source.filesBelow).filter isArxmlFile).map
    (normalizePath source.currentPath) |>.filter fun path => path ∉ parsed)

/-- The body of the loop over the candidates, with the flag `added`. -/
def probe (source : FileSource E D) (wanted : WantedRefs) (state : Bool × Expansion D)
    (candidate : String) : Bool × Expansion D :=
  if candidate ∈ state.2.parsed then state
  else if !candidateDefinesAny (source.bytesOf candidate) wanted then state
  else
    match source.parse candidate with
    | .error _ => state
    | .ok file =>
      if !definesWantedName file wanted then state
      else (true, {
        project := { state.2.project with
          files := state.2.project.files ++ [file] }
        parsed := state.2.parsed.insert candidate })

def expandProjectOnce (source : FileSource E D) (candidates : List String)
    (expansion : Expansion D) : ExpansionStep × Expansion D :=
  let wanted := collectWantedRefs expansion.project
  if wanted.empty then (.complete, expansion)
  else
    let state := candidates.foldl (probe source wanted) (false, expansion)
    (if state.1 then .advanced else .stuck, state.2)

/-- The project of the entry points alone. -/
def entryExpansion (source : FileSource E D) (entryPoints : List String)
    (files : List (ParsedFile D)) : Expansion D where
  project := { files }
  parsed := .ofList (entryPoints.map (normalizePath source.currentPath))

/-- One iteration: whether the loop goes on, and the project it goes on with. -/
def expansionRound (source : FileSource E D) (candidates : List String)
    (expansion : Expansion D) : Bool × Expansion D :=
  let step := expandProjectOnce source candidates expansion
  (step.1 == .advanced, step.2)

/-- The candidates of a call. -/
def candidatesOf (source : FileSource E D) (entryPoints : List String)
    (files : List (ParsedFile D)) : List String :=
  enumerateCandidates source entryPoints (entryExpansion source entryPoints files).parsed

/-- The loop: the expansion it ends with and the number of its iterations. -/
def expandProject (source : FileSource E D) (entryPoints : List String)
    (files : List (ParsedFile D)) : Expansion D × Nat :=
  Saturation.run (expansionRound source (candidatesOf source entryPoints files))
    kMaxLazyIterations (entryExpansion source entryPoints files)

/-- `Parser::parseProjectLazy`. -/
def parseProjectLazy (source : FileSource E D) (entryPoints : List String) :
    Except (LazyFailure E) (ParsedProject D) :=
  match entryPoints.mapM source.parse with
  | .error failure => .error (.file failure)
  | .ok files =>
    match resolveCrossFileReferences (expandProject source entryPoints files).1.project with
    | .error failure => .error (.dangling failure)
    | .ok project => .ok project

/-! ## One round -/

/-- The files that join in a round, each with its path. -/
abbrev Round (D : Type) [Double D] := List (String × ParsedFile D)

/-- The expansion after the files joined. -/
structure Joined (expansion after : Expansion D) (round : Round D) : Prop where
  files : after.project.files = expansion.project.files ++ round.map Prod.snd
  parsed : ∀ path, path ∈ after.parsed ↔ path ∈ expansion.parsed ∨ path ∈ round.map Prod.fst
  nodup : (round.map Prod.fst).Nodup
  fresh : ∀ path ∈ round.map Prod.fst, path ∉ expansion.parsed

theorem Joined.nil (expansion : Expansion D) : Joined expansion expansion [] :=
  ⟨by simp, by simp, by simp, by simp⟩

theorem Joined.cons {expansion middle after : Expansion D} {path : String} {file : ParsedFile D}
    {round : Round D} (hfirst : Joined expansion middle [(path, file)])
    (hrest : Joined middle after round) : Joined expansion after ((path, file) :: round) where
  files := by rw [hrest.files, hfirst.files, List.append_assoc]; rfl
  parsed other := by
    rw [hrest.parsed, hfirst.parsed]
    simp [or_assoc]
  nodup := by
    refine List.nodup_cons.mpr ⟨fun hmem => ?_, hrest.nodup⟩
    exact hrest.fresh path hmem ((hfirst.parsed path).mpr (.inr (by simp)))
  fresh other hother := by
    rcases List.mem_cons.mp hother with rfl | hother
    · exact hfirst.fresh _ (by simp)
    · exact fun hmem => hrest.fresh other hother ((hfirst.parsed other).mpr (.inl hmem))

variable {source : FileSource E D} {wanted : WantedRefs}

/-- A candidate that the filter keeps, that parses and defines a wanted name. -/
def Wants (source : FileSource E D) (wanted : WantedRefs) (path : String) (file : ParsedFile D) :
    Prop :=
  candidateDefinesAny (source.bytesOf path) wanted = true ∧ source.parse path = .ok file ∧
    definesWantedName file wanted = true

/-- A candidate is skipped, or joins. -/
theorem probe_cases (state : Bool × Expansion D) (candidate : String) :
    (probe source wanted state candidate = state ∧
      (candidate ∉ state.2.parsed → ∀ file, ¬ Wants source wanted candidate file)) ∨
    ∃ file after, probe source wanted state candidate = (true, after) ∧
      Wants source wanted candidate file ∧ Joined state.2 after [(candidate, file)] := by
  rw [probe]
  split
  case isTrue hparsed => exact .inl ⟨rfl, fun h => absurd hparsed h⟩
  case isFalse hparsed =>
    split
    case isTrue hfilter =>
      refine .inl ⟨rfl, fun _ file hwants => ?_⟩
      rw [hwants.1] at hfilter
      cases hfilter
    case isFalse hfilter =>
      cases hparse : source.parse candidate with
      | error failure =>
        refine .inl ⟨rfl, fun _ file hwants => ?_⟩
        rw [hwants.2.1] at hparse
        cases hparse
      | ok file =>
        dsimp only
        split
        case isTrue hdefines =>
          refine .inl ⟨rfl, fun _ other hwants => ?_⟩
          rw [hwants.2.1] at hparse
          obtain rfl := Except.ok.inj hparse
          rw [hwants.2.2] at hdefines
          cases hdefines
        case isFalse hdefines =>
          refine .inr ⟨file, _, rfl, ⟨by simpa using hfilter, hparse, by simpa using hdefines⟩, ?_⟩
          exact {
            files := rfl
            parsed := fun path => by
              rw [Std.ExtTreeSet.mem_insert, Std.LawfulEqOrd.compare_eq_iff_eq]
              simp [or_comm, eq_comm]
            nodup := by simp
            fresh := by simpa using hparsed }

/-- A pass over the candidates: the files that joined, and that no other
candidate could. -/
theorem foldl_probe (candidates : List String) : ∀ state : Bool × Expansion D,
    ∃ round : Round D, Joined state.2 (candidates.foldl (probe source wanted) state).2 round ∧
      (round = [] ∧ candidates.foldl (probe source wanted) state = state ∨
        round ≠ [] ∧ (candidates.foldl (probe source wanted) state).1 = true) ∧
      (∀ entry ∈ round, entry.1 ∈ candidates ∧ Wants source wanted entry.1 entry.2) ∧
      ∀ candidate ∈ candidates,
        candidate ∉ (candidates.foldl (probe source wanted) state).2.parsed →
        ∀ file, ¬ Wants source wanted candidate file := by
  induction candidates with
  | nil => exact fun state => ⟨[], .nil _, .inl ⟨rfl, rfl⟩, by simp, by simp⟩
  | cons candidate candidates ih =>
    intro state
    rw [List.foldl_cons]
    rcases probe_cases state candidate with ⟨hskip, hnone⟩ | ⟨file, after, hjoin, hwants, hjoined⟩
    · obtain ⟨round, hround, hadded, hfiles, hrest⟩ := ih state
      rw [hskip]
      refine ⟨round, hround, hadded, fun entry hentry => ?_, fun other hother hparsed => ?_⟩
      · exact (hfiles entry hentry).imp_left (List.mem_cons_of_mem _)
      · rcases List.mem_cons.mp hother with rfl | hother
        · exact hnone fun hmem => hparsed ((hround.parsed _).mpr (.inl hmem))
        · exact hrest other hother hparsed
    · obtain ⟨round, hround, hadded, hfiles, hrest⟩ := ih (true, after)
      rw [hjoin]
      have htrue : (candidates.foldl (probe source wanted) (true, after)).1 = true := by
        rcases hadded with ⟨-, heq⟩ | ⟨-, htrue⟩
        · rw [heq]
        · exact htrue
      refine ⟨_, hjoined.cons hround, .inr ⟨List.cons_ne_nil _ _, htrue⟩, fun entry hentry => ?_,
        fun other hother hparsed => ?_⟩
      · rcases List.mem_cons.mp hentry with rfl | hentry
        · exact ⟨List.mem_cons_self, hwants⟩
        · exact (hfiles entry hentry).imp_left (List.mem_cons_of_mem _)
      · rcases List.mem_cons.mp hother with rfl | hother
        · refine absurd ((hround.parsed _).mpr (.inl ((hjoined.parsed _).mpr (.inr ?_)))) hparsed
          simp
        · exact hrest other hother hparsed

variable {candidates : List String} {expansion : Expansion D}

/-- Either kind of round: files that define a lacking name joined, or nothing
changed and no candidate could join. -/
theorem expansionRound_cases (source : FileSource E D) (candidates : List String)
    (expansion : Expansion D) :
    ((expansionRound source candidates expansion).1 = true ∧ ∃ round : Round D, round ≠ [] ∧
      Joined expansion (expansionRound source candidates expansion).2 round ∧
      ∀ entry ∈ round, entry.1 ∈ candidates ∧
        Wants source (collectWantedRefs expansion.project) entry.1 entry.2) ∨
    (expansionRound source candidates expansion = (false, expansion) ∧
      ∀ candidate ∈ candidates, candidate ∉ expansion.parsed → ∀ file,
        ¬ Wants source (collectWantedRefs expansion.project) candidate file) := by
  rw [expansionRound, expandProjectOnce]
  dsimp only
  split
  case isTrue hempty =>
    refine .inr ⟨rfl, fun candidate _ _ file hwants => ?_⟩
    obtain ⟨family, name, -, hname⟩ := definesWantedName_iff.mp hwants.2.2
    exact WantedRefs.empty_iff.mp hempty family name hname
  case isFalse =>
    obtain ⟨round, hround, hadded, hfiles, hrest⟩ :=
      @foldl_probe E D _ source (collectWantedRefs expansion.project) candidates (false, expansion)
    rcases hadded with ⟨rfl, heq⟩ | ⟨hne, htrue⟩
    · refine .inr ⟨?_, fun candidate hcandidate hparsed => ?_⟩
      · rw [heq]
        rfl
      · rw [heq] at hrest
        exact hrest candidate hcandidate hparsed
    · refine .inl ⟨?_, round, hne, hround, hfiles⟩
      rw [htrue]
      rfl

/-! ## The whole expansion -/

/-- The files that joined, round by round. -/
structure Expanded (source : FileSource E D) (candidates : List String) (start : Expansion D)
    (rounds : List (Round D)) (expansion : Expansion D) : Prop where
  /-- The files follow the entry points. -/
  joined : Joined start expansion rounds.flatten
  /-- Every file is a candidate that parses. -/
  candidate : ∀ entry ∈ rounds.flatten, entry.1 ∈ candidates ∧ source.parse entry.1 = .ok entry.2
  /-- A file defines a name that the project lacks at the start of its round. -/
  lacking : ∀ (i : Nat) (round : Round D), rounds[i]? = some round → ∀ entry ∈ round,
    ∃ family, ∃ name ∈ definedNames entry.2 family,
      Lacks (start.project.files ++ (rounds.take i).flatten.map Prod.snd) family name
  nonempty : ∀ round ∈ rounds, round ≠ []

theorem Joined.append {expansion middle after : Expansion D} {first second : Round D}
    (hfirst : Joined expansion middle first) (hsecond : Joined middle after second) :
    Joined expansion after (first ++ second) where
  files := by rw [hsecond.files, hfirst.files, List.map_append, List.append_assoc]
  parsed path := by rw [hsecond.parsed, hfirst.parsed, List.map_append, List.mem_append, or_assoc]
  nodup := by
    rw [List.map_append]
    refine List.nodup_append'.mpr ⟨hfirst.nodup, hsecond.nodup, fun path hpath hother => ?_⟩
    exact hsecond.fresh path hother ((hfirst.parsed path).mpr (.inr hpath))
  fresh path hpath := by
    rw [List.map_append, List.mem_append] at hpath
    rcases hpath with hpath | hpath
    · exact hfirst.fresh path hpath
    · exact fun hmem => hsecond.fresh path hpath ((hfirst.parsed path).mpr (.inl hmem))

variable {start : Expansion D} {rounds : List (Round D)}

/-- One more round. -/
theorem Expanded.step (h : Expanded source candidates start rounds expansion)
    (hadvance : (expansionRound source candidates expansion).1 = true) :
    ∃ round : Round D, Expanded source candidates start (rounds ++ [round])
      (expansionRound source candidates expansion).2 := by
  obtain ⟨-, round, hne, hround, hwants⟩ | ⟨hstop, -⟩ :=
    expansionRound_cases source candidates expansion
  · have hflatten : (rounds ++ [round]).flatten = rounds.flatten ++ round := by simp
    refine ⟨round, ⟨hflatten ▸ h.joined.append hround, fun entry hentry => ?_, ?_, ?_⟩⟩
    · rw [hflatten, List.mem_append] at hentry
      rcases hentry with hentry | hentry
      · exact h.candidate entry hentry
      · exact ⟨(hwants entry hentry).1, (hwants entry hentry).2.2.1⟩
    · intro i other hother entry hentry
      by_cases hi : i < rounds.length
      · rw [List.getElem?_append_left hi] at hother
        rw [List.take_append_of_le_length hi.le]
        exact h.lacking i other hother entry hentry
      · obtain ⟨rfl, rfl⟩ : i = rounds.length ∧ other = round := by
          rw [List.getElem?_append_right (by omega)] at hother
          have := (List.getElem?_eq_some_iff.mp hother).1
          rw [List.length_singleton] at this
          rw [show i - rounds.length = 0 by omega] at hother
          exact ⟨by omega, (Option.some.inj hother).symm⟩
        obtain ⟨family, name, hname, hwanted⟩ :=
          definesWantedName_iff.mp (hwants entry hentry).2.2.2
        refine ⟨family, name, hname, ?_⟩
        rw [List.take_left, ← h.joined.files]
        exact mem_collectWantedRefs.mp hwanted
    · intro other hother
      rcases List.mem_append.mp hother with hother | hother
      · exact h.nonempty other hother
      · rw [List.mem_singleton.mp hother]
        exact hne
  · rw [hstop] at hadvance
    cases hadvance

/-- So many advancing rounds, each with its files. -/
theorem Expanded.of_advances {n : Nat}
    (h : Saturation.Advances (expansionRound source candidates) start n expansion) :
    ∃ rounds : List (Round D), rounds.length = n ∧
      Expanded source candidates start rounds expansion := by
  refine @Saturation.Advances.invariant _ _ (fun n expansion => ∃ rounds : List (Round D),
    rounds.length = n ∧ Expanded source candidates start rounds expansion) _ _ _ h ?_ ?_
  · exact ⟨[], rfl, ⟨.nil _, by simp, by simp, by simp⟩⟩
  · rintro n expansion ⟨rounds, rfl, hrounds⟩ hadvance
    obtain ⟨round, hround⟩ := hrounds.step hadvance
    exact ⟨_, by simp, hround⟩

/-- Every round takes a candidate of its own. -/
theorem Expanded.length_le (h : Expanded source candidates start rounds expansion) :
    rounds.length ≤ candidates.dedup.length := by
  have hflatten : rounds.length ≤ rounds.flatten.length := by
    rw [List.length_flatten]
    have hpositive : ∀ size ∈ rounds.map List.length, 1 ≤ size := by
      intro size hsize
      obtain ⟨round, hround, rfl⟩ := List.mem_map.mp hsize
      exact List.length_pos_iff.mpr (h.nonempty round hround)
    have := List.length_le_sum_of_one_le _ hpositive
    rwa [List.length_map] at this
  have hsubset : rounds.flatten.map Prod.fst ⊆ candidates.dedup := by
    intro path hpath
    obtain ⟨entry, hentry, rfl⟩ := List.mem_map.mp hpath
    exact List.mem_dedup.mpr (h.candidate entry hentry).1
  have hpaths := (h.joined.nodup.subperm hsubset).length_le
  rw [List.length_map] at hpaths
  exact hflatten.trans hpaths

/-! ## The outcome -/

/-- The filter keeps every file that defines a name of the set. -/
def FileSource.KeepsDefining (source : FileSource E D) : Prop :=
  ∀ (path : String) (file : ParsedFile D) (wanted : WantedRefs), source.parse path = .ok file →
    definesWantedName file wanted = true →
    candidateDefinesAny (source.bytesOf path) wanted = true

/-- A candidate is no entry point. -/
theorem not_mem_parsed_of_candidate {entryPoints : List String} {parsed : StdSet} {path : String}
    (h : path ∈ enumerateCandidates source entryPoints parsed) : path ∉ parsed := by
  have hmem := (List.perm_insertionSort _ _).mem_iff.mp h
  simpa using (List.mem_filter.mp hmem).2

/-- What a call leaves behind, with the rounds in which files joined. -/
structure Discovered (source : FileSource E D) (entryPoints : List String)
    (files : List (ParsedFile D)) (rounds : List (Round D)) (gathered : List (ParsedFile D)) :
    Prop where
  gathered_eq : gathered = files ++ rounds.flatten.map Prod.snd
  /-- No file joins twice. -/
  nodup : (rounds.flatten.map Prod.fst).Nodup
  /-- What joins is a candidate, no entry point, and parses. -/
  candidate : ∀ entry ∈ rounds.flatten, entry.1 ∈ candidatesOf source entryPoints files ∧
    entry.1 ∉ entryPoints.map (normalizePath source.currentPath) ∧
    source.parse entry.1 = .ok entry.2
  /-- It defines a name that was lacking at the start of its round, in the family
  that lacked it. -/
  lacking : ∀ (i : Nat) (round : Round D), rounds[i]? = some round → ∀ entry ∈ round,
    ∃ family, ∃ name ∈ definedNames entry.2 family,
      Lacks (files ++ (rounds.take i).flatten.map Prod.snd) family name

/-- What the last expansion lacks, no candidate defines. -/
theorem Expanded.not_defined (h : Expanded source candidates start rounds expansion)
    (hkeeps : source.KeepsDefining)
    (hstop : (expansionRound source candidates expansion).1 = false) {family : RefFamily}
    {name path : String} {file : ParsedFile D} (hstart : path ∉ start.parsed)
    (hlacks : Lacks expansion.project.files family name) (hpath : path ∈ candidates)
    (hparse : source.parse path = .ok file) : name ∉ definedNames file family := by
  intro hdefines
  by_cases hparsed : path ∈ expansion.parsed
  · -- the file joined, so the project has the name
    obtain ⟨entry, hentry, rfl⟩ :=
      List.mem_map.mp (((h.joined.parsed path).mp hparsed).resolve_left hstart)
    have hsame := (h.candidate entry hentry).2.symm.trans hparse
    obtain rfl := Except.ok.inj hsame
    refine hlacks.2.2 entry.2 ?_ hdefines
    rw [h.joined.files]
    exact List.mem_append_right _ (List.mem_map_of_mem hentry)
  · have hwanted : definesWantedName file (collectWantedRefs expansion.project) = true :=
      definesWantedName_iff.mpr ⟨family, name, hdefines, mem_collectWantedRefs.mpr hlacks⟩
    rcases expansionRound_cases source candidates expansion with ⟨hadvance, -⟩ | ⟨-, hnone⟩
    · rw [hadvance] at hstop
      cases hstop
    · exact hnone path hpath hparsed file ⟨hkeeps path file _ hparse hwanted, hparse, hwanted⟩

/-- **Discovery of referenced files.** An expansion that needs no more rounds
than the loop allows stops after at most one round more than there are
candidates; files join once, for a lacking name; success leaves nothing lacking,
and failure lists what no candidate could supply. -/
theorem lazy_discovery (source : FileSource E D) (entryPoints : List String)
    (files : List (ParsedFile D)) (hfiles : entryPoints.mapM source.parse = .ok files)
    (hkeeps : source.KeepsDefining)
    (hrounds : Saturation.Settles
      (expansionRound source (candidatesOf source entryPoints files)) kMaxLazyIterations
      (entryExpansion source entryPoints files)) :
    ∃ (rounds : List (Round D)) (gathered : List (ParsedFile D)),
      Discovered source entryPoints files rounds gathered ∧
      (expandProject source entryPoints files).2 ≤
        (candidatesOf source entryPoints files).dedup.length + 1 ∧
      (∀ project, parseProjectLazy source entryPoints = .ok project →
        project.files = gathered ∧ ∀ family name, ¬ Lacks project.files family name) ∧
      ∀ failure, parseProjectLazy source entryPoints = .error (.dangling failure) →
        (∀ name, name ∈ failure.refs ↔ ∃ family, Lacks gathered family name) ∧
        ∀ family name, Lacks gathered family name →
          ∀ path ∈ candidatesOf source entryPoints files, ∀ file, source.parse path = .ok file →
            name ∉ definedNames file family := by
  have hidle (expansion : Expansion D)
      (h : (expansionRound source (candidatesOf source entryPoints files) expansion).1 = false) :
      (expansionRound source (candidatesOf source entryPoints files) expansion).2 = expansion := by
    rcases expansionRound_cases source (candidatesOf source entryPoints files) expansion with
      ⟨hadvance, -⟩ | ⟨hstop, -⟩
    · rw [hadvance] at h
      cases h
    · rw [hstop]
  obtain ⟨n, last, hadvances, hlast, hend, hcount⟩ := Saturation.run_of_settles hidle hrounds
  obtain ⟨rounds, rfl, hexpanded⟩ := Expanded.of_advances hadvances
  have hgathered : last.project.files = files ++ rounds.flatten.map Prod.snd :=
    hexpanded.joined.files
  refine ⟨rounds, last.project.files, ⟨hgathered, hexpanded.joined.nodup, fun entry hentry => ?_,
    hexpanded.lacking⟩, hcount.trans (Nat.succ_le_succ hexpanded.length_le), ?_, ?_⟩
  · obtain ⟨hcandidate, hparse⟩ := hexpanded.candidate entry hentry
    refine ⟨hcandidate, fun hmem => not_mem_parsed_of_candidate hcandidate ?_, hparse⟩
    rw [entryExpansion, Std.ExtTreeSet.mem_ofList, List.contains_iff_mem]
    exact hmem
  · intro project hproject
    rw [parseProjectLazy, hfiles] at hproject
    dsimp only at hproject
    rw [expandProject, hend] at hproject
    cases hresolve : resolveCrossFileReferences last.project with
    | error failure => simp [hresolve] at hproject
    | ok resolved =>
      simp only [hresolve, Except.ok.injEq] at hproject
      subst hproject
      obtain ⟨hsame, hnone⟩ := resolve_ok hresolve
      exact ⟨hsame, hsame ▸ hnone⟩
  · intro failure hfailure
    rw [parseProjectLazy, hfiles] at hfailure
    dsimp only at hfailure
    rw [expandProject, hend] at hfailure
    have hresolve : resolveCrossFileReferences last.project = .error failure := by
      cases hresolve : resolveCrossFileReferences last.project with
      | ok resolved => simp [hresolve] at hfailure
      | error other =>
        simp only [hresolve, Except.error.injEq, LazyFailure.dangling.injEq] at hfailure
        rw [hfailure]
    exact ⟨mem_dangling_refs hresolve, fun family name hlacks path hpath file hparse =>
      hexpanded.not_defined hkeeps hlast (not_mem_parsed_of_candidate hpath) hlacks hpath hparse⟩

end

/-! ## A directory -/

/-- A frame that wants a PDU, the file that defines it, and one that does not parse. -/
def frameFile : ParsedFile WholeDouble :=
  { sourcePath := "/can/frames.arxml",
    frames := [{ common := { shortName := "Brake" }, pdus := [{ pduShortNameRef := "Status" }] }] }

def pduFile : ParsedFile WholeDouble :=
  { sourcePath := "/can/pdus/status.arxml", pdus := [{ common := { shortName := "Status" } }] }

def canDirectory : FileSource Unit WholeDouble where
  currentPath := "/"
  filesBelow directory :=
    if directory = "/can" then
      ["/can/frames.arxml", "/can/pdus/status.arxml", "/can/broken.arxml", "/can/notes.txt"]
    else []
  bytesOf path :=
    if path = "/can/pdus/status.arxml" then utf8 "<PDU><SHORT-NAME>Status</SHORT-NAME></PDU>"
    else utf8 "<FRAME/>"
  parse path :=
    if path = "/can/frames.arxml" then .ok frameFile
    else if path = "/can/pdus/status.arxml" then .ok pduFile
    else .error ()

theorem canDirectory_keepsDefining : canDirectory.KeepsDefining := by
  intro path file wanted hparse hdefines
  obtain ⟨family, name, hname, hwanted⟩ := definesWantedName_iff.mp hdefines
  by_cases hframes : path = "/can/frames.arxml"
  · subst hframes
    obtain rfl : frameFile = file := Except.ok.inj hparse
    cases family <;> cases hname
  · by_cases hpdus : path = "/can/pdus/status.arxml"
    · subst hpdus
      obtain rfl : pduFile = file := Except.ok.inj hparse
      have hstatus : name = "Status" := by
        cases family with
        | pdus => simpa [definedNames, pduFile, shortName, DomainElement.common] using hname
        | signals => cases hname
        | ecus => cases hname
      have hraw : rawDefinesShortName (canDirectory.bytesOf "/can/pdus/status.arxml")
          (utf8 "Status") = true := by decide +kernel
      rw [candidateDefinesAny, Bool.or_eq_true, List.any_eq_true]
      exact .inr ⟨name, mem_flattenWanted.mpr ⟨family, hwanted⟩, hstatus ▸ hraw⟩
    · simp [canDirectory, hframes, hpdus] at hparse

theorem lazy_discovery_canDirectory : ∃ (rounds : List (Round WholeDouble))
    (gathered : List (ParsedFile WholeDouble)) (project : ParsedProject WholeDouble),
    Discovered canDirectory ["/can/frames.arxml"] [frameFile] rounds gathered ∧
      parseProjectLazy canDirectory ["/can/frames.arxml"] = .ok project ∧
      project.files = gathered ∧ ∀ family name, ¬ Lacks project.files family name := by
  obtain ⟨rounds, gathered, hdiscovered, -, hok, -⟩ :=
    lazy_discovery canDirectory ["/can/frames.arxml"] [frameFile] rfl canDirectory_keepsDefining
      ⟨1, by decide, _, .tail .refl (by decide +kernel), by decide +kernel⟩
  have hsome : (parseProjectLazy canDirectory ["/can/frames.arxml"]).toOption.isSome = true := by
    decide +kernel
  cases hproject : parseProjectLazy canDirectory ["/can/frames.arxml"] with
  | error failure =>
    rw [hproject] at hsome
    cases hsome
  | ok project =>
    obtain ⟨hfiles, hnone⟩ := hok project hproject
    exact ⟨rounds, gathered, project, hdiscovered, rfl, hfiles, hnone⟩

end ParseX

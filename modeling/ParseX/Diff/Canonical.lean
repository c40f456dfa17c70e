import Mathlib.Data.Prod.Lex
import ParseX.Diff.Conservation
import ParseX.Diff.Diagnostics
import ParseX.Diff.Mirror

/-! # The report is canonical

With distinct short names the report does not depend on the order in which
files and elements come, and its entries are sorted without ties. Diagnostics
are sorted too; two of them can only tie when a short name contains text of the
message itself. -/
namespace ParseX
open Cpp

/-! ## The two sorts -/

section
variable {α κ : Type} [LinearOrder κ] (key : α → κ) {before : α → α → Bool}
  (hbefore : ∀ a b, before a b = true ↔ key a < key b)

include hbefore

theorem not_before_iff {a b : α} : before b a = false ↔ key a ≤ key b := by
  rw [← not_lt, ← hbefore, Bool.not_eq_true]

theorem sorted_by_key (l : List α) :
    (l.insertionSort fun a b => before b a = false).Pairwise fun a b => key a ≤ key b := by
  have hsorted : (l.insertionSort fun a b => key a ≤ key b).Pairwise
      fun a b => key a ≤ key b := by
    have : Std.Total fun a b : α => key a ≤ key b := ⟨fun a b => le_total _ _⟩
    have : IsTrans α fun a b => key a ≤ key b := ⟨fun a b c => le_trans⟩
    exact List.pairwise_insertionSort _ l
  convert hsorted using 4
  exact not_before_iff key hbefore

/-- Elements with different keys can be sorted in one way only. -/
theorem sort_unique {l sorted : List α} (hperm : sorted.Perm l)
    (hsorted : sorted.Pairwise fun a b => before b a = false)
    (hkey : ∀ a ∈ l, ∀ b ∈ l, key a = key b → a = b) :
    sorted = l.insertionSort fun a b => before b a = false := by
  have hl := List.perm_insertionSort (fun a b => before b a = false) l
  refine (hperm.trans hl.symm).eq_of_pairwise (fun a b ha hb hab hba => ?_)
    (hsorted.imp fun h => (not_before_iff key hbefore).mp h) (sorted_by_key key hbefore l)
  exact hkey a (hperm.mem_iff.mp ha) b (hl.mem_iff.mp hb) (le_antisymm hab hba)

end

/-- The sort key of an entry. -/
def entryKey (e : DiffEntry) : String ×ₗ String := toLex (sortKeyFor e, e.elementType)

/-- The sort key of a diagnostic. -/
def diagnosticKey (d : DiffDiagnostic) : String ×ₗ String := toLex (d.message, d.elementType)

theorem entryBefore_iff (a b : DiffEntry) : entryBefore a b = true ↔ entryKey a < entryKey b := by
  rw [entryKey, entryKey, Prod.Lex.toLex_lt_toLex, entryBefore]
  by_cases h : sortKeyFor a = sortKeyFor b
  · simp [h]
  · simp [h]

theorem diagnosticBefore_iff (a b : DiffDiagnostic) :
    diagnosticBefore a b = true ↔ diagnosticKey a < diagnosticKey b := by
  rw [diagnosticKey, diagnosticKey, Prod.Lex.toLex_lt_toLex, diagnosticBefore]
  by_cases h : a.message = b.message
  · simp [h]
  · simp [h]

/-- Entries without ties have one sorted order. -/
theorem sorted_entries_unique {report : DiffReport} {entries : List DiffEntry}
    (hkeys : (report.sortDeterministically.entries.map entryKey).Nodup)
    (hperm : entries.Perm report.sortDeterministically.entries)
    (hsorted : entries.Pairwise fun e e' => entryBefore e' e = false) :
    entries = report.sortDeterministically.entries := by
  have hsort := List.perm_insertionSort (fun a b => entryBefore b a = false) report.entries
  exact sort_unique entryKey entryBefore_iff (hperm.trans hsort) hsorted fun e he e' he' hkey =>
    List.inj_on_of_nodup_map hkeys (hsort.mem_iff.mpr he) (hsort.mem_iff.mpr he') hkey

/-- Diagnostics that tie are equal, so they have one sorted order. -/
theorem sorted_diagnostics_unique {report : DiffReport} {diagnostics : List DiffDiagnostic}
    (hperm : diagnostics.Perm report.sortDeterministically.diagnostics)
    (hsorted : diagnostics.Pairwise fun d d' => diagnosticBefore d' d = false) :
    diagnostics = report.sortDeterministically.diagnostics := by
  have hsort := List.perm_insertionSort (fun a b => diagnosticBefore b a = false)
    report.diagnostics
  refine sort_unique diagnosticKey diagnosticBefore_iff (hperm.trans hsort) hsorted
    fun d _ d' _ hkey => ?_
  obtain ⟨message, elementType⟩ := d
  obtain ⟨message', elementType'⟩ := d'
  obtain ⟨rfl, rfl⟩ := Prod.mk.inj (toLex.injective hkey)
  rfl

/-! ## Entries do not tie -/

namespace TypePass
variable (pass : TypePass)

theorem settled_sortKeys_perm : (pass.settled.map sortKeyFor).Perm
    (pass.newOnly ++ pass.unpairedOld ++ pass.both) := by
  refine (pass.settled_perm.map sortKeyFor).trans ?_
  have hkeys : ((pass.pairs.map (fun pair => pass.movedEntry pair.1 pair.2) ++
      pass.unpairedOld.map pass.removedEntry ++ pass.unpairedNew.map pass.addedEntry ++
      pass.both.map pass.matchedEntry).map sortKeyFor) =
      pass.pairs.map Prod.snd ++ pass.unpairedOld ++ pass.unpairedNew ++ pass.both := by
    simp [Function.comp_def, sortKeyFor, movedEntry, removedEntry, addedEntry, matchedEntry]
  rw [hkeys]
  refine List.Perm.append_right _ ?_
  have hnew : (pass.pairs.map Prod.snd ++ pass.unpairedNew).Perm pass.newOnly := by
    refine (pass.pairs_new_perm.append_right _).trans (List.perm_append_comm.trans ?_)
    exact List.filter_append_perm (fun path => (pass.movedFrom path).isNone) pass.newOnly
  refine .trans ?_ (hnew.append_right _)
  rw [List.append_assoc, List.append_assoc]
  exact List.perm_append_comm.append_left _

theorem settled_sortKeys_nodup : (pass.settled.map sortKeyFor).Nodup := by
  rw [pass.settled_sortKeys_perm.nodup_iff, List.nodup_append, List.nodup_append]
  refine ⟨⟨pass.newOnly_nodup, pass.oldOnly_nodup.filter _, ?_⟩, pass.both_nodup, ?_⟩
  · rintro a ha b hb rfl
    exact (pass.mem_newOnly.mp ha).2 (pass.mem_oldOnly.mp (List.mem_of_mem_filter hb)).1
  · rintro a ha b hb rfl
    obtain ⟨ho, hn⟩ := pass.mem_both.mp hb
    rcases List.mem_append.mp ha with ha | ha
    · exact (pass.mem_newOnly.mp ha).2 ho
    · exact (pass.mem_oldOnly.mp (List.mem_of_mem_filter ha)).2 hn

/-- Texts that differ within each pass differ with their type over all
passes. -/
theorem flatMap_keys_nodup {α : Type} {items : TypePass → List α} {text typeName : α → String}
    {ps : List TypePass} (hnames : (ps.map name).Nodup)
    (htype : ∀ pass, ∀ x ∈ items pass, typeName x = pass.name)
    (hitems : ∀ pass ∈ ps, ((items pass).map text).Nodup) :
    ((ps.flatMap items).map fun x => (toLex (text x, typeName x) : String ×ₗ String)).Nodup := by
  induction ps with
  | nil => exact List.nodup_nil
  | cons pass rest ih =>
    obtain ⟨hfirst, hrest⟩ := List.nodup_cons.mp hnames
    rw [List.flatMap_cons, List.map_append, List.nodup_append]
    refine ⟨?_, ih hrest fun p hp => hitems p (List.mem_cons_of_mem _ hp), ?_⟩
    · refine List.Nodup.of_map (fun key => (ofLex key).1) ?_
      rw [List.map_map]
      exact hitems pass List.mem_cons_self
    · rintro key ha key' hb rfl
      obtain ⟨x, hx, hkey⟩ := List.mem_map.mp ha
      obtain ⟨y, hy, hkey'⟩ := List.mem_map.mp hb
      obtain ⟨other, ho, hy⟩ := List.mem_flatMap.mp hy
      have hsame := (Prod.mk.inj (toLex.injective (hkey.trans hkey'.symm))).2
      rw [htype pass x hx, htype other y hy] at hsame
      exact hfirst (hsame ▸ List.mem_map_of_mem ho)

/-- No two entries of the blocks share path and type. -/
theorem flatMap_entryKeys_nodup {ps : List TypePass} (hnames : (ps.map name).Nodup) :
    ((ps.flatMap settled).map entryKey).Nodup :=
  flatMap_keys_nodup hnames (fun pass _ => pass.elementType_of_mem_settled)
    fun pass _ => pass.settled_sortKeys_nodup

end TypePass

section
variable {D : Type} [Double D]

theorem entryKey_of_populateEntry {oldIdx newIdx : ProjectIndex D} {e e' : DiffEntry}
    (h : populateEntry oldIdx newIdx e = some e') : entryKey e' = entryKey e := by
  simp only [populateEntry] at h
  split at h
  · rw [Option.some.inj h]
  · split at h
    · rw [← Option.some.inj h]
      rfl
    · cases h

theorem map_filterMap_sublist {α β γ : Type} {f : α → Option β} {key : β → γ} {key' : α → γ}
    (h : ∀ a b, f a = some b → key b = key' a) (l : List α) :
    ((l.filterMap f).map key).Sublist (l.map key') := by
  induction l with
  | nil => exact .slnil
  | cons a l ih =>
    cases hf : f a with
    | none => simpa [hf] using ih.cons (key' a)
    | some b => simpa [hf, h a b hf] using ih

/-- No two entries of a report share path and type. -/
theorem diff_entryKeys_nodup (a b : ParsedProject D) : ((diff a b).entries.map entryKey).Nodup := by
  rw [((diff_entries_perm a b).map entryKey).nodup_iff]
  exact (TypePass.flatMap_entryKeys_nodup (passes_names a b)).sublist
    (map_filterMap_sublist (fun _ _ => entryKey_of_populateEntry) _)

theorem diff_entries_strict (a b : ParsedProject D) :
    (diff a b).entries.Pairwise fun e e' => entryKey e < entryKey e' := by
  have hsorted : (diff a b).entries.Pairwise fun e e' => entryKey e ≤ entryKey e' := by
    rw [diff_eq_sort]
    exact sorted_by_key entryKey entryBefore_iff _
  have hne : (diff a b).entries.Pairwise fun e e' => entryKey e ≠ entryKey e' :=
    List.pairwise_map.mp (diff_entryKeys_nodup a b)
  exact (hsorted.and hne).imp fun h => lt_of_le_of_ne h.1 h.2

theorem diff_diagnostics_sorted (a b : ParsedProject D) :
    (diff a b).diagnostics.Pairwise fun d d' => diagnosticKey d ≤ diagnosticKey d' := by
  rw [diff_eq_sort]
  exact sorted_by_key diagnosticKey diagnosticBefore_iff _

/-! ## Rearranged projects -/

/-- A property of the elements of each of the six types. -/
def EachType (project : ParsedProject D)
    (P : ∀ (T : Type) [DomainElement T], List T → String → Prop) : Prop :=
  P Cluster (collectAll project ParsedFile.clusters) "Cluster" ∧
    P EcuInstance (collectAll project ParsedFile.ecuInstances) "EcuInstance" ∧
    P Frame (collectAll project ParsedFile.frames) "Frame" ∧
    P Pdu (collectAll project ParsedFile.pdus) "Pdu" ∧
    P (Signal D) (collectAll project ParsedFile.signals) "Signal" ∧
    P SignalGroup (collectAll project ParsedFile.signalGroups) "SignalGroup"

/-- Short names are unique within each type. -/
def UniqueShortNames (project : ParsedProject D) : Prop :=
  EachType project fun _ _ elements _ => (elements.map shortName).Nodup

/-- No short name holds the words that follow the key in a message of its type. -/
def NoKeyEnd (project : ParsedProject D) : Prop :=
  EachType project fun _ _ elements name => ∀ e ∈ elements, ¬ HasKeyEnd name (shortName e)

/-- The second project has the elements of the first, in any order and in any
files. -/
structure Rearranged (project project' : ParsedProject D) : Prop where
  clusters : (collectAll project ParsedFile.clusters).Perm (collectAll project' ParsedFile.clusters)
  ecuInstances : (collectAll project ParsedFile.ecuInstances).Perm
    (collectAll project' ParsedFile.ecuInstances)
  frames : (collectAll project ParsedFile.frames).Perm (collectAll project' ParsedFile.frames)
  pdus : (collectAll project ParsedFile.pdus).Perm (collectAll project' ParsedFile.pdus)
  signals : (collectAll project ParsedFile.signals).Perm (collectAll project' ParsedFile.signals)
  signalGroups : (collectAll project ParsedFile.signalGroups).Perm
    (collectAll project' ParsedFile.signalGroups)

theorem diffPath_injective {name name' : String} (hne : name ≠ "")
    (h : diffPathForShortName name = diffPathForShortName name') : name = name' := by
  have hne' : name' ≠ "" := by
    rintro rfl
    exact hne ((diffPath_isEmpty name).mp (by rw [h]; rfl))
  have hpath (name : String) (h : name ≠ "") : diffPathForShortName name = "/" ++ name := by
    rw [diffPathForShortName, if_neg (by simpa [String.isEmpty_iff] using h)]
  rw [hpath name hne, hpath name' hne'] at h
  have := congrArg String.toList h
  simpa [String.toList_append, String.toList_inj] using this

theorem pathPairs_nodup {T : Type} [DomainElement T] {elements : List T}
    (h : (elements.map shortName).Nodup) : ((pathPairs elements).map Prod.fst).Nodup := by
  have hpaths : (pathPairs elements).map Prod.fst =
      ((elements.filter fun e => !(diffPathForShortName (shortName e)).isEmpty).map shortName).map
        diffPathForShortName := by
    simp only [pathPairs, List.map_map, Function.comp_def]
  rw [hpaths]
  refine List.Nodup.map_on ?_ (h.sublist (List.filter_sublist.map _))
  intro name hname name' _ he
  obtain ⟨e, hmem, rfl⟩ := List.mem_map.mp hname
  refine diffPath_injective (fun hempty => ?_) he
  have := (List.mem_filter.mp hmem).2
  rw [hempty] at this
  exact absurd this (by decide)

/-- With unique short names the index does not depend on the order. -/
theorem indexByPath_perm {T : Type} [DomainElement T] {elements elements' : List T}
    (hp : elements.Perm elements') (h : (elements.map shortName).Nodup) :
    indexByPath elements = indexByPath elements' :=
  ofFirst_perm ((hp.filter _).map _) (pathPairs_nodup h)

theorem diff_rearranged {a a' b b' : ParsedProject D} (ha : UniqueShortNames a)
    (hb : UniqueShortNames b) (haa : Rearranged a a') (hbb : Rearranged b b') :
    diff a' b' = diff a b := by
  have hindex {c c' : ParsedProject D} (hc : UniqueShortNames c) (h : Rearranged c c') :
      indexProject c' = indexProject c := by
    obtain ⟨h1, h2, h3, h4, h5, h6⟩ := hc
    simp only [indexProject, indexByPath_perm h.clusters h1, indexByPath_perm h.ecuInstances h2,
      indexByPath_perm h.frames h3, indexByPath_perm h.pdus h4, indexByPath_perm h.signals h5,
      indexByPath_perm h.signalGroups h6]
  rw [diff_eq_sort, diff_eq_sort, passes, passes, hindex ha haa, hindex hb hbb]

theorem not_hasKeyEnd_path {T : Type} [DomainElement T] {elements : List T} {name path : String}
    (h : ∀ e ∈ elements, ¬ HasKeyEnd name (shortName e)) (hpath : path ∈ indexByPath elements) :
    ¬ HasKeyEnd name path := by
  obtain ⟨e, he, hne, rfl⟩ := mem_indexByPath.mp hpath
  rw [diffPathForShortName, if_neg (by simpa [String.isEmpty_iff] using hne)]
  exact fun hword => h e he (keyEnd_in_path (by decide) hword)

theorem diagnostics_nodup_of_elements {T : Type} [DomainElement T] [SecondaryKey T]
    {oldElements newElements : List T} {name : String} {compare : T → T → List FieldDiff}
    (hname : PlainName name) (hold : ∀ e ∈ oldElements, ¬ HasKeyEnd name (shortName e))
    (hnew : ∀ e ∈ newElements, ¬ HasKeyEnd name (shortName e)) :
    ((TypePass.mk T name (indexByPath oldElements) (indexByPath newElements)
      compare).diagnostics.map DiffDiagnostic.message).Nodup :=
  TypePass.diagnostics_nodup _ hname (fun _ => not_hasKeyEnd_path hold)
    fun _ => not_hasKeyEnd_path hnew

/-- Diagnostics of a report differ when no short name holds the words that
follow a key. -/
theorem diff_diagnosticKeys_nodup {a b : ParsedProject D} (ha : NoKeyEnd a) (hb : NoKeyEnd b) :
    ((diff a b).diagnostics.map diagnosticKey).Nodup := by
  rw [((diff_diagnostics_perm a b).map diagnosticKey).nodup_iff]
  refine TypePass.flatMap_keys_nodup (passes_names a b)
    (fun pass _ => pass.elementType_of_mem_diagnostics) ?_
  obtain ⟨a1, a2, a3, a4, a5, a6⟩ := ha
  obtain ⟨b1, b2, b3, b4, b5, b6⟩ := hb
  have hplain : ∀ name ∈ ["Cluster", "EcuInstance", "Frame", "Pdu", "Signal", "SignalGroup"],
      PlainName name := by
    unfold PlainName
    decide
  intro pass h
  simp only [passes, passesOf, List.mem_cons, List.not_mem_nil, or_false] at h
  rcases h with rfl | rfl | rfl | rfl | rfl | rfl
  · exact diagnostics_nodup_of_elements (hplain _ (by simp)) a1 b1
  · exact diagnostics_nodup_of_elements (hplain _ (by simp)) a2 b2
  · exact diagnostics_nodup_of_elements (hplain _ (by simp)) a3 b3
  · exact diagnostics_nodup_of_elements (hplain _ (by simp)) a4 b4
  · exact diagnostics_nodup_of_elements (hplain _ (by simp)) a5 b5
  · exact diagnostics_nodup_of_elements (hplain _ (by simp)) a6 b6

/-- The report is canonical: entries are sorted without ties, diagnostics are
sorted, without ties when no short name imitates a message, and the whole report
depends neither on the order of files and elements nor on the sort. -/
theorem diff_canonical {a b : ParsedProject D} (ha : UniqueShortNames a)
    (hb : UniqueShortNames b) :
    (diff a b).entries.Pairwise (fun e e' => entryKey e < entryKey e') ∧
      ((diff a b).entries.map entryKey).Nodup ∧
      (diff a b).diagnostics.Pairwise (fun d d' => diagnosticKey d ≤ diagnosticKey d') ∧
      (NoKeyEnd a → NoKeyEnd b →
        (diff a b).diagnostics.Pairwise fun d d' => diagnosticKey d < diagnosticKey d') ∧
      (∀ a' b', Rearranged a a' → Rearranged b b' → diff a' b' = diff a b) ∧
      (∀ entries, entries.Perm (diff a b).entries →
        entries.Pairwise (fun e e' => entryBefore e' e = false) →
        entries = (diff a b).entries) ∧
      ∀ diagnostics, diagnostics.Perm (diff a b).diagnostics →
        diagnostics.Pairwise (fun d d' => diagnosticBefore d' d = false) →
        diagnostics = (diff a b).diagnostics := by
  refine ⟨diff_entries_strict a b, diff_entryKeys_nodup a b, diff_diagnostics_sorted a b, ?_,
    fun a' b' haa hbb => diff_rearranged ha hb haa hbb, ?_, ?_⟩
  · intro ha' hb'
    have hne : (diff a b).diagnostics.Pairwise fun d d' => diagnosticKey d ≠ diagnosticKey d' :=
      List.pairwise_map.mp (diff_diagnosticKeys_nodup ha' hb')
    exact ((diff_diagnostics_sorted a b).and hne).imp fun h => lt_of_le_of_ne h.1 h.2
  · have hkeys := diff_entryKeys_nodup a b
    rw [diff_eq_sort] at hkeys ⊢
    exact fun entries hperm hsorted => sorted_entries_unique hkeys hperm hsorted
  · rw [diff_eq_sort]
    exact fun diagnostics hperm hsorted => sorted_diagnostics_unique hperm hsorted

end

def groupOf (name member : String) : SignalGroup :=
  { common := { shortName := name }, members := [member] }

def projectOfGroups (groups : List SignalGroup) : ParsedProject WholeDouble :=
  { files := [{ signalGroups := groups }] }

/-- Two removed groups and one added group of one key. -/
theorem diff_canonical_groups :
    (diff (projectOfGroups [groupOf "A" "M", groupOf "B" "M"])
      (projectOfGroups [groupOf "C" "M"])).diagnostics.Pairwise fun d d' =>
        diagnosticKey d < diagnosticKey d' := by
  refine (diff_canonical ?_ ?_).2.2.2.1 ?_ ?_
  · unfold UniqueShortNames EachType; decide +kernel
  · unfold UniqueShortNames EachType; decide +kernel
  · unfold NoKeyEnd EachType HasKeyEnd; decide +kernel
  · unfold NoKeyEnd EachType HasKeyEnd; decide +kernel

/-- Two groups whose names and members imitate the message text. -/
def imitatingOld : ParsedProject WholeDouble := projectOfGroups [
  groupOf "p for type SignalGroup, no move inferred (removed:/x" "M",
  groupOf "x" "M for type SignalGroup, no move inferred (removed:/p"]

def imitatingNew : ParsedProject WholeDouble := projectOfGroups [
  groupOf "1, added:/2" "M", groupOf "3" "M",
  groupOf "1" "M for type SignalGroup, no move inferred (removed:/p",
  groupOf "2, added:/3" "M for type SignalGroup, no move inferred (removed:/p"]

/-- Unique short names alone do not keep two diagnostics apart. -/
theorem imitating_diagnostics_tie :
    UniqueShortNames imitatingOld ∧ UniqueShortNames imitatingNew ∧
      ¬ (diff imitatingOld imitatingNew).diagnostics.Pairwise fun d d' =>
        diagnosticKey d < diagnosticKey d' := by
  refine ⟨?_, ?_, ?_⟩
  · unfold UniqueShortNames EachType; decide +kernel
  · unfold UniqueShortNames EachType; decide +kernel
  · decide +kernel

end ParseX

import ParseX.Diff.DiffEngine
import ParseX.Diff.MoveSpec

/-! # One type of a comparison

The engine runs the same three steps for each of the six types over shared
vectors. `TypePass` is one of them; `settled` is the block of entries it leaves
behind, computed from the two indexes alone, and `applyMoveDetection_passes`
shows that the shared vectors are the concatenation of the six blocks. -/
namespace ParseX
open Cpp

/-- The two indexes of one type, its name and its pair comparison. -/
structure TypePass where
  T : Type
  [secondary : SecondaryKey T]
  name : String
  oldIndex : StdMap T
  newIndex : StdMap T
  compare : T → T → List FieldDiff

namespace TypePass

instance (pass : TypePass) : SecondaryKey pass.T := pass.secondary

variable (pass : TypePass)

/-- Paths on the old side only. -/
def oldOnly : List String :=
  pass.oldIndex.keys.filter fun path => !pass.newIndex.contains path

/-- Paths on the new side only. -/
def newOnly : List String :=
  pass.newIndex.keys.filter fun path => !pass.oldIndex.contains path

/-- Paths on both sides. -/
def both : List String :=
  pass.oldIndex.keys.filter fun path => pass.newIndex.contains path

def oldKey (path : String) : Option String := pass.oldIndex[path]?.bind secondaryKey

def newKey (path : String) : Option String := pass.newIndex[path]?.bind secondaryKey

/-- The removed paths with a secondary key. -/
def oldWith (key : String) : List String :=
  pass.oldOnly.filter fun path => pass.oldKey path == some key

/-- The added paths with a secondary key. -/
def newWith (key : String) : List String :=
  pass.newOnly.filter fun path => pass.newKey path == some key

/-- The only removed and the only added path of a key. -/
def pairOf (key : String) : Option (String × String) :=
  singlePair (pass.oldWith key) (pass.newWith key)

def removedEntry (path : String) : DiffEntry :=
  { kind := .removed, elementType := pass.name, oldPath := path }

def addedEntry (path : String) : DiffEntry :=
  { kind := .added, elementType := pass.name, newPath := path }

def matchedEntry (path : String) : DiffEntry :=
  { kind := .modified, elementType := pass.name, oldPath := path, newPath := path }

def movedEntry (oldPath newPath : String) : DiffEntry :=
  { kind := .moved, elementType := pass.name, oldPath := oldPath, newPath := newPath }

/-- The entries of the matching step. -/
def base : List DiffEntry :=
  pass.oldOnly.map pass.removedEntry ++ pass.newOnly.map pass.addedEntry ++
    pass.both.map pass.matchedEntry

/-- The new path a removed path moved to. -/
def movedTo (oldPath : String) : Option String :=
  ((pass.oldKey oldPath).bind pass.pairOf).map Prod.snd

/-- The old path an added path moved from. -/
def movedFrom (newPath : String) : Option String :=
  ((pass.newKey newPath).bind pass.pairOf).map Prod.fst

/-- What a removed path ends as. -/
def settleRemoved (path : String) : DiffEntry :=
  match pass.movedTo path with
  | some newPath => pass.movedEntry path newPath
  | none => pass.removedEntry path

/-- What an added path ends as. -/
def settleAdded (path : String) : Option DiffEntry :=
  match pass.movedFrom path with
  | some _ => none
  | none => some (pass.addedEntry path)

/-- The entries of the type after move detection. -/
def settled : List DiffEntry :=
  pass.oldOnly.map pass.settleRemoved ++ pass.newOnly.filterMap pass.settleAdded ++
    pass.both.map pass.matchedEntry

/-- The keys with a group, in order. -/
def groupKeys : List String :=
  (moveGroups pass.oldIndex pass.newIndex pass.name pass.base).keys

/-- The diagnostic of a key. -/
def ambiguous (key : String) : Option DiffDiagnostic :=
  ambiguityOf pass.name key (pass.oldWith key) (pass.newWith key)

def diagnostics : List DiffDiagnostic := pass.groupKeys.filterMap pass.ambiguous

/-! ## Move detection on a vector whose entries of the type are the block -/

section
variable {entries : List DiffEntry}

theorem removedKey_removedEntry (path : String) :
    removedKey pass.oldIndex pass.name (pass.removedEntry path) = pass.oldKey path := by
  simp [removedKey, removedEntry, oldKey]

theorem addedKey_addedEntry (path : String) :
    addedKey pass.newIndex pass.name (pass.addedEntry path) = pass.newKey path := by
  simp [addedKey, addedEntry, newKey]

theorem filter_of_type {entries : List DiffEntry} {p : DiffEntry → Bool}
    (h : entries.filter (fun e => e.elementType == pass.name) = pass.base)
    (hp : ∀ e, p e = true → e.elementType = pass.name) :
    entries.filter p = pass.base.filter p := by
  rw [← h, List.filter_filter]
  apply List.filter_congr
  intro e _
  cases hpe : p e with
  | false => simp
  | true => simp [hp e hpe]

theorem removedOf_of_type (h : entries.filter (fun e => e.elementType == pass.name) = pass.base)
    (key : String) :
    removedOf pass.oldIndex pass.name entries key =
      (pass.oldWith key).map pass.removedEntry := by
  rw [removedOf, pass.filter_of_type h]
  · simp only [base, List.filter_append, List.filter_map, Function.comp_def,
      removedKey_removedEntry]
    simp [oldWith, removedKey, addedEntry, matchedEntry]
  · intro e he
    exact (kind_of_removedKey (by simpa using he)).1

theorem addedOf_of_type (h : entries.filter (fun e => e.elementType == pass.name) = pass.base)
    (key : String) :
    addedOf pass.newIndex pass.name entries key = (pass.newWith key).map pass.addedEntry := by
  rw [addedOf, pass.filter_of_type h]
  · simp only [base, List.filter_append, List.filter_map, Function.comp_def,
      addedKey_addedEntry]
    simp [newWith, addedKey, removedEntry, matchedEntry]
  · intro e he
    exact (kind_of_addedKey (by simpa using he)).1

theorem movePair_of_type (h : entries.filter (fun e => e.elementType == pass.name) = pass.base)
    (key : String) :
    movePair pass.oldIndex pass.newIndex pass.name entries key =
      (pass.pairOf key).map fun pair => (pass.removedEntry pair.1, pass.addedEntry pair.2) := by
  rw [movePair, pairOf, pass.removedOf_of_type h, pass.addedOf_of_type h, singlePair_map]

theorem ambiguity_of_type (h : entries.filter (fun e => e.elementType == pass.name) = pass.base)
    (key : String) :
    ambiguity pass.oldIndex pass.newIndex pass.name entries key = pass.ambiguous key := by
  have hold (paths : List String) :
      (paths.map pass.removedEntry).map DiffEntry.oldPath = paths := by
    simp [removedEntry, Function.comp_def]
  have hnew (paths : List String) :
      (paths.map pass.addedEntry).map DiffEntry.newPath = paths := by
    simp [addedEntry, Function.comp_def]
  rw [ambiguity, ambiguous, pass.removedOf_of_type h, pass.addedOf_of_type h, hold, hnew]

/-- Move detection leaves entries of other types alone. -/
theorem movedEntry_of_other {e : DiffEntry} (he : e.elementType ≠ pass.name) :
    ParseX.movedEntry pass.oldIndex pass.newIndex pass.name entries e = some e := by
  simp [ParseX.movedEntry, isErased, removedKey, addedKey, he]

theorem filterMap_movedEntry_base
    (h : entries.filter (fun e => e.elementType == pass.name) = pass.base) :
    pass.base.filterMap (ParseX.movedEntry pass.oldIndex pass.newIndex pass.name entries) =
      pass.settled := by
  have hremoved (path : String) :
      ParseX.movedEntry pass.oldIndex pass.newIndex pass.name entries (pass.removedEntry path) =
        some (pass.settleRemoved path) := by
    have hadded : addedKey pass.newIndex pass.name (pass.removedEntry path) = none := by
      simp [addedKey, removedEntry]
    simp only [ParseX.movedEntry, isErased, removedKey_removedEntry, hadded, settleRemoved, movedTo,
      Option.bind_none, Option.isSome_none, Bool.false_eq_true, if_false,
      funext (pass.movePair_of_type h)]
    cases pass.oldKey path with
    | none => rfl
    | some key => cases h : pass.pairOf key <;> simp [h, movedEntry, removedEntry, addedEntry]
  have hadded (path : String) :
      ParseX.movedEntry pass.oldIndex pass.newIndex pass.name entries (pass.addedEntry path) =
        pass.settleAdded path := by
    have hremoved : removedKey pass.oldIndex pass.name (pass.addedEntry path) = none := by
      simp [removedKey, addedEntry]
    simp only [ParseX.movedEntry, isErased, addedKey_addedEntry, hremoved, settleAdded, movedFrom,
      Option.bind_none, funext (pass.movePair_of_type h)]
    cases pass.newKey path with
    | none => rfl
    | some key => cases h : pass.pairOf key <;> simp [h]
  have hmatched (path : String) :
      ParseX.movedEntry pass.oldIndex pass.newIndex pass.name entries (pass.matchedEntry path) =
        some (pass.matchedEntry path) := by
    simp [ParseX.movedEntry, isErased, removedKey, addedKey, matchedEntry]
  simp only [base, settled, List.filterMap_append, List.filterMap_map, Function.comp_def,
    hremoved, hadded, hmatched, List.filterMap_eq_map']

theorem mem_moveGroups_of_type
    (h : entries.filter (fun e => e.elementType == pass.name) = pass.base) (key : String) :
    key ∈ moveGroups pass.oldIndex pass.newIndex pass.name entries ↔
      pass.oldWith key ≠ [] ∨ pass.newWith key ≠ [] := by
  have hR := pass.removedOf_of_type h key
  have hA := pass.addedOf_of_type h key
  rw [mem_moveGroups]
  constructor
  · rintro ⟨e, he, hk | hk⟩
    · left
      intro hnil
      rw [hnil, List.map_nil, removedOf, List.filter_eq_nil_iff] at hR
      exact hR e he (by simp [hk])
    · right
      intro hnil
      rw [hnil, List.map_nil, addedOf, List.filter_eq_nil_iff] at hA
      exact hA e he (by simp [hk])
  · rintro (hne | hne)
    · obtain ⟨path, hpath⟩ := List.exists_mem_of_ne_nil _ hne
      have hmem := hR ▸ List.mem_map_of_mem hpath
      obtain ⟨he, hk⟩ := List.mem_filter.mp hmem
      exact ⟨_, he, Or.inl (by simpa using hk)⟩
    · obtain ⟨path, hpath⟩ := List.exists_mem_of_ne_nil _ hne
      have hmem := hA ▸ List.mem_map_of_mem hpath
      obtain ⟨he, hk⟩ := List.mem_filter.mp hmem
      exact ⟨_, he, Or.inr (by simpa using hk)⟩

end

theorem elementType_of_mem_base {e : DiffEntry} (h : e ∈ pass.base) :
    e.elementType = pass.name := by
  simp only [base, List.mem_append, List.mem_map] at h
  rcases h with (⟨_, _, rfl⟩ | ⟨_, _, rfl⟩) | ⟨_, _, rfl⟩ <;> rfl

theorem elementType_of_mem_settled {e : DiffEntry} (h : e ∈ pass.settled) :
    e.elementType = pass.name := by
  simp only [settled, List.mem_append, List.mem_map, List.mem_filterMap] at h
  rcases h with (⟨path, _, rfl⟩ | ⟨path, _, h⟩) | ⟨_, _, rfl⟩
  · unfold settleRemoved
    split <;> rfl
  · unfold settleAdded at h
    split at h
    · cases h
    · obtain rfl := Option.some.inj h
      rfl
  · rfl

/-- The pass of a type rewrites its own block and adds its diagnostics. -/
theorem detectMovesForType_block {before after : List DiffEntry} {ds : List DiffDiagnostic}
    (hbefore : ∀ e ∈ before, e.elementType ≠ pass.name)
    (hafter : ∀ e ∈ after, e.elementType ≠ pass.name) :
    detectMovesForType pass.oldIndex pass.newIndex pass.name
        ⟨before ++ pass.base ++ after, ds⟩ =
      ⟨before ++ pass.settled ++ after, ds ++ pass.diagnostics⟩ := by
  have hself : pass.base.filter (fun e => e.elementType == pass.name) = pass.base :=
    List.filter_eq_self.mpr fun e he => by simpa using pass.elementType_of_mem_base he
  have hnone {l : List DiffEntry} (hl : ∀ e ∈ l, e.elementType ≠ pass.name) :
      l.filter (fun e => e.elementType == pass.name) = [] :=
    List.filter_eq_nil_iff.mpr fun e he => by simpa using hl e he
  have hof : (before ++ pass.base ++ after).filter (fun e => e.elementType == pass.name) =
      pass.base := by
    rw [List.filter_append, List.filter_append, hnone hbefore, hnone hafter, hself]
    simp
  have hstay {l : List DiffEntry} (hl : ∀ e ∈ l, e.elementType ≠ pass.name) :
      l.filterMap (ParseX.movedEntry pass.oldIndex pass.newIndex pass.name
        (before ++ pass.base ++ after)) = l := by
    rw [List.filterMap_congr fun e he => pass.movedEntry_of_other (hl e he), List.filterMap_some]
  rw [detectMovesForType_eq]
  simp only [List.filterMap_append, hstay hbefore, hstay hafter,
    pass.filterMap_movedEntry_base hof]
  congr 2
  rw [diagnostics, groupKeys, funext (pass.ambiguity_of_type hof)]
  congr 1
  apply keys_congr
  intro key
  rw [pass.mem_moveGroups_of_type hof, pass.mem_moveGroups_of_type hself]

/-! ## Paths and pairs -/

theorem mem_oldOnly {path : String} :
    path ∈ pass.oldOnly ↔ path ∈ pass.oldIndex ∧ path ∉ pass.newIndex := by
  simp [oldOnly, Std.ExtTreeMap.mem_iff_contains, -Std.ExtTreeMap.contains_iff_mem]

theorem mem_newOnly {path : String} :
    path ∈ pass.newOnly ↔ path ∈ pass.newIndex ∧ path ∉ pass.oldIndex := by
  simp [newOnly, Std.ExtTreeMap.mem_iff_contains, -Std.ExtTreeMap.contains_iff_mem]

theorem mem_both {path : String} :
    path ∈ pass.both ↔ path ∈ pass.oldIndex ∧ path ∈ pass.newIndex := by
  simp [both, Std.ExtTreeMap.mem_keys]

theorem oldOnly_nodup : pass.oldOnly.Nodup := (keys_nodup _).filter _
theorem newOnly_nodup : pass.newOnly.Nodup := (keys_nodup _).filter _
theorem both_nodup : pass.both.Nodup := (keys_nodup _).filter _

/-- The pair of a key is its only removed and its only added path. -/
theorem pairOf_eq_some {key : String} {pair : String × String} :
    pass.pairOf key = some pair ↔
      pass.oldWith key = [pair.1] ∧ pass.newWith key = [pair.2] :=
  singlePair_eq_some

theorem mem_oldWith {key path : String} :
    path ∈ pass.oldWith key ↔ path ∈ pass.oldOnly ∧ pass.oldKey path = some key := by
  simp [oldWith]

theorem mem_newWith {key path : String} :
    path ∈ pass.newWith key ↔ path ∈ pass.newOnly ∧ pass.newKey path = some key := by
  simp [newWith]

/-- A removed path moves to an added one exactly when the two are a pair. -/
theorem movedTo_eq_some {oldPath newPath : String} (h : oldPath ∈ pass.oldOnly) :
    pass.movedTo oldPath = some newPath ↔ ∃ key, pass.pairOf key = some (oldPath, newPath) := by
  constructor
  · intro hm
    obtain ⟨pair, hbind, rfl⟩ := Option.map_eq_some_iff.mp hm
    obtain ⟨key, hkey, hpair⟩ := Option.bind_eq_some_iff.mp hbind
    have hmem : oldPath ∈ pass.oldWith key := pass.mem_oldWith.mpr ⟨h, hkey⟩
    rw [(pass.pairOf_eq_some.mp hpair).1, List.mem_singleton] at hmem
    exact ⟨key, by rw [hpair, hmem]⟩
  · rintro ⟨key, hpair⟩
    have hmem : oldPath ∈ pass.oldWith key := by
      rw [(pass.pairOf_eq_some.mp hpair).1]; exact List.mem_singleton.mpr rfl
    simp [movedTo, (pass.mem_oldWith.mp hmem).2, hpair]

/-- An added path comes from a removed one exactly when the two are a pair. -/
theorem movedFrom_eq_some {oldPath newPath : String} (h : newPath ∈ pass.newOnly) :
    pass.movedFrom newPath = some oldPath ↔ ∃ key, pass.pairOf key = some (oldPath, newPath) := by
  constructor
  · intro hm
    obtain ⟨pair, hbind, rfl⟩ := Option.map_eq_some_iff.mp hm
    obtain ⟨key, hkey, hpair⟩ := Option.bind_eq_some_iff.mp hbind
    have hmem : newPath ∈ pass.newWith key := pass.mem_newWith.mpr ⟨h, hkey⟩
    rw [(pass.pairOf_eq_some.mp hpair).2, List.mem_singleton] at hmem
    exact ⟨key, by rw [hpair, hmem]⟩
  · rintro ⟨key, hpair⟩
    have hmem : newPath ∈ pass.newWith key := by
      rw [(pass.pairOf_eq_some.mp hpair).2]; exact List.mem_singleton.mpr rfl
    simp [movedFrom, (pass.mem_newWith.mp hmem).2, hpair]

theorem mem_of_pairOf {key oldPath newPath : String}
    (h : pass.pairOf key = some (oldPath, newPath)) :
    oldPath ∈ pass.oldOnly ∧ newPath ∈ pass.newOnly := by
  obtain ⟨ho, hn⟩ := pass.pairOf_eq_some.mp h
  exact ⟨(pass.mem_oldWith.mp (ho ▸ List.mem_singleton.mpr rfl)).1,
    (pass.mem_newWith.mp (hn ▸ List.mem_singleton.mpr rfl)).1⟩

/-- The moved pairs, in the order of their old paths. -/
def pairs : List (String × String) :=
  pass.oldOnly.filterMap fun oldPath => (pass.movedTo oldPath).map (oldPath, ·)

theorem mem_pairs {oldPath newPath : String} :
    (oldPath, newPath) ∈ pass.pairs ↔ ∃ key, pass.pairOf key = some (oldPath, newPath) := by
  simp only [pairs, List.mem_filterMap, Option.map_eq_some_iff, Prod.mk.injEq]
  constructor
  · rintro ⟨path, hpath, newPath', hm, rfl, rfl⟩
    exact (pass.movedTo_eq_some hpath).mp hm
  · rintro ⟨key, hpair⟩
    have ho := (pass.mem_of_pairOf hpair).1
    exact ⟨oldPath, ho, newPath, (pass.movedTo_eq_some ho).mpr ⟨key, hpair⟩, rfl, rfl⟩

theorem pairs_nodup : pass.pairs.Nodup := by
  rw [pairs, List.Nodup, List.pairwise_filterMap]
  refine pass.oldOnly_nodup.imp ?_
  intro a b hne pair hpair pair' hpair' he
  obtain ⟨_, _, rfl⟩ := Option.map_eq_some_iff.mp hpair
  obtain ⟨_, _, rfl⟩ := Option.map_eq_some_iff.mp hpair'
  exact hne (Prod.mk.inj he).1

/-- The added paths that no removed path moved to. -/
def unpairedNew : List String :=
  pass.newOnly.filter fun path => (pass.movedFrom path).isNone

/-- The removed paths that did not move. -/
def unpairedOld : List String :=
  pass.oldOnly.filter fun path => (pass.movedTo path).isNone

theorem settleAdded_eq : pass.newOnly.filterMap pass.settleAdded =
    pass.unpairedNew.map pass.addedEntry := by
  rw [unpairedNew, ← List.filterMap_eq_map, List.filterMap_filter]
  apply List.filterMap_congr
  intro path _
  cases h : pass.movedFrom path <;> simp [settleAdded, h]

/-- Up to order a removed path is moved or stays removed. -/
theorem settleRemoved_perm : (pass.oldOnly.map pass.settleRemoved).Perm
    (pass.pairs.map (fun pair => pass.movedEntry pair.1 pair.2) ++
      pass.unpairedOld.map pass.removedEntry) := by
  rw [pairs, unpairedOld]
  induction pass.oldOnly with
  | nil => exact .refl _
  | cons path paths ih =>
    cases h : pass.movedTo path with
    | some newPath => simpa [settleRemoved, h] using ih
    | none =>
      simp only [List.map_cons, settleRemoved, h, List.filterMap_cons, Option.map_none,
        List.filter_cons, Option.isNone_none, if_true]
      exact (List.Perm.cons _ ih).trans List.perm_middle.symm

/-- The new paths of the pairs are the added paths that were erased. -/
theorem pairs_new_perm : (pass.pairs.map Prod.snd).Perm
    (pass.newOnly.filter fun path => !(pass.movedFrom path).isNone) := by
  apply (List.perm_ext_iff_of_nodup ?_ (pass.newOnly_nodup.filter _)).mpr
  · intro newPath
    simp only [List.mem_map, List.mem_filter, Prod.exists, exists_eq_right, mem_pairs,
      Bool.not_eq_true', Option.isNone_eq_false_iff, Option.isSome_iff_exists]
    constructor
    · rintro ⟨oldPath, key, hpair⟩
      have hn := (pass.mem_of_pairOf hpair).2
      exact ⟨hn, oldPath, (pass.movedFrom_eq_some hn).mpr ⟨key, hpair⟩⟩
    · rintro ⟨hn, oldPath, hm⟩
      obtain ⟨key, hpair⟩ := (pass.movedFrom_eq_some hn).mp hm
      exact ⟨oldPath, key, hpair⟩
  · refine List.Nodup.map_on ?_ pass.pairs_nodup
    rintro ⟨o, n⟩ h ⟨o', n'⟩ h' rfl
    obtain ⟨key, hk⟩ := pass.mem_pairs.mp h
    obtain ⟨key', hk'⟩ := pass.mem_pairs.mp h'
    have hn := (pass.mem_of_pairOf hk).2
    have ho := (pass.movedFrom_eq_some hn).mpr ⟨key, hk⟩
    rw [(pass.movedFrom_eq_some hn).mpr ⟨key', hk'⟩] at ho
    rw [Option.some.inj ho]

/-- The four shapes of an entry of a block. -/
theorem mem_settled {e : DiffEntry} : e ∈ pass.settled ↔
    (∃ pair ∈ pass.pairs, e = pass.movedEntry pair.1 pair.2) ∨
    (∃ path ∈ pass.unpairedOld, e = pass.removedEntry path) ∨
    (∃ path ∈ pass.unpairedNew, e = pass.addedEntry path) ∨
    (∃ path ∈ pass.both, e = pass.matchedEntry path) := by
  rw [settled, List.mem_append, List.mem_append, pass.settleRemoved_perm.mem_iff, settleAdded_eq]
  simp only [List.mem_append, List.mem_map, or_assoc, eq_comm]

/-! ## All passes of a comparison -/

/-- The passes leave behind the concatenation of their blocks, when their types
have different names. -/
theorem foldl_detectMoves (todo : List TypePass) :
    ∀ (done : List TypePass) (ds : List DiffDiagnostic),
      ((done ++ todo).map TypePass.name).Nodup →
      todo.foldl (fun report pass =>
          detectMovesForType pass.oldIndex pass.newIndex pass.name report)
          ⟨done.flatMap settled ++ todo.flatMap base, ds⟩ =
        ⟨(done ++ todo).flatMap settled, ds ++ todo.flatMap diagnostics⟩ := by
  induction todo with
  | nil => intro done ds _; simp
  | cons pass todo ih =>
    intro done ds hnames
    have hnames' : ((done ++ [pass] ++ todo).map TypePass.name).Nodup := by simpa using hnames
    rw [List.map_append, List.map_cons] at hnames
    obtain ⟨-, htodo, hdisjoint⟩ := List.nodup_append.mp hnames
    have hbefore : ∀ e ∈ done.flatMap settled, e.elementType ≠ pass.name := by
      intro e he hname
      obtain ⟨other, ho, he⟩ := List.mem_flatMap.mp he
      rw [other.elementType_of_mem_settled he] at hname
      exact hdisjoint _ (List.mem_map_of_mem ho) _ List.mem_cons_self hname
    have hafter : ∀ e ∈ todo.flatMap base, e.elementType ≠ pass.name := by
      intro e he hname
      obtain ⟨other, ho, he⟩ := List.mem_flatMap.mp he
      rw [other.elementType_of_mem_base he] at hname
      exact (List.nodup_cons.mp htodo).1 (hname ▸ List.mem_map_of_mem ho)
    rw [List.foldl_cons, List.flatMap_cons, ← List.append_assoc,
      pass.detectMovesForType_block hbefore hafter]
    have hstep := ih (done ++ [pass]) (ds ++ pass.diagnostics) hnames'
    rw [List.flatMap_append, List.flatMap_singleton] at hstep
    rw [hstep]
    simp

/-- What a concatenation of blocks holds of a type is the block of its pass. -/
theorem filter_blocks {B : Type} {block : TypePass → List B} {typeOf : B → String}
    (htype : ∀ pass, ∀ b ∈ block pass, typeOf b = pass.name) {pass : TypePass}
    {ps : List TypePass} (h : pass ∈ ps) (hnames : (ps.map TypePass.name).Nodup) :
    (ps.flatMap block).filter (fun b => typeOf b = pass.name) = block pass := by
  induction ps with
  | nil => cases h
  | cons first rest ih =>
    obtain ⟨hfirst, hrest⟩ := List.nodup_cons.mp hnames
    rw [List.flatMap_cons, List.filter_append]
    rcases List.mem_cons.mp h with rfl | h
    · rw [List.filter_eq_self.mpr fun b hb => by simpa using htype pass b hb,
        List.filter_eq_nil_iff.mpr, List.append_nil]
      intro b hb hname
      obtain ⟨other, ho, hb⟩ := List.mem_flatMap.mp hb
      rw [decide_eq_true_eq, htype other b hb] at hname
      exact hfirst (hname ▸ List.mem_map_of_mem ho)
    · rw [ih h hrest, List.filter_eq_nil_iff.mpr, List.nil_append]
      intro b hb hname
      rw [decide_eq_true_eq, htype first b hb] at hname
      exact hfirst (hname ▸ List.mem_map_of_mem h)

/-- The entries of a type in the report are its block. -/
theorem filter_settled {pass : TypePass} {ps : List TypePass} (h : pass ∈ ps)
    (hnames : (ps.map TypePass.name).Nodup) :
    (ps.flatMap settled).filter (fun e => e.elementType = pass.name) = pass.settled :=
  filter_blocks (fun pass _ => pass.elementType_of_mem_settled) h hnames

end TypePass

section
variable {D : Type} [Double D]

/-- The six passes over two sets of indexes, in the engine's order. -/
def passesOf (oldIdx newIdx : ProjectIndex D) : List TypePass := [
  ⟨Cluster, "Cluster", oldIdx.clusters, newIdx.clusters, diffStruct⟩,
  ⟨EcuInstance, "EcuInstance", oldIdx.ecuInstances, newIdx.ecuInstances, diffStruct⟩,
  ⟨Frame, "Frame", oldIdx.frames, newIdx.frames, diffFrameElements⟩,
  ⟨Pdu, "Pdu", oldIdx.pdus, newIdx.pdus, diffPduElements⟩,
  ⟨Signal D, "Signal", oldIdx.signals, newIdx.signals, diffSignalElements⟩,
  ⟨SignalGroup, "SignalGroup", oldIdx.signalGroups, newIdx.signalGroups,
    diffSignalGroupElements⟩]

/-- The six passes of a comparison. -/
def passes (oldProject newProject : ParsedProject D) : List TypePass :=
  passesOf (indexProject oldProject) (indexProject newProject)

theorem passes_names (oldProject newProject : ParsedProject D) :
    ((passes oldProject newProject).map TypePass.name).Nodup := by
  change ["Cluster", "EcuInstance", "Frame", "Pdu", "Signal", "SignalGroup"].Nodup
  decide

theorem matchParsedProjects_passes (oldProject newProject : ParsedProject D) :
    matchParsedProjects oldProject newProject =
      ⟨(passes oldProject newProject).flatMap TypePass.base, []⟩ := by
  simp only [matchParsedProjects, DiffReport.merge, passes, passesOf, List.flatMap_cons, List.flatMap_nil,
    List.nil_append, List.append_nil, List.append_assoc]
  rfl

/-- After matching and move detection the report is the concatenation of the
six blocks. -/
theorem applyMoveDetection_passes (oldProject newProject : ParsedProject D) :
    applyMoveDetection oldProject newProject (matchParsedProjects oldProject newProject) =
      ⟨(passes oldProject newProject).flatMap TypePass.settled,
        (passes oldProject newProject).flatMap TypePass.diagnostics⟩ := by
  have hfold (report : DiffReport) : applyMoveDetection oldProject newProject report =
      (passes oldProject newProject).foldl (fun report pass =>
        detectMovesForType pass.oldIndex pass.newIndex pass.name report) report := rfl
  have hrun := TypePass.foldl_detectMoves (passes oldProject newProject) [] []
    (passes_names oldProject newProject)
  simp only [List.flatMap_nil, List.nil_append] at hrun
  rw [matchParsedProjects_passes, hfold, hrun]

/-- The field differences of a pair of paths are those of its pass. -/
theorem diffPair_of_pass {oldProject newProject : ParsedProject D} {pass : TypePass}
    (h : pass ∈ passes oldProject newProject) (oldPath newPath : String) :
    diffPair pass.name oldPath newPath (indexProject oldProject) (indexProject newProject) =
      diffLookup pass.compare pass.oldIndex pass.newIndex oldPath newPath := by
  simp only [passes, passesOf, List.mem_cons, List.not_mem_nil, or_false] at h
  rcases h with rfl | rfl | rfl | rfl | rfl | rfl <;> rfl

/-- The report is the sorted concatenation of the six populated blocks. -/
theorem diff_eq_sort (a b : ParsedProject D) :
    diff a b = DiffReport.sortDeterministically
      ⟨((passes a b).flatMap TypePass.settled).filterMap
          (populateEntry (indexProject a) (indexProject b)),
        (passes a b).flatMap TypePass.diagnostics⟩ := by
  simp only [diff, populateFieldDiffs, applyMoveDetection_passes]

end

end ParseX

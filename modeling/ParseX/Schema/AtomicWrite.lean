import ParseX.Base.Replace
import ParseX.Cpp.Bytes
import ParseX.Parser.Resolve

/-! # Cache entries written atomically

`writeCacheAtomically` by several processes at once: every system call is a step
of its own, and a process may die between any two of them. -/
namespace ParseX
open Cpp

/-! ## Temporary paths -/

/-- `std::filesystem::path::filename`. -/
def filename (path : String) : String := String.ofList (path.toList.rtakeWhile (· ≠ '/'))

/-- `operator/` of a directory and a relative path. -/
def appendPath (directory path : String) : String :=
  directory ++ (if directory.toList.getLast? = some '/' then "" else "/") ++ path

/-- The hexadecimal digits of the generator's value, filled up to 16. -/
def randomHexSuffix (value : UInt64) : String :=
  let digits := Nat.toDigits 16 value.toNat
  String.ofList (List.replicate (16 - digits.length) '0' ++ digits)

def makeTmpPath (dir filename suffix : String) : String :=
  appendPath dir (filename ++ ".tmp." ++ suffix)

/-- The directory of a cache entry. -/
def cacheDir (path : String) : String := if parentPath path = "" then "." else parentPath path

/-! ## Calls -/

/-- Calls of `writeCacheAtomically` for one path, with the value each draws. -/
structure CacheWrites (W : Type) where
  path : String
  data : W → List UInt8
  random : W → UInt64

def CacheWrites.tmp {W : Type} (calls : CacheWrites W) (w : W) : String :=
  makeTmpPath (cacheDir calls.path) (filename calls.path) (randomHexSuffix (calls.random w))

inductive CacheFailure where
  | createDirectories
  | openTmp
  | writeTmp
  | syncTmp
  | rename
  deriving DecidableEq, Repr

/-- Where a call stands. -/
inductive CachePhase where
  | started
  /-- `TmpCleanup` is set up. -/
  | armed
  /-- The loop of `portableWriteFull`. -/
  | writing (fd done : Nat)
  | written (fd : Nat)
  /-- Synced and closed. -/
  | synced (fd : Nat)
  | renamed
  | returned
  /-- The exception passes the destructor of `TmpCleanup`. -/
  | unwinding (failure : CacheFailure)
  | threw (failure : CacheFailure)
  deriving DecidableEq, Repr

structure CacheState (W : Type) where
  disk : Disk String UInt8
  phase : W → CachePhase
  crashed : W → Bool

section
variable {W : Type} [DecidableEq W]

def CacheState.goTo (s : CacheState W) (w : W) (phase : CachePhase) : CacheState W :=
  { s with
    phase := Function.update s.phase w phase }

def CacheState.withDisk (s : CacheState W) (disk : Disk String UInt8) : CacheState W :=
  { s with
    disk := disk }

/-- What one system call does; the operating system chooses its outcome. -/
inductive CacheWrites.Call (calls : CacheWrites W) (w : W) (s : CacheState W) :
    CacheState W → Prop where
  | createDirectories : s.phase w = .started → Call calls w s (s.goTo w .armed)
  | createDirectoriesFails : s.phase w = .started →
      Call calls w s (s.goTo w (.threw .createDirectories))
  | openTmp : s.phase w = .armed →
      Call calls w s ((s.withDisk (s.disk.truncate (calls.tmp w))).goTo w
        (.writing (s.disk.inodeFor (calls.tmp w)) 0))
  | openFails : s.phase w = .armed → Call calls w s (s.goTo w (.unwinding .openTmp))
  /-- `write` takes any number of the remaining bytes. -/
  | write {fd done : Nat} (count : Nat) : s.phase w = .writing fd done →
      done < (calls.data w).length → done + count ≤ (calls.data w).length →
      Call calls w s ((s.withDisk
        (s.disk.write fd done (((calls.data w).drop done).take count))).goTo w
          (.writing fd (done + count)))
  /-- `EINTR`: the loop goes on. -/
  | interrupted {fd done : Nat} : s.phase w = .writing fd done →
      done < (calls.data w).length → Call calls w s s
  | writeFails {fd done : Nat} : s.phase w = .writing fd done →
      done < (calls.data w).length → Call calls w s (s.goTo w (.unwinding .writeTmp))
  | writeEnds {fd done : Nat} : s.phase w = .writing fd done →
      ¬ done < (calls.data w).length → Call calls w s (s.goTo w (.written fd))
  | sync {fd : Nat} : s.phase w = .written fd → Call calls w s (s.goTo w (.synced fd))
  | syncFails {fd : Nat} : s.phase w = .written fd →
      Call calls w s (s.goTo w (.unwinding .syncTmp))
  | rename {fd : Nat} : s.phase w = .synced fd → s.disk.entry (calls.tmp w) ≠ none →
      Call calls w s ((s.withDisk (s.disk.rename (calls.tmp w) calls.path)).goTo w .renamed)
  | renameFails {fd : Nat} : s.phase w = .synced fd →
      Call calls w s (s.goTo w (.unwinding .rename))
  | disarm : s.phase w = .renamed → Call calls w s (s.goTo w .returned)
  /-- The destructor removes the temporary file. -/
  | cleanup {failure : CacheFailure} : s.phase w = .unwinding failure →
      Call calls w s ((s.withDisk (s.disk.remove (calls.tmp w))).goTo w (.threw failure))

/-- A step of a call that has not crashed, or its crash. -/
inductive CacheWrites.Step (calls : CacheWrites W) (w : W) (s : CacheState W) :
    CacheState W → Prop where
  | call {t : CacheState W} : s.crashed w = false → calls.Call w s t → Step calls w s t
  | crash : Step calls w s { s with
      crashed := Function.update s.crashed w true }

/-- Any interleaving of the steps. -/
abbrev CacheWrites.Run (calls : CacheWrites W) : CacheState W → CacheState W → Prop :=
  Relation.ReflTransGen fun s t => ∃ w, calls.Step w s t

/-- No call has started. -/
def CacheWrites.start (disk : Disk String UInt8) : CacheState W :=
  ⟨disk, fun _ => .started, fun _ => false⟩

end

/-! ## Distinct temporary paths -/

theorem slash_notMem_toDigits (n : Nat) : '/' ∉ Nat.toDigits 16 n := by
  have hdigit : ∀ digit < 16, '/' ≠ Nat.digitChar digit := by decide
  induction n using Nat.strong_induction_on with
  | _ n ih =>
    rw [Nat.toDigits_eq_if (by decide)]
    split
    case isTrue hlt =>
      rw [List.mem_singleton]
      exact hdigit n hlt
    case isFalse hge =>
      rw [List.mem_append, List.mem_singleton, not_or]
      exact ⟨ih _ (by omega), hdigit _ (by omega)⟩

theorem slash_notMem_randomHexSuffix (value : UInt64) :
    '/' ∉ (randomHexSuffix value).toList := by
  rw [randomHexSuffix, String.toList_ofList, List.mem_append, not_or]
  exact ⟨fun h => absurd (List.eq_of_mem_replicate h) (by decide), slash_notMem_toDigits _⟩

/-- The filename of a path that ends with one. -/
theorem filename_appendPath (directory name : String) (hname : '/' ∉ name.toList) :
    filename (appendPath directory name) = name := by
  have hfront : ∃ front, (appendPath directory name).toList = front ++ ['/'] ++ name.toList := by
    rw [appendPath, String.toList_append, String.toList_append]
    split
    case isTrue hlast =>
      obtain ⟨front, hfront⟩ := List.getLast?_eq_some_iff.mp hlast
      exact ⟨front, by rw [hfront]; simp⟩
    case isFalse => exact ⟨directory.toList, rfl⟩
  obtain ⟨front, hfront⟩ := hfront
  have htake : (front ++ ['/'] ++ name.toList).rtakeWhile (· ≠ '/') = name.toList := by
    rw [List.rtakeWhile, List.reverse_append, List.reverse_append,
      List.takeWhile_append_of_pos fun c hc => ?_]
    · simp
    · rw [decide_eq_true_eq]
      rintro rfl
      exact hname (List.mem_reverse.mp hc)
  rw [filename, hfront, htake, String.ofList_toList]

theorem slash_notMem_filename (path : String) : '/' ∉ (filename path).toList := by
  rw [filename, String.toList_ofList]
  intro h
  exact absurd (List.mem_rtakeWhile_imp h) (by decide)

variable {W : Type} {calls : CacheWrites W}

theorem CacheWrites.tmp_ne_path (calls : CacheWrites W) (w : W) : calls.tmp w ≠ calls.path := by
  intro h
  have hname := congrArg filename h
  rw [CacheWrites.tmp, makeTmpPath, filename_appendPath] at hname
  · have hlength := congrArg String.length hname
    rw [String.length_append, String.length_append, show ".tmp.".length = 5 from rfl] at hlength
    omega
  · simp only [String.toList_append, List.mem_append, not_or]
    exact ⟨⟨slash_notMem_filename _, by decide⟩, slash_notMem_randomHexSuffix _⟩

theorem CacheWrites.tmp_inj {v w : W} (h : calls.tmp v = calls.tmp w) :
    randomHexSuffix (calls.random v) = randomHexSuffix (calls.random w) := by
  unfold CacheWrites.tmp makeTmpPath appendPath at h
  have hletters := congrArg String.toList h
  simp only [String.toList_append] at hletters
  exact String.toList_inj.mp (List.append_cancel_left (List.append_cancel_left hletters))

/-! ## The calls as replacements of one file -/

/-- The turn of a phase, for data of the given size. -/
def CachePhase.turn (size : Nat) : CachePhase → Replace.Turn
  | .started | .armed => .waiting
  | .writing fd done => .holding fd done
  | .written fd | .synced fd => .holding fd size
  | .renamed | .returned => .moved
  | .unwinding _ | .threw _ => .failed

def CacheWrites.replacing (calls : CacheWrites W) : Replace.Calls W String UInt8 where
  target := calls.path
  temp := calls.tmp
  data := calls.data
  temp_ne := calls.tmp_ne_path

def CacheState.turns (s : CacheState W) (calls : CacheWrites W) : Replace.State W String UInt8 :=
  ⟨s.disk, fun w => (s.phase w).turn (calls.data w).length⟩

variable [DecidableEq W] {s t : CacheState W} {w : W}

theorem CacheState.turns_goTo (disk : Disk String UInt8) (phase : CachePhase) :
    (((s.withDisk disk).goTo w phase).turns calls) =
      ⟨disk, Function.update (s.turns calls).turn w (phase.turn (calls.data w).length)⟩ := by
  refine congrArg (Replace.State.mk disk) (funext fun v => ?_)
  exact Function.apply_update (fun v => CachePhase.turn (calls.data v).length) s.phase w phase v

/-- A phase of the same turn. -/
theorem CacheState.turns_goTo_same {phase : CachePhase}
    (h : phase.turn (calls.data w).length = (s.phase w).turn (calls.data w).length) :
    (s.goTo w phase).turns calls = s.turns calls := by
  rw [show s.goTo w phase = (s.withDisk s.disk).goTo w phase from rfl, turns_goTo, h]
  exact congrArg (Replace.State.mk s.disk) (Function.update_eq_self w (s.turns calls).turn)

/-- Every step of a call is one of the replacement, or changes nothing there. -/
theorem CacheWrites.Call.simulates
    (hdistinct : ∀ v w, calls.tmp v = calls.tmp w → v = w)
    (hsound : Replace.Sound calls.replacing (s.turns calls)) (h : calls.Call w s t) :
    t.turns calls = s.turns calls ∨
      Replace.Step calls.replacing (s.turns calls) (t.turns calls) := by
  have hturn {phase : CachePhase} (hphase : s.phase w = phase) :
      (s.turns calls).turn w = phase.turn (calls.data w).length :=
    congrArg (CachePhase.turn _) hphase
  have hfails {phase : CachePhase} (hphase : phase.turn (calls.data w).length = .failed)
      (hopen : (s.turns calls).turn w = .waiting ∨ (s.turns calls).Holds w) :
      Replace.Step calls.replacing (s.turns calls) ((s.goTo w phase).turns calls) := by
    rw [show s.goTo w phase = (s.withDisk s.disk).goTo w phase from rfl, CacheState.turns_goTo,
      hphase]
    exact .fails w hopen
  cases h with
  | createDirectories hphase => exact .inl (CacheState.turns_goTo_same (by rw [hphase]; rfl))
  | createDirectoriesFails hphase => exact .inr (hfails rfl (.inl (hturn hphase)))
  | openTmp hphase =>
    refine .inr ?_
    rw [CacheState.turns_goTo]
    refine .opens w (hturn hphase) ?_
    rintro v ⟨inode, done, hv⟩ htemp
    obtain rfl := hdistinct v w htemp
    rw [hturn hphase] at hv
    cases hv
  | openFails hphase => exact .inr (hfails rfl (.inl (hturn hphase)))
  | write count hphase hlt hle =>
    refine .inr ?_
    rw [CacheState.turns_goTo]
    exact .writes w count (hturn hphase) hle
  | interrupted hphase hlt => exact .inl rfl
  | writeFails hphase hlt => exact .inr (hfails rfl (.inr ⟨_, _, hturn hphase⟩))
  | @writeEnds fd done hphase hend =>
    have hle : done ≤ (calls.data w).length := (hsound.held w fd done (hturn hphase)).le
    refine .inl (CacheState.turns_goTo_same ?_)
    rw [hphase, show done = (calls.data w).length by omega]
    rfl
  | sync hphase => exact .inl (CacheState.turns_goTo_same (by rw [hphase]; rfl))
  | syncFails hphase => exact .inr (hfails rfl (.inr ⟨_, _, hturn hphase⟩))
  | rename hphase hentry =>
    refine .inr ?_
    rw [CacheState.turns_goTo]
    exact .moves w (hturn hphase) hentry
  | renameFails hphase => exact .inr (hfails rfl (.inr ⟨_, _, hturn hphase⟩))
  | disarm hphase => exact .inl (CacheState.turns_goTo_same (by rw [hphase]; rfl))
  | cleanup hphase =>
    have hfailed : (s.turns calls).turn w = .failed := hturn hphase
    have hsame : Function.update (s.turns calls).turn w .failed = (s.turns calls).turn := by
      rw [← hfailed, Function.update_eq_self]
    refine .inr ?_
    rw [CacheState.turns_goTo]
    show Replace.Step _ _ ⟨_, Function.update _ w .failed⟩
    rw [hsame]
    exact .drops w hfailed

/-- The calls replace the file. -/
theorem CacheWrites.refines (hdistinct : ∀ v w, calls.tmp v = calls.tmp w → v = w) :
    Replace.Refines calls.replacing (fun s t => ∃ w, calls.Step w s t)
      fun s => s.turns calls := by
  rintro s t hsound ⟨w, hstep⟩
  cases hstep with
  | crash => exact .inl rfl
  | call _ hcall => exact hcall.simulates hdistinct hsound

/-- The call reached its rename. -/
def CachePhase.Renamed (phase : CachePhase) : Prop := phase = .renamed ∨ phase = .returned

theorem CachePhase.turn_eq_moved {size : Nat} {phase : CachePhase} :
    phase.turn size = .moved ↔ phase.Renamed := by
  cases phase <;> simp [CachePhase.turn, CachePhase.Renamed]

/-! ## Temporary files -/

/-- A step of a call leaves the phases of the others. -/
theorem CacheWrites.Step.phase_of_ne {v : W} (h : calls.Step w s t) (hne : v ≠ w) :
    t.phase v = s.phase v := by
  cases h with
  | crash => rfl
  | call _ hcall => cases hcall <;> first | rfl | exact Function.update_of_ne hne ..

/-- Only the call itself changes its temporary path. -/
theorem CacheWrites.Step.tmp_of_ne (hdistinct : ∀ v w, calls.tmp v = calls.tmp w → v = w) {v : W}
    (h : calls.Step w s t) (hne : v ≠ w) :
    t.disk.entry (calls.tmp v) = s.disk.entry (calls.tmp v) := by
  have htmp : calls.tmp v ≠ calls.tmp w := fun htmp => hne (hdistinct v w htmp)
  cases h with
  | crash => rfl
  | call _ hcall =>
    cases hcall with
    | openTmp => exact s.disk.truncate_entry_of_ne htmp
    | rename => exact s.disk.rename_entry_of_ne (calls.tmp_ne_path v) htmp
    | cleanup => exact s.disk.remove_entry_of_ne htmp
    | _ => rfl

/-- The temporary path before the call opens it, and after it failed. -/
def TmpKept (calls : CacheWrites W) (disk : Disk String UInt8) (s : CacheState W) (w : W) : Prop :=
  match s.phase w with
  | .started => s.disk.entry (calls.tmp w) = disk.entry (calls.tmp w)
  | .threw _ => s.disk.entry (calls.tmp w) = none ∨
      s.disk.entry (calls.tmp w) = disk.entry (calls.tmp w)
  | _ => True

omit [DecidableEq W] in
theorem tmpKept_of_phase {disk : Disk String UInt8} {phase : CachePhase} (hphase : s.phase w = phase)
    (hstarted : phase ≠ .started) (hthrew : ∀ failure, phase ≠ .threw failure) :
    TmpKept calls disk s w := by
  rw [TmpKept, hphase]
  cases phase with
  | started => exact absurd rfl hstarted
  | threw failure => exact absurd rfl (hthrew failure)
  | _ => trivial

theorem CacheWrites.Call.tmpKept {disk : Disk String UInt8} (h : calls.Call w s t)
    (hkept : TmpKept calls disk s w) : TmpKept calls disk t w := by
  have hgo (disk' : Disk String UInt8) (phase : CachePhase) :
      ((s.withDisk disk').goTo w phase).phase w = phase := Function.update_self ..
  cases h with
  | interrupted => exact hkept
  | createDirectoriesFails hphase =>
    rw [TmpKept, hphase] at hkept
    rw [TmpKept, show s.goTo w _ = (s.withDisk s.disk).goTo w _ from rfl, hgo]
    exact .inr hkept
  | cleanup hphase =>
    rw [TmpKept, hgo]
    exact .inl s.disk.remove_entry_self
  | openTmp => exact tmpKept_of_phase (hgo _ _) nofun nofun
  | write => exact tmpKept_of_phase (hgo _ _) nofun nofun
  | rename => exact tmpKept_of_phase (hgo _ _) nofun nofun
  | _ => exact tmpKept_of_phase (hgo s.disk _) nofun nofun

theorem CacheWrites.Run.tmpKept (hdistinct : ∀ v w, calls.tmp v = calls.tmp w → v = w)
    {disk : Disk String UInt8} (hrun : calls.Run (CacheWrites.start disk) s) (w : W) :
    TmpKept calls disk s w := by
  induction hrun with
  | refl => exact rfl
  | tail _ hstep ih =>
    obtain ⟨v, hstep⟩ := hstep
    by_cases hvw : w = v
    · subst hvw
      cases hstep with
      | crash => exact ih
      | call _ hcall => exact hcall.tmpKept ih
    · rw [TmpKept, hstep.phase_of_ne hvw, hstep.tmp_of_ne hdistinct hvw]
      exact ih

/-! ## Atomicity -/

/-- A step of a call that changes the path brings the call past its rename. -/
theorem CacheWrites.Step.content_cases (hdistinct : ∀ v w, calls.tmp v = calls.tmp w → v = w)
    (hsound : Replace.Sound calls.replacing (s.turns calls)) (h : calls.Step w s t) :
    t.disk.content calls.path = s.disk.content calls.path ∨ (t.phase w).Renamed := by
  cases hstep : h with
  | crash => exact .inl rfl
  | call _ hcall =>
    rcases hcall.simulates hdistinct hsound with hsame | hnext
    · exact .inl (congrArg (fun state => state.disk.content calls.path) hsame)
    · rcases hsound.target hnext with hsame | ⟨v, hbefore, hmoved, -⟩
      · exact .inl hsame
      · -- only the call itself can have moved on
        obtain rfl : v = w := by
          by_contra hne
          refine hbefore ?_
          have hphase := h.phase_of_ne hne
          show (s.phase v).turn _ = _
          rw [← hphase]
          exact hmoved
        exact .inr (CachePhase.turn_eq_moved.mp hmoved)

/-- **`writeCacheAtomically` is atomic.** Whatever the calls do, the path holds
what it held or all the data of a call that reached its rename; a file found
there never changes; and a call that throws has not changed the path and leaves
no temporary file of its own. -/
theorem writeCacheAtomically_atomic (calls : CacheWrites W)
    (hsuffix : ∀ v w, randomHexSuffix (calls.random v) = randomHexSuffix (calls.random w) → v = w)
    (disk : Disk String UInt8) {s : CacheState W} (hrun : calls.Run (CacheWrites.start disk) s) :
    (s.disk.content calls.path = disk.content calls.path ∨
      ∃ w, (s.phase w).Renamed ∧ s.disk.content calls.path = some (calls.data w)) ∧
    (∀ t inode, calls.Run s t → s.disk.entry calls.path = some inode →
      t.disk.bytes inode = s.disk.bytes inode) ∧
    ∀ w failure, s.phase w = .threw failure →
      (∀ before after, calls.Run (CacheWrites.start disk) before → calls.Step w before after →
        calls.Run after s →
        after.disk.content calls.path = before.disk.content calls.path) ∧
      (s.disk.entry (calls.tmp w) = none ∨
        s.disk.entry (calls.tmp w) = disk.entry (calls.tmp w)) := by
  have hdistinct (v w : W) (h : calls.tmp v = calls.tmp w) : v = w := hsuffix v w (calls.tmp_inj h)
  have hfresh : ((CacheWrites.start disk : CacheState W).turns calls).Fresh := fun _ => rfl
  have hrefines := CacheWrites.refines hdistinct
  have hsound {t : CacheState W} (ht : calls.Run (CacheWrites.start disk) t) :
      Replace.Sound calls.replacing (t.turns calls) := hrefines.sound ht hfresh.sound
  refine ⟨?_, fun t inode hlater hentry => ?_, fun w failure hthrew => ⟨?_, ?_⟩⟩
  · rcases (hrefines.run hrun hfresh.sound).target hfresh with hsame | ⟨w, hmoved, hcontent⟩
    · exact .inl hsame
    · exact .inr ⟨w, CachePhase.turn_eq_moved.mp hmoved, hcontent⟩
  · exact (hrefines.run hlater (hsound hrun)).bytes (hsound hrun) hentry
  · intro before after hbefore hstep hafter
    refine (hstep.content_cases hdistinct (hsound hbefore)).resolve_right fun hrenamed => ?_
    have hmoved := hrefines.moved hafter (hsound (hbefore.tail ⟨w, hstep⟩))
      (CachePhase.turn_eq_moved.mpr hrenamed)
    have hlast := CachePhase.turn_eq_moved.mp hmoved
    rw [hthrew] at hlast
    rcases hlast with hlast | hlast <;> cases hlast
  · have hkept := CacheWrites.Run.tmpKept hdistinct hrun w
    rw [TmpKept, hthrew] at hkept
    exact hkept

/-- Two calls for one entry. -/
def twoWrites : CacheWrites Bool where
  path := "cache/4.2.2.xsd.cache"
  data w := if w then utf8 "<b/>" else utf8 "<a/>"
  random w := if w then 2 else 1

/-- One call dies while it writes, the other reaches its rename. -/
theorem writeCacheAtomically_atomic_twoWrites : ∃ s, twoWrites.Run (CacheWrites.start .empty) s ∧
    s.crashed true = true ∧ (s.phase false).Renamed ∧
    (s.disk.content twoWrites.path = none ∨
      ∃ w, (s.phase w).Renamed ∧ s.disk.content twoWrites.path = some (twoWrites.data w)) := by
  have hrun : ∃ s, twoWrites.Run (CacheWrites.start .empty) s ∧ s.crashed true = true ∧
      (s.phase false).Renamed := by
    refine ⟨_, (((((((((Relation.ReflTransGen.refl.tail ⟨true, .call rfl (.createDirectories rfl)⟩).tail
      ⟨false, .call rfl (.createDirectories rfl)⟩).tail
      ⟨true, .call rfl (.openTmp rfl)⟩).tail
      ⟨false, .call rfl (.openTmp rfl)⟩).tail
      ⟨true, .call rfl (.write 1 rfl (by decide) (by decide))⟩).tail
      ⟨true, .crash⟩).tail
      ⟨false, .call rfl (.write 4 rfl (by decide) (by decide))⟩).tail
      ⟨false, .call rfl (.writeEnds rfl (by decide))⟩).tail
      ⟨false, .call rfl (.sync rfl)⟩).tail
      ⟨false, .call rfl (.rename rfl (by decide +kernel))⟩, rfl, .inl rfl⟩
  obtain ⟨s, hrun, hcrashed, hrenamed⟩ := hrun
  exact ⟨s, hrun, hcrashed, hrenamed,
    (writeCacheAtomically_atomic twoWrites (by decide +kernel) .empty hrun).1⟩

end ParseX

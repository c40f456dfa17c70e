import ParseX.Base.Replace
import ParseX.Cpp.Bytes
import ParseX.Write.WriteFile

/-! # Calls that write one file at the same time

`WriteEngine::write` in several processes with one output path, and so with one
temporary path. -/
namespace ParseX
open Cpp

section
variable {D : Type} [Double D]

/-- The calls, each with its project. -/
structure ConcurrentWrites (W D : Type) [Double D] where
  serialize : XmlDocument → String
  outputPath : Path
  project : W → ParsedProject D

/-- Where a call stands. -/
inductive SavePhase where
  | started
  /-- The document is built and checked. -/
  | saving
  | writing (fd done : Nat)
  | saved (fd : Nat)
  | returned
  /-- The handler around saving and renaming. -/
  | dropping (failure : SaveFailure)
  | threw (failure : SaveFailure)
  deriving DecidableEq, Repr

/-- The call stands between its open of the temporary path and its rename. -/
def SavePhase.Between (phase : SavePhase) : Prop :=
  (∃ fd done, phase = .writing fd done) ∨ ∃ fd, phase = .saved fd

/-- The turn of a phase, for a document of the given size. -/
def SavePhase.turn (size : Nat) : SavePhase → Replace.Turn
  | .started | .saving => .waiting
  | .writing fd done => .holding fd done
  | .saved fd => .holding fd size
  | .returned => .moved
  | .dropping _ | .threw _ => .failed

theorem SavePhase.turn_eq_moved {size : Nat} {phase : SavePhase} :
    phase.turn size = .moved ↔ phase = .returned := by
  cases phase <;> simp [SavePhase.turn]

theorem SavePhase.between_of_turn {size inode done : Nat} {phase : SavePhase}
    (h : phase.turn size = .holding inode done) : phase.Between := by
  cases phase with
  | writing fd done => exact .inl ⟨fd, done, rfl⟩
  | saved fd => exact .inr ⟨fd, rfl⟩
  | _ => cases h

structure SaveState (W : Type) where
  disk : Disk Path UInt8
  phase : W → SavePhase

variable {W : Type} [DecidableEq W]

def SaveState.goTo (s : SaveState W) (w : W) (phase : SavePhase) : SaveState W :=
  { s with
    phase := Function.update s.phase w phase }

def SaveState.withDisk (s : SaveState W) (disk : Disk Path UInt8) : SaveState W :=
  { s with
    disk := disk }

variable [LibXml]

/-- The bytes of the complete document of a call. -/
def ConcurrentWrites.document (calls : ConcurrentWrites W D) (w : W) : List UInt8 :=
  utf8 (calls.serialize (buildDocument (calls.project w)))

def ConcurrentWrites.tempPath (calls : ConcurrentWrites W D) : Path := tempPathOf calls.outputPath

/-- One step of one call; libxml2 and the operating system choose its outcome. -/
inductive ConcurrentWrites.Step (calls : ConcurrentWrites W D) (w : W) (s : SaveState W) :
    SaveState W → Prop where
  | check : s.phase w = .started →
      WriteEngine.write (calls.project w) = .ok (buildDocument (calls.project w)) →
      Step calls w s (s.goTo w .saving)
  | checkFails {failure : WriteFailure} : s.phase w = .started →
      WriteEngine.write (calls.project w) = .error failure →
      Step calls w s (s.goTo w (.threw (.document failure)))
  | treeFails (message : String) : s.phase w = .started →
      Step calls w s (s.goTo w (.threw (.tree message)))
  | openTemp : s.phase w = .saving →
      Step calls w s ((s.withDisk (s.disk.truncate calls.tempPath)).goTo w
        (.writing (s.disk.inodeFor calls.tempPath) 0))
  | openFails : s.phase w = .saving →
      Step calls w s (s.goTo w (.dropping (.unwritable calls.tempPath)))
  | write {fd done : Nat} (count : Nat) : s.phase w = .writing fd done →
      done + count ≤ (calls.document w).length →
      Step calls w s ((s.withDisk
        (s.disk.write fd done (((calls.document w).drop done).take count))).goTo w
          (.writing fd (done + count)))
  | writeFails {fd done : Nat} : s.phase w = .writing fd done →
      Step calls w s (s.goTo w (.dropping (.unwritable calls.tempPath)))
  | close {fd : Nat} : s.phase w = .writing fd (calls.document w).length →
      Step calls w s (s.goTo w (.saved fd))
  | rename {fd : Nat} : s.phase w = .saved fd → s.disk.entry calls.tempPath ≠ none →
      Step calls w s ((s.withDisk (s.disk.rename calls.tempPath calls.outputPath)).goTo w .returned)
  | renameFails {fd : Nat} (message : String) : s.phase w = .saved fd →
      Step calls w s (s.goTo w (.dropping (.notMoved calls.outputPath message)))
  | remove {failure : SaveFailure} : s.phase w = .dropping failure →
      Step calls w s ((s.withDisk (s.disk.remove calls.tempPath)).goTo w (.threw failure))
  | removeFails {failure : SaveFailure} : s.phase w = .dropping failure →
      Step calls w s (s.goTo w (.threw failure))

/-- Any interleaving of the steps. -/
abbrev ConcurrentWrites.Run (calls : ConcurrentWrites W D) : SaveState W → SaveState W → Prop :=
  Relation.ReflTransGen fun s t => ∃ w, calls.Step w s t

omit [DecidableEq W] in
/-- No call has started. -/
def ConcurrentWrites.start (disk : Disk Path UInt8) : SaveState W := ⟨disk, fun _ => .started⟩

/-- A step that opens the temporary path does so while no call stands between its
open and its rename. -/
def OpensAlone (s t : SaveState W) (w : W) : Prop :=
  s.phase w = .saving → (t.phase w).Between → ∀ v, ¬ (s.phase v).Between

/-- The interleavings in which every open is alone. -/
abbrev ConcurrentWrites.AloneRun (calls : ConcurrentWrites W D) :
    SaveState W → SaveState W → Prop :=
  Relation.ReflTransGen fun s t => ∃ w, calls.Step w s t ∧ OpensAlone s t w

/-- The output path holds what it held or a complete document, and every call
that returned has had its own there. -/
def NeverTorn (calls : ConcurrentWrites W D) (disk : Disk Path UInt8)
    (run : SaveState W → SaveState W → Prop) (s : SaveState W) : Prop :=
  (s.disk.content calls.outputPath = disk.content calls.outputPath ∨
    ∃ w, s.disk.content calls.outputPath = some (calls.document w)) ∧
  ∀ w, s.phase w = .returned → ∃ moment, run (ConcurrentWrites.start disk) moment ∧ run moment s ∧
    moment.disk.content calls.outputPath = some (calls.document w)

/-! ## The calls as replacements of one file -/

def ConcurrentWrites.replacing (calls : ConcurrentWrites W D) : Replace.Calls W Path UInt8 where
  target := calls.outputPath
  temp _ := calls.tempPath
  data := calls.document
  temp_ne _ := tempPathOf_ne calls.outputPath

def SaveState.turns (s : SaveState W) (calls : ConcurrentWrites W D) : Replace.State W Path UInt8 :=
  ⟨s.disk, fun w => (s.phase w).turn (calls.document w).length⟩

variable {calls : ConcurrentWrites W D} {s t : SaveState W} {w : W}

theorem SaveState.turns_goTo (disk : Disk Path UInt8) (phase : SavePhase) :
    ((s.withDisk disk).goTo w phase).turns calls =
      ⟨disk, Function.update (s.turns calls).turn w (phase.turn (calls.document w).length)⟩ := by
  refine congrArg (Replace.State.mk disk) (funext fun v => ?_)
  exact Function.apply_update (fun v => SavePhase.turn (calls.document v).length) s.phase w phase v

theorem SaveState.turns_goTo_same {phase : SavePhase}
    (h : phase.turn (calls.document w).length = (s.phase w).turn (calls.document w).length) :
    (s.goTo w phase).turns calls = s.turns calls := by
  rw [show s.goTo w phase = (s.withDisk s.disk).goTo w phase from rfl, turns_goTo, h]
  exact congrArg (Replace.State.mk s.disk) (Function.update_eq_self w (s.turns calls).turn)

/-- Every step of a call that opens alone is one of the replacement, or changes
nothing there. -/
theorem ConcurrentWrites.Step.simulates (h : calls.Step w s t) (halone : OpensAlone s t w) :
    t.turns calls = s.turns calls ∨
      Replace.Step calls.replacing (s.turns calls) (t.turns calls) := by
  have hturn {phase : SavePhase} (hphase : s.phase w = phase) :
      (s.turns calls).turn w = phase.turn (calls.document w).length :=
    congrArg (SavePhase.turn _) hphase
  have hfails {phase : SavePhase} (hphase : phase.turn (calls.document w).length = .failed)
      (hopen : (s.turns calls).turn w = .waiting ∨ (s.turns calls).Holds w) :
      Replace.Step calls.replacing (s.turns calls) ((s.goTo w phase).turns calls) := by
    rw [show s.goTo w phase = (s.withDisk s.disk).goTo w phase from rfl, SaveState.turns_goTo,
      hphase]
    exact .fails w hopen
  cases h with
  | check hphase => exact .inl (SaveState.turns_goTo_same (by rw [hphase]; rfl))
  | checkFails hphase => exact .inr (hfails rfl (.inl (hturn hphase)))
  | treeFails message hphase => exact .inr (hfails rfl (.inl (hturn hphase)))
  | openTemp hphase =>
    refine .inr ?_
    have hnobody := halone hphase (.inl ⟨_, _, Function.update_self ..⟩)
    rw [SaveState.turns_goTo]
    refine .opens w (hturn hphase) ?_
    rintro v ⟨inode, done, hv⟩ -
    exact hnobody v (SavePhase.between_of_turn hv)
  | openFails hphase => exact .inr (hfails rfl (.inl (hturn hphase)))
  | write count hphase hle =>
    refine .inr ?_
    rw [SaveState.turns_goTo]
    exact .writes w count (hturn hphase) hle
  | writeFails hphase => exact .inr (hfails rfl (.inr ⟨_, _, hturn hphase⟩))
  | close hphase => exact .inl (SaveState.turns_goTo_same (by rw [hphase]; rfl))
  | rename hphase hentry =>
    refine .inr ?_
    rw [SaveState.turns_goTo]
    exact .moves w (hturn hphase) hentry
  | renameFails message hphase => exact .inr (hfails rfl (.inr ⟨_, _, hturn hphase⟩))
  | remove hphase =>
    have hfailed : (s.turns calls).turn w = .failed := hturn hphase
    have hsame : Function.update (s.turns calls).turn w .failed = (s.turns calls).turn := by
      rw [← hfailed, Function.update_eq_self]
    refine .inr ?_
    rw [SaveState.turns_goTo]
    show Replace.Step _ _ ⟨_, Function.update _ w .failed⟩
    rw [hsame]
    exact .drops w hfailed
  | removeFails hphase => exact .inl (SaveState.turns_goTo_same (by rw [hphase]; rfl))

theorem ConcurrentWrites.refines (calls : ConcurrentWrites W D) :
    Replace.Refines calls.replacing (fun s t => ∃ w, calls.Step w s t ∧ OpensAlone s t w)
      fun s => s.turns calls :=
  fun _ _ _ ⟨_, hstep, halone⟩ => hstep.simulates halone

/-- **Calls that open the temporary path alone never tear the output.** -/
theorem never_torn_of_alone (calls : ConcurrentWrites W D) (disk : Disk Path UInt8)
    {s : SaveState W} (hrun : calls.AloneRun (ConcurrentWrites.start disk) s) :
    NeverTorn calls disk calls.Run s := by
  have hfresh : ((ConcurrentWrites.start disk : SaveState W).turns calls).Fresh := fun _ => rfl
  have hrun' {first last : SaveState W} (h : calls.AloneRun first last) : calls.Run first last :=
    Relation.ReflTransGen.mono (fun _ _ ⟨w, hstep, _⟩ => ⟨w, hstep⟩) _ _ h
  constructor
  · rcases (calls.refines.run hrun hfresh.sound).target hfresh with hsame | ⟨w, -, hcontent⟩
    · exact .inl hsame
    · exact .inr ⟨w, hcontent⟩
  · intro w hreturned
    obtain ⟨moment, hfirst, hrest, hcontent⟩ :=
      calls.refines.moment hrun hfresh (SavePhase.turn_eq_moved.mpr hreturned)
    exact ⟨moment, hrun' hfirst, hrun' hrest, hcontent⟩

end

theorem opensAlone_of_phase {W : Type} {s t : SaveState W} {w : W} (h : s.phase w ≠ .saving) :
    OpensAlone s t w := fun hsaving => absurd hsaving h

namespace Literal

/-- Two calls with an empty project. -/
def twoSaves : ConcurrentWrites Bool WholeDouble where
  serialize _ := "<AUTOSAR/>"
  outputPath := "out.arxml"
  project _ := {}

theorem twoSaves_write (w : Bool) : WriteEngine.write (twoSaves.project w) =
    .ok (buildDocument (twoSaves.project w)) := by rfl

/-- One call after the other. -/
theorem never_torn_of_alone_twoSaves : ∃ s,
    twoSaves.AloneRun (ConcurrentWrites.start .empty) s ∧ s.phase false = .returned ∧
      NeverTorn twoSaves .empty twoSaves.Run s := by
  have hrun : ∃ s, twoSaves.AloneRun (ConcurrentWrites.start .empty) s ∧
      s.phase false = .returned := by
    refine ⟨_, (((((((Relation.ReflTransGen.refl.tail
      ⟨false, .check rfl (twoSaves_write false), opensAlone_of_phase nofun⟩).tail
      ⟨true, .check rfl (twoSaves_write true), opensAlone_of_phase nofun⟩).tail
      ⟨false, .openTemp rfl, fun _ _ v => ?_⟩).tail
      ⟨false, .write 10 rfl (by decide), opensAlone_of_phase nofun⟩).tail
      ⟨false, .close rfl, opensAlone_of_phase nofun⟩).tail
      ⟨false, .rename rfl (by decide +kernel), opensAlone_of_phase nofun⟩).tail
      ⟨true, .openTemp rfl, fun _ _ v => ?_⟩), rfl⟩
    · cases v <;> rintro (⟨_, _, h⟩ | ⟨_, h⟩) <;> cases h
    · cases v <;> rintro (⟨_, _, h⟩ | ⟨_, h⟩) <;> cases h
  obtain ⟨s, hrun, hreturned⟩ := hrun
  exact ⟨s, hrun, hreturned, never_torn_of_alone twoSaves .empty hrun⟩

/-- The second call truncates the temporary file that the first one renames. -/
theorem twoSaves_torn : ¬ ∀ s, twoSaves.Run (ConcurrentWrites.start .empty) s →
    NeverTorn twoSaves .empty twoSaves.Run s := by
  intro h
  have hrun : ∃ s, twoSaves.Run (ConcurrentWrites.start .empty) s ∧
      s.disk.content twoSaves.outputPath = some [] := by
    refine ⟨_, (((((((Relation.ReflTransGen.refl.tail
      ⟨false, .check rfl (twoSaves_write false)⟩).tail
      ⟨true, .check rfl (twoSaves_write true)⟩).tail
      ⟨false, .openTemp rfl⟩).tail
      ⟨false, .write 10 rfl (by decide)⟩).tail
      ⟨false, .close rfl⟩).tail
      ⟨true, .openTemp rfl⟩).tail
      ⟨false, .rename rfl (by decide +kernel)⟩), by decide +kernel⟩
  obtain ⟨s, hrun, hcontent⟩ := hrun
  have hdocument (w : Bool) : twoSaves.document w ≠ [] := by
    show utf8 "<AUTOSAR/>" ≠ []
    decide
  rcases (h s hrun).1 with hsame | ⟨w, hcomplete⟩
  · rw [hcontent] at hsame
    cases hsame
  · rw [hcontent] at hcomplete
    exact hdocument w (Option.some.inj hcomplete).symm

end Literal

end ParseX

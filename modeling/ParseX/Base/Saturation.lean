import Mathlib.Tactic.Common

/-! # Steps repeated while they advance

A step reports whether it advanced; a run repeats it until it does not, or until
its budget is spent. -/
namespace ParseX.Saturation

variable {S : Type} {step : S → Bool × S}

/-- The state a run reaches and the number of steps it took. -/
def run (step : S → Bool × S) : Nat → S → S × Nat
  | 0, s => (s, 0)
  | budget + 1, s =>
    if (step s).1 then ((run step budget (step s).2).1, (run step budget (step s).2).2 + 1)
    else ((step s).2, 1)

/-- So many advancing steps lead from one state to the other. -/
inductive Advances (step : S → Bool × S) (start : S) : Nat → S → Prop where
  | refl : Advances step start 0 start
  | tail {n : Nat} {s : S} : Advances step start n s → (step s).1 = true →
      Advances step start (n + 1) (step s).2

/-- The step no longer advances after at most `budget` advancing steps. -/
def Settles (step : S → Bool × S) (budget : Nat) (start : S) : Prop :=
  ∃ n ≤ budget, ∃ s, Advances step start n s ∧ (step s).1 = false

theorem Advances.head {start s : S} {n : Nat} (h : (step start).1 = true)
    (hrest : Advances step (step start).2 n s) : Advances step start (n + 1) s := by
  induction hrest with
  | refl => exact .tail .refl h
  | tail _ hstep ih => exact .tail ih hstep

theorem Advances.cases_head {start s : S} {n : Nat} (h : Advances step start (n + 1) s) :
    (step start).1 = true ∧ Advances step (step start).2 n s := by
  generalize hm : n + 1 = m at h
  induction h generalizing n with
  | refl => cases hm
  | @tail m s h hstep ih =>
    obtain rfl := Nat.succ.inj hm
    cases n with
    | zero =>
      cases h
      exact ⟨hstep, .refl⟩
    | succ n =>
      obtain ⟨hfirst, hrest⟩ := ih rfl
      exact ⟨hfirst, .tail hrest hstep⟩

/-- What every advancing step keeps holds at the end. -/
theorem Advances.invariant {I : Nat → S → Prop} {start s : S} {n : Nat}
    (h : Advances step start n s) (hstart : I 0 start)
    (hstep : ∀ n s, I n s → (step s).1 = true → I (n + 1) (step s).2) : I n s := by
  induction h with
  | refl => exact hstart
  | tail _ hadvance ih => exact hstep _ _ ih hadvance

/-- A run that settles ends where the step no longer advances, at most one step
after the last advancing one. -/
theorem run_of_settles (hidle : ∀ s, (step s).1 = false → (step s).2 = s) {budget : Nat} :
    ∀ {start : S}, Settles step budget start → ∃ n s, Advances step start n s ∧
      (step s).1 = false ∧ (run step budget start).1 = s ∧ (run step budget start).2 ≤ n + 1 := by
  induction budget with
  | zero =>
    rintro start ⟨n, hn, s, hadvances, hstop⟩
    obtain rfl := Nat.le_zero.mp hn
    cases hadvances
    exact ⟨0, start, .refl, hstop, rfl, Nat.zero_le _⟩
  | succ budget ih =>
    rintro start ⟨n, hn, s, hadvances, hstop⟩
    cases n with
    | zero =>
      cases hadvances
      have hrun : run step (budget + 1) start = ((step start).2, 1) := if_neg (by simp [hstop])
      refine ⟨0, start, .refl, hstop, ?_, ?_⟩
      · exact (congrArg Prod.fst hrun).trans (hidle start hstop)
      · exact Nat.le_of_eq (congrArg Prod.snd hrun)
    | succ n =>
      obtain ⟨hfirst, hrest⟩ := hadvances.cases_head
      obtain ⟨m, last, hlast, hlastStop, hstate, hcount⟩ :=
        ih ⟨n, Nat.le_of_succ_le_succ hn, s, hrest, hstop⟩
      refine ⟨m + 1, last, hlast.head hfirst, hlastStop, ?_, ?_⟩
      · rw [run, if_pos hfirst]
        exact hstate
      · rw [run, if_pos hfirst]
        exact Nat.succ_le_succ hcount

end ParseX.Saturation

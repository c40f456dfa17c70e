import Mathlib.Logic.Function.Basic
import Mathlib.Data.List.Basic
import Mathlib.Tactic.Linarith

/-! # Claim arrays

Owners claim the cells of an array of fixed size, one list of cells after the
other. A cell outside the array, or one that another owner holds, stops the
claim with a conflict. No claim conflicts exactly when all cells lie inside and
different owners claim disjoint cells. -/
namespace ParseX.ClaimArray

/-- What stops a claim. -/
inductive Conflict (α : Type) where
  | outside (cell : Int)
  | taken (holder : α) (cell : Int)
  deriving DecidableEq, Repr

section
variable {α : Type} [DecidableEq α]

/-- Claim cells for an owner, up to the first conflict. -/
def claim (size : Nat) (owner : α) : List Int → (Nat → Option α) →
    (Nat → Option α) × Option (Conflict α)
  | [], held => (held, none)
  | cell :: cells, held =>
    if cell < 0 ∨ (size : Int) ≤ cell then (held, some (.outside cell))
    else match held cell.toNat with
      | some holder =>
        if holder ≠ owner then (held, some (.taken holder cell))
        else claim size owner cells (Function.update held cell.toNat (some owner))
      | none => claim size owner cells (Function.update held cell.toNat (some owner))

/-- A claim: an owner and its cells. -/
abbrev Claim (α : Type) := α × List Int

/-- The conflicts of a run of claims, in order, each with the claiming owner. -/
def claimAll (size : Nat) : List (Claim α) → (Nat → Option α) → List (α × Conflict α)
  | [], _ => []
  | (owner, cells) :: claims, held =>
    let result := claim size owner cells held
    (result.2.map (owner, ·)).toList ++ claimAll size claims result.1

/-- A cell the owner can have. -/
def Free (size : Nat) (owner : α) (held : Nat → Option α) (cell : Int) : Prop :=
  0 ≤ cell ∧ cell < size ∧ ∀ holder, held cell.toNat = some holder → holder = owner

variable {size : Nat} {owner : α} {held : Nat → Option α}

theorem claim_cons_of_free {cell : Int} (h : Free size owner held cell) (cells : List Int) :
    claim size owner (cell :: cells) held =
      claim size owner cells (Function.update held cell.toNat (some owner)) := by
  obtain ⟨hlo, hhi, hfree⟩ := h
  rw [claim, if_neg (by omega)]
  cases hh : held cell.toNat with
  | none => rfl
  | some holder => simp [hfree holder hh]

omit [DecidableEq α] in
/-- A cell inside that the owner cannot have is held by another. -/
theorem taken_of_not_free {cell : Int} (hin : 0 ≤ cell ∧ cell < size)
    (h : ¬ Free size owner held cell) : ∃ holder, held cell.toNat = some holder ∧ holder ≠ owner := by
  by_contra hnone
  refine h ⟨hin.1, hin.2, fun holder hh => ?_⟩
  by_contra hne
  exact hnone ⟨holder, hh, hne⟩

theorem claim_cons_of_not_free {cell : Int} (h : ¬ Free size owner held cell) (cells : List Int) :
    (claim size owner (cell :: cells) held).2 ≠ none := by
  rw [claim]
  split
  · simp
  · obtain ⟨holder, hh, hne⟩ := taken_of_not_free (by omega) h
    simp [hh, hne]

omit [DecidableEq α] in
/-- Holding a cell for the owner itself frees no other cell and blocks none. -/
theorem free_update {cell c : Int} (hcell : Free size owner held cell) :
    Free size owner (Function.update held cell.toNat (some owner)) c ↔
      Free size owner held c := by
  refine and_congr_right fun _ => and_congr_right fun _ => ?_
  by_cases h : c.toNat = cell.toNat
  · rw [h, Function.update_self]
    exact ⟨fun _ => hcell.2.2, fun _ holder he => (Option.some.inj he).symm⟩
  · rw [Function.update_of_ne h]

/-- A claim has no conflict when the owner can have every cell. -/
theorem claim_none_iff (cells : List Int) : ∀ held : Nat → Option α,
    (claim size owner cells held).2 = none ↔ ∀ cell ∈ cells, Free size owner held cell := by
  induction cells with
  | nil => intro held; simp [claim]
  | cons cell cells ih =>
    intro held
    by_cases hfree : Free size owner held cell
    · rw [claim_cons_of_free hfree, ih, List.forall_mem_cons]
      simp only [free_update hfree, hfree, true_and]
    · have := claim_cons_of_not_free hfree cells
      simp [this, hfree]

/-- What a claim without a conflict leaves held. -/
theorem claim_held (cells : List Int) : ∀ held : Nat → Option α,
    (∀ cell ∈ cells, Free size owner held cell) → ∀ i : Nat,
      (claim size owner cells held).1 i = if (i : Int) ∈ cells then some owner else held i := by
  induction cells with
  | nil => intro held _ i; simp [claim]
  | cons cell cells ih =>
    intro held h i
    obtain ⟨hcell, hcells⟩ := List.forall_mem_cons.mp h
    rw [claim_cons_of_free hcell, ih _ fun c hc => (free_update hcell).mpr (hcells c hc)]
    by_cases hi : (i : Int) = cell
    · subst hi
      simp
    · have : i ≠ cell.toNat := by have := hcell.1; omega
      simp [hi, this]

/-- What stops a claim of cells that lie inside. -/
theorem claim_conflict_taken (cells : List Int) : ∀ held : Nat → Option α,
    (∀ cell ∈ cells, 0 ≤ cell ∧ cell < size) → ∀ conflict,
      (claim size owner cells held).2 = some conflict →
      ∃ holder cell, conflict = .taken holder cell := by
  induction cells with
  | nil => intro held _ conflict h; cases h
  | cons cell cells ih =>
    intro held hinside conflict h
    obtain ⟨hcell, hcells⟩ := List.forall_mem_cons.mp hinside
    rw [claim, if_neg (by omega)] at h
    cases hh : held cell.toNat with
    | none =>
      rw [hh] at h
      exact ih _ hcells conflict h
    | some holder =>
      by_cases hne : holder = owner
      · simp only [hh, ne_eq, hne, not_true_eq_false, if_false] at h
        exact ih _ hcells conflict h
      · simp only [hh, ne_eq, hne, not_false_eq_true, if_true, Option.some.injEq] at h
        exact ⟨holder, cell, h.symm⟩

/-- A claim gets to a cell: its owner can have this cell and the ones before. -/
def Reaches (size : Nat) (owner : α) (held : Nat → Option α) : List Int → Int → Prop
  | [], _ => False
  | first :: cells, cell =>
    Free size owner held first ∧ (cell = first ∨ Reaches size owner held cells cell)

omit [DecidableEq α] in
theorem reaches_iff (cells : List Int) (cell : Int) : Reaches size owner held cells cell ↔
    ∃ k : Nat, cells[k]? = some cell ∧ ∀ j ≤ k, ∀ c, cells[j]? = some c → Free size owner held c := by
  induction cells with
  | nil => simp [Reaches]
  | cons first cells ih =>
    rw [Reaches, ih]
    constructor
    · rintro ⟨hfree, rfl | ⟨k, hk, hbefore⟩⟩
      · refine ⟨0, rfl, fun j hj c hc => ?_⟩
        obtain rfl : j = 0 := by omega
        rwa [← Option.some.inj hc]
      · refine ⟨k + 1, hk, fun j hj c hc => ?_⟩
        cases j with
        | zero => rwa [← Option.some.inj hc]
        | succ j => exact hbefore j (by omega) c hc
    · rintro ⟨k, hk, hbefore⟩
      refine ⟨hbefore 0 (by omega) first rfl, ?_⟩
      cases k with
      | zero => exact .inl (Option.some.inj hk).symm
      | succ k => exact .inr ⟨k, hk, fun j hj c hc => hbefore (j + 1) (by omega) c hc⟩

omit [DecidableEq α] in
theorem reaches_update {cell : Int} (hcell : Free size owner held cell) (cells : List Int)
    (c : Int) : Reaches size owner (Function.update held cell.toNat (some owner)) cells c ↔
      Reaches size owner held cells c := by
  induction cells with
  | nil => rfl
  | cons first cells ih => rw [Reaches, Reaches, free_update hcell, ih]

/-- What a claim leaves held: the cells it reaches are its own, conflict or
not. -/
theorem claim_reached (cells : List Int) : ∀ (held : Nat → Option α) (i : Nat),
    (Reaches size owner held cells i → (claim size owner cells held).1 i = some owner) ∧
      (¬ Reaches size owner held cells i → (claim size owner cells held).1 i = held i) := by
  induction cells with
  | nil => intro held i; exact ⟨False.elim, fun _ => rfl⟩
  | cons cell cells ih =>
    intro held i
    by_cases hfree : Free size owner held cell
    · obtain ⟨hreach, hother⟩ := ih (Function.update held cell.toNat (some owner)) i
      rw [reaches_update hfree] at hreach hother
      rw [claim_cons_of_free hfree, Reaches]
      by_cases hi : Reaches size owner held cells i
      · exact ⟨fun _ => hreach hi, fun h => absurd ⟨hfree, .inr hi⟩ h⟩
      · rw [hother hi]
        by_cases hcell : (i : Int) = cell
        · subst hcell
          exact ⟨fun _ => by simp, fun h => absurd ⟨hfree, .inl rfl⟩ h⟩
        · have hne : i ≠ cell.toNat := by have := hfree.1; omega
          rw [Function.update_of_ne hne]
          exact ⟨fun h => absurd h.2 (not_or.mpr ⟨hcell, hi⟩), fun _ => rfl⟩
    · refine ⟨fun h => absurd h.1 hfree, fun _ => ?_⟩
      rw [claim]
      split
      · rfl
      · obtain ⟨holder, hh, hne⟩ := taken_of_not_free (by omega) hfree
        simp [hh, hne]

/-- When all cells lie inside, only other holders stop a claim. -/
theorem claimAll_conflict_taken (claims : List (Claim α)) : ∀ held : Nat → Option α,
    (∀ c ∈ claims, ∀ cell ∈ c.2, 0 ≤ cell ∧ cell < size) →
      ∀ conflict ∈ claimAll size claims held, ∃ holder cell, conflict.2 = .taken holder cell := by
  induction claims with
  | nil => intro held _ conflict h; cases h
  | cons c claims ih =>
    intro held hinside conflict h
    obtain ⟨hc, hclaims⟩ := List.forall_mem_cons.mp hinside
    rw [claimAll] at h
    rcases List.mem_append.mp h with h | h
    · obtain ⟨found, hfound, rfl⟩ := Option.map_eq_some_iff.mp (Option.mem_toList.mp h)
      exact claim_conflict_taken c.2 held hc found hfound
    · exact ih _ hclaims conflict h

/-- Each claim has one conflict at most, so the owners of the conflicts are
among those of the claims. -/
theorem claimAll_owners_sublist (claims : List (Claim α)) : ∀ held : Nat → Option α,
    ((claimAll size claims held).map Prod.fst).Sublist (claims.map Prod.fst) := by
  induction claims with
  | nil => intro held; exact List.Sublist.slnil
  | cons c claims ih =>
    intro held
    rw [claimAll, List.map_append, List.map_cons]
    cases (claim size c.1 c.2 held).2 with
    | none => exact (ih _).cons _
    | some conflict => exact (ih _).cons_cons _

/-- All cells lie inside. -/
def Inside (size : Nat) (cells : List Int) : Prop := ∀ cell ∈ cells, 0 ≤ cell ∧ cell < size

/-- The claims neither leave the array nor meet: all cells lie inside and claims
of different owners have no cell in common. -/
def Clean (size : Nat) (claims : List (Claim α)) : Prop :=
  (∀ c ∈ claims, Inside size c.2) ∧
    ∀ c ∈ claims, ∀ d ∈ claims, c.1 ≠ d.1 → ∀ cell ∈ c.2, cell ∉ d.2

/-- The held cells are those of the claims so far. -/
def Holds (claims : List (Claim α)) (held : Nat → Option α) : Prop :=
  ∀ (i : Nat) (holder : α), held i = some holder ↔ ∃ c ∈ claims, c.1 = holder ∧ (i : Int) ∈ c.2

omit [DecidableEq α] in
theorem Clean.of_append {done todo : List (Claim α)} (h : Clean size (done ++ todo)) :
    Clean size done :=
  ⟨fun c hc => h.1 c (List.mem_append_left _ hc),
    fun c hc d hd => h.2 c (List.mem_append_left _ hc) d (List.mem_append_left _ hd)⟩

omit [DecidableEq α] in
/-- One more claim keeps clean claims clean when its owner can have every cell. -/
theorem clean_snoc_iff {done : List (Claim α)} {c : Claim α} (hclean : Clean size done)
    (hholds : Holds done held) :
    Clean size (done ++ [c]) ↔ ∀ cell ∈ c.2, Free size c.1 held cell := by
  constructor
  · intro h cell hcell
    obtain ⟨hlo, hhi⟩ := h.1 c (by simp) cell hcell
    refine ⟨hlo, hhi, fun holder hheld => ?_⟩
    obtain ⟨d, hd, rfl, hmem⟩ := (hholds _ _).mp hheld
    by_contra hne
    rw [Int.toNat_of_nonneg hlo] at hmem
    exact h.2 d (by simp [hd]) c (by simp) hne cell hmem hcell
  · intro h
    have hfree {d : Claim α} (hd : d ∈ done) (hne : d.1 ≠ c.1) {cell : Int} (hcell : cell ∈ c.2) :
        cell ∉ d.2 := by
      intro hmem
      obtain ⟨hlo, -, hheld⟩ := h cell hcell
      exact hne (hheld d.1 ((hholds _ _).mpr ⟨d, hd, rfl, by rwa [Int.toNat_of_nonneg hlo]⟩))
    refine ⟨fun d hd => ?_, fun d hd e he hne cell hcell hmem => ?_⟩
    · rcases List.mem_append.mp hd with hd | hd
      · exact hclean.1 d hd
      · rw [List.mem_singleton.mp hd]
        exact fun cell hcell => ⟨(h cell hcell).1, (h cell hcell).2.1⟩
    · rcases List.mem_append.mp hd with hd | hd <;> rcases List.mem_append.mp he with he | he
      · exact hclean.2 d hd e he hne cell hcell hmem
      · rw [List.mem_singleton.mp he] at hmem hne
        exact hfree hd hne hmem hcell
      · rw [List.mem_singleton.mp hd] at hcell hne
        exact hfree he hne.symm hcell hmem
      · rw [List.mem_singleton.mp hd, List.mem_singleton.mp he] at hne
        exact hne rfl

/-- A claim without a conflict extends the held cells by its own. -/
theorem holds_snoc {done : List (Claim α)} {c : Claim α} (hholds : Holds done held)
    (hfree : ∀ cell ∈ c.2, Free size c.1 held cell) :
    Holds (done ++ [c]) (claim size c.1 c.2 held).1 := by
  intro i holder
  rw [claim_held c.2 held hfree]
  by_cases hi : (i : Int) ∈ c.2
  · rw [if_pos hi]
    constructor
    · intro h
      exact ⟨c, by simp, Option.some.inj h, hi⟩
    · rintro ⟨d, hd, rfl, hmem⟩
      rcases List.mem_append.mp hd with hd | hd
      · have := (hfree _ hi).2.2 d.1 ((hholds _ _).mpr ⟨d, hd, rfl, by simpa using hmem⟩)
        rw [this]
      · rw [List.mem_singleton.mp hd]
  · rw [if_neg hi, hholds]
    constructor
    · rintro ⟨d, hd, hh⟩
      exact ⟨d, List.mem_append_left _ hd, hh⟩
    · rintro ⟨d, hd, hh⟩
      rcases List.mem_append.mp hd with hd | hd
      · exact ⟨d, hd, hh⟩
      · rw [List.mem_singleton.mp hd] at hh
        exact absurd hh.2 hi

/-- A run of claims after clean ones. -/
theorem claimAll_after (todo : List (Claim α)) : ∀ (done : List (Claim α))
    (held : Nat → Option α), Clean size done → Holds done held →
      (claimAll size todo held = [] ↔ Clean size (done ++ todo)) := by
  induction todo with
  | nil => intro done held hclean _; simp [claimAll, hclean]
  | cons c todo ih =>
    intro done held hclean hholds
    have hsnoc := @clean_snoc_iff _ size held done c hclean hholds
    rw [← claim_none_iff] at hsnoc
    simp only [claimAll, List.append_eq_nil_iff, Option.toList_eq_nil_iff, Option.map_eq_none_iff,
      ← hsnoc]
    constructor
    · rintro ⟨hc, htodo⟩
      have hnext := holds_snoc hholds ((claim_none_iff _ _).mp (hsnoc.mp hc))
      rw [ih _ _ hc hnext] at htodo
      simpa using htodo
    · intro h
      have hc : Clean size (done ++ [c]) := Clean.of_append (by simpa using h : Clean size (done ++ [c] ++ todo))
      have hnext := holds_snoc hholds ((claim_none_iff _ _).mp (hsnoc.mp hc))
      exact ⟨hc, (ih _ _ hc hnext).mpr (by simpa using h)⟩

/-- A run of claims has no conflict exactly when the claims are clean. -/
theorem claimAll_eq_nil_iff (claims : List (Claim α)) :
    claimAll size claims (fun _ => none) = [] ↔ Clean size claims :=
  claimAll_after claims [] _ ⟨by simp, by simp⟩ fun i holder => by simp

end

end ParseX.ClaimArray

import Mathlib.Data.List.Basic

/-! # Accounts

A loop walks a list and appends outputs and notes as it goes. An account cuts
both into one piece for each item, in order: nothing is dropped, nothing is
produced without an item, and no item counts twice. -/
namespace ParseX

/-- The outputs and notes of the items, one piece for each item. -/
inductive Account {α β γ : Type} (Gives : α → List β → List γ → Prop) :
    List α → List β → List γ → Prop
  | nil : Account Gives [] [] []
  | cons {item : α} {items : List α} {outs outs' : List β} {notes notes' : List γ} :
      Gives item outs notes → Account Gives items outs' notes' →
      Account Gives (item :: items) (outs ++ outs') (notes ++ notes')

section
variable {α β γ σ : Type} {Gives : α → List β → List γ → Prop}

/-- Every output comes from an item. -/
theorem Account.mem {items : List α} {outs : List β} {notes : List γ}
    (h : Account Gives items outs notes) {out : β} (hout : out ∈ outs) :
    ∃ item ∈ items, ∃ outs' notes', Gives item outs' notes' ∧ out ∈ outs' := by
  induction h with
  | nil => cases hout
  | cons hgives _ ih =>
    rcases List.mem_append.mp hout with hout | hout
    · exact ⟨_, List.mem_cons_self, _, _, hgives, hout⟩
    · obtain ⟨item, hitem, rest⟩ := ih hout
      exact ⟨item, List.mem_cons_of_mem _ hitem, rest⟩

/-- Every item gives rise to its piece. -/
theorem Account.of_mem {items : List α} {outs : List β} {notes : List γ}
    (h : Account Gives items outs notes) {item : α} (hitem : item ∈ items) :
    ∃ outs' notes', Gives item outs' notes' ∧ (∀ out ∈ outs', out ∈ outs) ∧
      ∀ note ∈ notes', note ∈ notes := by
  induction h with
  | nil => cases hitem
  | cons hgives _ ih =>
    rcases List.mem_cons.mp hitem with rfl | hitem
    · exact ⟨_, _, hgives, fun _ h => List.mem_append_left _ h,
        fun _ h => List.mem_append_left _ h⟩
    · obtain ⟨outs', notes', hg, houts, hnotes⟩ := ih hitem
      exact ⟨outs', notes', hg, fun _ h => List.mem_append_right _ (houts _ h),
        fun _ h => List.mem_append_right _ (hnotes _ h)⟩

/-- Items that give one output each, or none, give the outputs of those that give one. -/
theorem Account.map_outs {δ : Type} {f : β → δ} {g : α → δ} {p : α → Bool} {items : List α}
    {outs : List β} {notes : List γ} (h : Account Gives items outs notes)
    (heach : ∀ item outs notes, Gives item outs notes →
      outs.map f = if p item then [g item] else []) :
    outs.map f = (items.filter p).map g := by
  induction h with
  | nil => rfl
  | cons hgives _ ih =>
    rw [List.map_append, heach _ _ _ hgives, ih, List.filter_cons]
    split <;> rfl

/-- An account of a mapped list is one of the list. -/
theorem Account.of_map {α' : Type} {f : α' → α} {items : List α'} {outs : List β}
    {notes : List γ} (h : Account Gives (items.map f) outs notes) :
    Account (fun item => Gives (f item)) items outs notes := by
  induction items generalizing outs notes with
  | nil => cases h; exact .nil
  | cons item items ih =>
    cases h with
    | cons hgives hrest => exact .cons hgives (ih hrest)

/-- Outputs are pairwise related when those of one item are, and those of any
two items across. -/
theorem Account.pairwise {S : β → β → Prop} {items : List α} {outs : List β} {notes : List γ}
    (h : Account Gives items outs notes)
    (hwithin : ∀ item ∈ items, ∀ outs notes, Gives item outs notes → outs.Pairwise S)
    (hacross : items.Pairwise fun item item' => ∀ outs notes outs' notes',
      Gives item outs notes → Gives item' outs' notes' → ∀ out ∈ outs, ∀ out' ∈ outs', S out out') :
    outs.Pairwise S := by
  induction h with
  | nil => exact .nil
  | cons hgives hrest ih =>
    obtain ⟨hhead, htail⟩ := List.pairwise_cons.mp hacross
    refine List.pairwise_append.mpr ⟨hwithin _ List.mem_cons_self _ _ hgives,
      ih (fun item hitem => hwithin item (List.mem_cons_of_mem _ hitem)) htail, ?_⟩
    intro out hout out' hout'
    obtain ⟨item', hitem', outs', notes', hgives', hmem'⟩ := hrest.mem hout'
    exact hhead item' hitem' _ _ _ _ hgives hgives' out hout out' hmem'

/-- Items that give one thing only have one account. -/
theorem Account.unique
    (hunique : ∀ item outs outs' notes notes', Gives item outs notes → Gives item outs' notes' →
      outs = outs' ∧ notes = notes')
    {items : List α} {outs outs' : List β} {notes notes' : List γ}
    (h : Account Gives items outs notes) (h' : Account Gives items outs' notes') :
    outs = outs' ∧ notes = notes' := by
  induction h generalizing outs' notes' with
  | nil => cases h'; exact ⟨rfl, rfl⟩
  | cons hgives _ ih =>
    cases h' with
    | cons hgives' hrest' =>
      obtain ⟨rfl, rfl⟩ := hunique _ _ _ _ _ hgives hgives'
      obtain ⟨rfl, rfl⟩ := ih hrest'
      exact ⟨rfl, rfl⟩

/-- What a loop appends to two vectors of its state. -/
def Appends (outs : σ → List β) (notes : σ → List γ) (Made : List β → List γ → Prop)
    (before after : σ) : Prop :=
  ∃ o n, Made o n ∧ outs after = outs before ++ o ∧ notes after = notes before ++ n

/-- A loop whose every turn appends what its item gives appends an account. -/
theorem appends_foldl {outs : σ → List β} {notes : σ → List γ} {step : σ → α → σ}
    (hstep : ∀ state item, Appends outs notes (Gives item) state (step state item))
    (items : List α) : ∀ state,
      Appends outs notes (Account Gives items) state (items.foldl step state) := by
  induction items with
  | nil => intro state; exact ⟨[], [], .nil, by simp, by simp⟩
  | cons item items ih =>
    intro state
    obtain ⟨o, n, hgives, ho, hn⟩ := hstep state item
    obtain ⟨o', n', hrest, ho', hn'⟩ := ih (step state item)
    refine ⟨o ++ o', n ++ n', .cons hgives hrest, ?_, ?_⟩
    · rw [List.foldl_cons, ho', ho, List.append_assoc]
    · rw [List.foldl_cons, hn', hn, List.append_assoc]

end

end ParseX

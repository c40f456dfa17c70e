import Mathlib.Data.List.Basic
import Mathlib.Tactic.Common

/-! # Words in texts

Where a word can stand in a text, and when the pieces of a text can be told
from the text: pieces around a letter or a word, and items joined by a
separator. -/
namespace ParseX.Words

section
variable {α : Type} {word x y : List α} {c : α}

/-- A word that ends in a letter it has nowhere else does not overlap itself:
a second occurrence after the first lies in what follows the first. -/
theorem word_infix_of_shifted {init v v' w : List α} (hc : c ∉ init) (hw : w ≠ [])
    (h : init ++ [c] ++ v = w ++ (init ++ [c] ++ v')) : init ++ [c] <:+: v := by
  rcases List.append_eq_append_iff.mp h with ⟨w', rfl, hv⟩ | ⟨rest, hword, hv⟩
  · exact ⟨w', v', by rw [hv]; simp⟩
  · rcases List.eq_nil_or_concat' rest with rfl | ⟨front, last, rfl⟩
    · exact ⟨[], v', by simpa using hv⟩
    · rw [← List.append_assoc] at hword
      obtain ⟨rfl, hlast⟩ := List.append_inj' hword rfl
      obtain rfl : c = last := by simpa using hlast
      -- the second word starts inside the first, so its front holds the last letter
      simp only [List.append_assoc, List.singleton_append] at hv
      rw [← List.append_assoc] at hv
      rcases List.append_eq_append_iff.mp hv with ⟨t, hfront, ht⟩ | ⟨t, hfront, ht⟩
      · have := congrArg List.length hfront
        have := List.length_pos_of_ne_nil hw
        simp at *; omega
      · cases t with
        | nil => exact absurd (List.append_left_eq_self.mp (hfront.trans (List.append_nil _))) hw
        | cons first t =>
          obtain rfl : c = first := (List.cons.inj ht).1
          exact absurd (hfront ▸ List.mem_append_right _ List.mem_cons_self) hc

/-- What precedes such a word is determined when it does not come again. -/
theorem before_word_unique {init u u' v v' : List α} (hc : c ∉ init)
    (hv : ¬ init ++ [c] <:+: v) (hv' : ¬ init ++ [c] <:+: v')
    (h : u ++ (init ++ [c] ++ v) = u' ++ (init ++ [c] ++ v')) : u = u' := by
  rcases List.append_eq_append_iff.mp h with ⟨w, rfl, hw⟩ | ⟨w, rfl, hw⟩
  · by_cases hnil : w = []
    · rw [hnil, List.append_nil]
    · exact absurd (word_infix_of_shifted hc hnil hw) hv
  · by_cases hnil : w = []
    · rw [hnil, List.append_nil]
    · exact absurd (word_infix_of_shifted hc hnil hw) hv'

/-- A word that starts with a letter the text before it lacks lies after that
text. -/
theorem word_infix_after {rest : List α} (hx : c ∉ x) (h : c :: rest <:+: x ++ y) :
    c :: rest <:+: y := by
  obtain ⟨u, v, h⟩ := h
  rw [List.append_assoc] at h
  rcases List.append_eq_append_iff.mp h with ⟨t, rfl, ht⟩ | ⟨t, rfl, rfl⟩
  · cases t with
    | nil => exact ⟨[], v, by simpa using ht⟩
    | cons first t =>
      obtain rfl : c = first := (List.cons.inj ht).1
      simp at hx
  · exact ⟨t, v, by simp⟩

/-- A word whose last letter a text lacks lies before that text. -/
theorem word_infix_front {init : List α} (hy : c ∉ y) (h : init ++ [c] <:+: x ++ y) :
    init ++ [c] <:+: x := by
  obtain ⟨u, v, h⟩ := h
  rw [← List.append_assoc, List.append_assoc] at h
  rcases List.append_eq_append_iff.mp h with ⟨t, rfl, ht⟩ | ⟨t, ht, rfl⟩
  · cases t with
    | nil =>
      obtain rfl : y = c :: v := ht.symm
      simp at hy
    | cons first t =>
      obtain ⟨rfl, -⟩ := List.cons.inj ht
      exact ⟨u, t, by simp⟩
  · simp at hy

/-- The first occurrence of a letter splits a list. -/
theorem split_first_unique {init init' tail tail' : List α} {sep : α} (hinit : sep ∉ init)
    (hinit' : sep ∉ init') (h : init ++ sep :: tail = init' ++ sep :: tail') :
    init = init' ∧ tail = tail' := by
  rcases List.append_eq_append_iff.mp h with ⟨w, rfl, hw⟩ | ⟨w, rfl, hw⟩
  · cases w with
    | nil => exact ⟨by simp, by simpa using hw⟩
    | cons first w =>
      obtain rfl : sep = first := (List.cons.inj hw).1
      simp at hinit'
  · cases w with
    | nil => exact ⟨by simp, by simpa using hw.symm⟩
    | cons first w =>
      obtain rfl : sep = first := (List.cons.inj hw).1
      simp at hinit

/-- A letter that occurs once splits a list in one way only. -/
theorem split_at_unique {init tail init' tail' : List α} {sep : α} (hinit : sep ∉ init)
    (htail : sep ∉ tail) (h : init ++ sep :: tail = init' ++ sep :: tail') :
    init = init' ∧ tail = tail' := by
  rcases List.append_eq_append_iff.mp h with ⟨w, rfl, hw⟩ | ⟨w, rfl, hw⟩
  · cases w with
    | nil => exact ⟨by simp, by simpa using hw⟩
    | cons first w => rw [(List.cons.inj hw).2] at htail; simp at htail
  · cases w with
    | nil => exact ⟨by simp, by simpa using hw.symm⟩
    | cons first w =>
      obtain rfl : sep = first := (List.cons.inj hw).1
      simp at hinit

/-- A word with one separator letter, none of whose pieces can continue across
the separator, lies on one side of it. -/
theorem word_infix_side {init tail : List α} {sep gap : α} (hinit : sep ∉ init)
    (htail : sep ∉ tail) (hafter : ¬ tail <+: gap :: y) (hstart : ¬ init ++ sep :: tail <+: gap :: y)
    (h : init ++ sep :: tail <:+: x ++ sep :: gap :: y) :
    init ++ sep :: tail <:+: x ∨ init ++ sep :: tail <:+: y := by
  obtain ⟨u, v, h⟩ := h
  rcases List.append_eq_append_iff.mp h with ⟨t, rfl, ht⟩ | ⟨t, ht, hv⟩
  · exact Or.inl ⟨u, t, rfl⟩
  · -- the word ends inside or after the separator
    cases t with
    | nil => exact Or.inl ⟨u, [], by simpa using ht⟩
    | cons first t =>
      obtain ⟨rfl, ht'⟩ := List.cons.inj hv
      rcases List.append_eq_append_iff.mp ht with ⟨w, rfl, hw⟩ | ⟨w, rfl, hw⟩
      · obtain ⟨-, rfl⟩ := split_at_unique hinit htail hw
        exact absurd ⟨v, ht'.symm⟩ hafter
      · cases w with
        | nil =>
          have hsplit : init ++ sep :: tail = [] ++ sep :: t := hw.symm
          obtain ⟨-, rfl⟩ := split_at_unique hinit htail hsplit
          exact absurd ⟨v, ht'.symm⟩ hafter
        | cons first w =>
          obtain ⟨rfl, rfl⟩ := List.cons.inj hw
          cases w with
          | nil => exact absurd ⟨v, ht'.symm⟩ hstart
          | cons _ w =>
            obtain ⟨rfl, hy⟩ := List.cons.inj ht'
            exact Or.inr ⟨w, v, by rw [hy]; rfl⟩

/-- The last occurrence of a letter splits a list. -/
theorem split_last_unique {init init' tail tail' : List α} {sep : α} (htail : sep ∉ tail)
    (htail' : sep ∉ tail') (h : init ++ sep :: tail = init' ++ sep :: tail') :
    init = init' ∧ tail = tail' := by
  have hreverse : tail.reverse ++ sep :: init.reverse = tail'.reverse ++ sep :: init'.reverse := by
    simpa using congrArg List.reverse h
  obtain ⟨ht, hi⟩ := split_first_unique (by simpa using htail) (by simpa using htail') hreverse
  exact ⟨List.reverse_injective hi, List.reverse_injective ht⟩

/-! ## Joined items -/

/-- Items with a separator between two. -/
def joined (sep : α) (first : List α) (rest : List (List α)) : List α :=
  first ++ rest.flatMap (sep :: ·)

theorem intercalate_eq_joined (sep : α) (first : List α) : ∀ rest : List (List α),
    [sep].intercalate (first :: rest) = joined sep first rest := by
  intro rest
  induction rest generalizing first with
  | nil => simp [joined]
  | cons second rest ih =>
    rw [List.intercalate_cons_cons, ih]
    simp [joined]

/-- Nothing, or a separator first. -/
def Stops (sep : α) (text : List α) : Prop := text = [] ∨ ∃ rest, text = sep :: rest

theorem stops_items (sep : α) (rest : List (List α)) : Stops sep (rest.flatMap (sep :: ·)) := by
  cases rest with
  | nil => exact .inl rfl
  | cons item rest => exact .inr ⟨_, rfl⟩

/-- No item goes on, after a separator inside it, as a whole item followed by a
separator or the end would. -/
def Separable (sep : α) (item : List α → Prop) : Prop :=
  ∀ x y z w t t', item x → item y → item z → y = x ++ sep :: w → Stops sep t → Stops sep t' →
    w ++ t ≠ z ++ t'

/-- Items that no separator confuses are told from their joined text. -/
theorem joined_unique {sep : α} {item : List α → Prop} (hsep : Separable sep item) :
    ∀ {rest rest' : List (List α)} {first first' : List α}, (∀ x ∈ first :: rest, item x) →
      (∀ x ∈ first' :: rest', item x) → joined sep first rest = joined sep first' rest' →
      first = first' ∧ rest = rest' := by
  -- a first item that goes on where the other one ends is excluded
  have hlonger {rest rest' : List (List α)} {first first' w : List α} {c : α}
      (hitems : ∀ x ∈ first :: rest, item x) (hfirst' : item first')
      (hlong : first' = first ++ c :: w)
      (hrest : rest.flatMap (sep :: ·) = c :: w ++ rest'.flatMap (sep :: ·)) : False := by
    cases rest with
    | nil => cases hrest
    | cons second rest =>
      obtain ⟨rfl, hw⟩ := List.cons.inj hrest
      exact hsep first first' second w _ _ (hitems first (by simp)) hfirst'
        (hitems second (by simp)) hlong (stops_items sep rest') (stops_items sep rest) hw.symm
  intro rest
  induction rest with
  | nil =>
    intro rest' first first' hitems hitems' h
    rcases List.append_eq_append_iff.mp h with ⟨w, hw, hrest⟩ | ⟨w, hw, hrest⟩
    · cases w with
      | nil =>
        cases rest' with
        | nil => exact ⟨by simpa using hw.symm, rfl⟩
        | cons second rest' => cases hrest
      | cons c w => cases hrest
    · cases w with
      | nil =>
        cases rest' with
        | nil => exact ⟨by simpa using hw, rfl⟩
        | cons second rest' => cases hrest
      | cons c w => exact (hlonger hitems' (hitems first (by simp)) hw hrest).elim
  | cons second rest ih =>
    intro rest' first first' hitems hitems' h
    have hsame (heq : first = first')
        (hrest : (second :: rest).flatMap (sep :: ·) = rest'.flatMap (sep :: ·)) :
        first = first' ∧ second :: rest = rest' := by
      cases rest' with
      | nil => cases hrest
      | cons second' rest' =>
        obtain ⟨hsecond, htail⟩ := ih (fun x hx => hitems x (List.mem_cons_of_mem _ hx))
          (fun x hx => hitems' x (List.mem_cons_of_mem _ hx)) (List.cons.inj hrest).2
        exact ⟨heq, by rw [hsecond, htail]⟩
    rcases List.append_eq_append_iff.mp h with ⟨w, hw, hrest⟩ | ⟨w, hw, hrest⟩
    · cases w with
      | nil => exact hsame (by simpa using hw.symm) (by simpa using hrest)
      | cons c w => exact (hlonger hitems (hitems' first' (by simp)) hw hrest).elim
    · cases w with
      | nil => exact hsame (by simpa using hw) (by simpa using hrest.symm)
      | cons c w => exact (hlonger hitems' (hitems first (by simp)) hw hrest).elim

/-- Items without the separator in them. -/
theorem separable_of_not_mem (sep : α) : Separable sep fun x => sep ∉ x := by
  intro x y z w t t' _ hy _ hlong
  rw [hlong] at hy
  simp at hy

/-- Lists of such items, none empty, are told from their joined text. -/
theorem intercalate_unique {sep : α} {item : List α → Prop} (hsep : Separable sep item)
    (hne : ¬ item []) {items items' : List (List α)} (h : ∀ x ∈ items, item x)
    (h' : ∀ x ∈ items', item x) (heq : [sep].intercalate items = [sep].intercalate items') :
    items = items' := by
  -- a list with an item does not give the empty text
  have hnil {first : List α} {rest : List (List α)} (h : ∀ x ∈ first :: rest, item x) :
      [sep].intercalate (first :: rest) ≠ [] := by
    intro hempty
    rw [intercalate_eq_joined, joined, List.append_eq_nil_iff] at hempty
    exact hne (hempty.1 ▸ h first (by simp))
  cases items with
  | nil =>
    cases items' with
    | nil => rfl
    | cons first' rest' => exact absurd heq.symm (hnil h')
  | cons first rest =>
    cases items' with
    | nil => exact absurd heq (hnil h)
    | cons first' rest' =>
      rw [intercalate_eq_joined, intercalate_eq_joined] at heq
      obtain ⟨rfl, rfl⟩ := joined_unique hsep h h' heq
      rfl

/-- A loop that puts a separator after text that is not empty yet, once it has
some text. -/
theorem toList_foldl_separated {A : Type} (sep : Char) (text : A → String) (items : List A) :
    ∀ out : String, out ≠ "" → (items.foldl (fun out item =>
      (if out.isEmpty then out else out ++ String.singleton sep) ++ text item) out).toList =
        out.toList ++ items.flatMap fun item => sep :: (text item).toList := by
  induction items with
  | nil => intro out _; simp
  | cons item items ih =>
    intro out hout
    rw [List.foldl_cons, if_neg (by simpa using hout), ih _ (by simp)]
    simp

/-- Such a loop over items, the first of which gives text, joins them. -/
theorem toList_foldl_joined {A : Type} (sep : Char) (text : A → String) {first : A}
    (hfirst : text first ≠ "") (rest : List A) : ((first :: rest).foldl (fun out item =>
      (if out.isEmpty then out else out ++ String.singleton sep) ++ text item) "").toList =
        joined sep (text first).toList (rest.map fun item => (text item).toList) := by
  have hstart : (if "".isEmpty then "" else "" ++ String.singleton sep) ++ text first =
      text first := by simp
  rw [List.foldl_cons, hstart, toList_foldl_separated sep text rest _ hfirst, joined,
    List.flatMap_map]

/-- The text of the loop determines the items, when the first one gives text. -/
theorem foldl_joined_inj {A : Type} {sep : Char} {text : A → String} (hinj : Function.Injective text)
    {item : List Char → Prop} (hsep : Separable sep item) {items items' : List A}
    (hitems : ∀ a ∈ items, item (text a).toList) (hitems' : ∀ a ∈ items', item (text a).toList)
    (hfirst : ∀ a ∈ items.head?, text a ≠ "") (hfirst' : ∀ a ∈ items'.head?, text a ≠ "")
    (h : items.foldl (fun out a =>
        (if out.isEmpty then out else out ++ String.singleton sep) ++ text a) "" =
      items'.foldl (fun out a =>
        (if out.isEmpty then out else out ++ String.singleton sep) ++ text a) "") :
    items = items' := by
  have htext := congrArg String.toList h
  -- a list with an item does not give the empty text
  have hempty {first : A} (hfirst : text first ≠ "") (rest : List (List Char)) :
      joined sep (text first).toList rest ≠ [] := fun hnil =>
    hfirst (String.toList_inj.mp ((List.append_eq_nil_iff.mp hnil).1.trans rfl))
  cases items with
  | nil =>
    cases items' with
    | nil => rfl
    | cons first' rest' =>
      rw [toList_foldl_joined sep text (hfirst' first' rfl)] at htext
      exact absurd htext.symm (hempty (hfirst' first' rfl) _)
  | cons first rest =>
    cases items' with
    | nil =>
      rw [toList_foldl_joined sep text (hfirst first rfl)] at htext
      exact absurd htext (hempty (hfirst first rfl) _)
    | cons first' rest' =>
      rw [toList_foldl_joined sep text (hfirst first rfl),
        toList_foldl_joined sep text (hfirst' first' rfl)] at htext
      have hletters : Function.Injective fun a => (text a).toList :=
        fun _ _ heq => hinj (String.toList_inj.mp heq)
      have hall {first : A} {rest : List A} (h : ∀ a ∈ first :: rest, item (text a).toList) :
          ∀ x ∈ (text first).toList :: rest.map fun a => (text a).toList, item x := by
        intro x hx
        obtain ⟨a, ha, rfl⟩ : ∃ a ∈ first :: rest, (text a).toList = x := List.mem_map.mp hx
        exact h a ha
      obtain ⟨hsame, hrest⟩ := joined_unique hsep (hall hitems) (hall hitems') htext
      rw [hletters hsame, List.map_injective_iff.mpr hletters hrest]

/-- A word without the separator in it lies inside one item. -/
theorem word_in_item {sep : α} (hsep : sep ∉ word) (hne : word ≠ []) :
    ∀ {rest : List (List α)} {first : List α}, word <:+: joined sep first rest →
      ∃ item ∈ first :: rest, word <:+: item := by
  intro rest
  induction rest with
  | nil => exact fun {first} h => ⟨first, by simp, by simpa [joined] using h⟩
  | cons second rest ih =>
    intro first h
    obtain ⟨u, v, h⟩ := h
    have hsplit : u ++ word ++ v = first ++ sep :: joined sep second rest := by
      simpa [joined] using h
    rw [List.append_assoc] at hsplit
    rcases List.append_eq_append_iff.mp hsplit with ⟨w, hw, hrest⟩ | ⟨w, hw, hrest⟩
    · rcases List.append_eq_append_iff.mp hrest with ⟨t, ht, -⟩ | ⟨t, ht, hv⟩
      · exact ⟨first, by simp, u, t, by rw [hw, ht, List.append_assoc]⟩
      · cases t with
        | nil => exact ⟨first, by simp, u, [], by simpa [hw] using ht⟩
        | cons c t =>
          obtain ⟨rfl, -⟩ := List.cons.inj hv
          exact absurd (ht ▸ List.mem_append_right _ List.mem_cons_self) hsep
    · cases w with
      | nil =>
        cases word with
        | nil => exact absurd rfl hne
        | cons c word =>
          obtain ⟨rfl, -⟩ := List.cons.inj hrest
          simp at hsep
      | cons c w =>
        obtain ⟨rfl, hnext⟩ := List.cons.inj hrest
        obtain ⟨item, hitem, hin⟩ := ih ⟨w, v, by rw [List.append_assoc]; exact hnext.symm⟩
        exact ⟨item, List.mem_cons_of_mem _ hitem, hin⟩

end

end ParseX.Words

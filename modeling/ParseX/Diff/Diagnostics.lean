import ParseX.Base.Words
import ParseX.Diff.TypePass

/-! # Ambiguity messages

An ambiguity message determines its secondary key as long as no path it lists
contains the words that follow the key. -/
namespace ParseX
open Cpp Words

/-! ## The listed paths -/

/-- The words between the secondary key and the listed paths. -/
def keyEnd (elementTypeName : String) : String :=
  " for type " ++ elementTypeName ++ ", no move inferred ("

/-- The words occur in a text. -/
def HasKeyEnd (elementTypeName text : String) : Prop :=
  (keyEnd elementTypeName).toList <:+: text.toList

theorem keyEnd_toList (elementTypeName : String) : (keyEnd elementTypeName).toList =
    (" for type".toList ++ ' ' :: elementTypeName.toList) ++ ',' :: " no move inferred (".toList := by
  simp [keyEnd, String.toList_append]

theorem keyEnd_snoc (elementTypeName : String) : (keyEnd elementTypeName).toList =
    (" for type ".toList ++ elementTypeName.toList ++ ", no move inferred ".toList) ++ ['('] := by
  simp [keyEnd, String.toList_append]

/-- A type name without comma or parenthesis. -/
def PlainName (name : String) : Prop := ',' ∉ name.toList ∧ '(' ∉ name.toList

/-- A joined list starts as its first item does. -/
theorem head_intercalate {item : String} {c : Char} (h : item.toList.head? = some c)
    (items : List String) : (", ".intercalate (item :: items)).toList.head? = some c := by
  cases items with
  | nil => simpa using h
  | cons next items =>
    rw [String.intercalate_cons_cons]
    simp [String.toList_append, List.head?_append, h]

/-- The words lie inside one listed item. -/
theorem keyEnd_in_item {elementTypeName : String} (hname : PlainName elementTypeName) :
    ∀ items : List String, (∀ item ∈ items, item.toList.head? = some 'r' ∨
      item.toList.head? = some 'a') →
      HasKeyEnd elementTypeName (", ".intercalate items) →
      ∃ item ∈ items, HasKeyEnd elementTypeName item
  | [], _, h => by
    have := h.length_le
    simp [keyEnd] at this
  | [item], _, h => ⟨item, by simp, by simpa using h⟩
  | item :: next :: items, hitems, h => by
    have hhead : (", ".intercalate (next :: items)).toList.head? = some 'r' ∨
        (", ".intercalate (next :: items)).toList.head? = some 'a' :=
      (hitems next (by simp)).imp (fun h => head_intercalate h items)
        (fun h => head_intercalate h items)
    generalize hrest : (", ".intercalate (next :: items)).toList = rest at hhead
    have hwords : (" for type".toList ++ ' ' :: elementTypeName.toList) ++
        ',' :: " no move inferred (".toList <:+: item.toList ++ ',' :: ' ' :: rest := by
      rw [HasKeyEnd, String.intercalate_cons_cons, keyEnd_toList] at h
      simpa [String.toList_append, hrest] using h
    have hnext (c : Char) (tail : List Char) (hc : c ≠ 'r' ∧ c ≠ 'a') :
        ¬ ' ' :: c :: tail <+: ' ' :: rest := by
      rintro ⟨v, hv⟩
      rw [← (List.cons.inj hv).2] at hhead
      rcases hhead with hhead | hhead
      · exact hc.1 (Option.some.inj hhead)
      · exact hc.2 (Option.some.inj hhead)
    have hcomma : ',' ∉ " for type".toList ++ ' ' :: elementTypeName.toList := by
      simpa using hname.1
    rcases word_infix_side hcomma (by decide) (hnext 'n' _ (by decide))
      (hnext 'f' _ (by decide)) hwords with hwords | hwords
    · exact ⟨item, by simp, by rw [HasKeyEnd, keyEnd_toList]; exact hwords⟩
    · obtain ⟨found, hf, hword⟩ := keyEnd_in_item hname (next :: items)
        (fun item hi => hitems item (List.mem_cons_of_mem _ hi))
        (by rw [HasKeyEnd, keyEnd_toList, hrest]; exact hwords)
      exact ⟨found, List.mem_cons_of_mem _ hf, hword⟩

/-- The words are in a listed item only if they are in its path. -/
theorem keyEnd_in_path {elementTypeName side path : String} (hside : ' ' ∉ side.toList)
    (h : HasKeyEnd elementTypeName (side ++ path)) : HasKeyEnd elementTypeName path := by
  rw [HasKeyEnd, String.toList_append, keyEnd_toList] at h
  rw [HasKeyEnd, keyEnd_toList]
  exact word_infix_after hside h

theorem ambiguityMessage_toList (elementTypeName key : String) (removed added : List String) :
    (ambiguityMessage elementTypeName key removed added).toList =
      (toString (removed.length + added.length)).toList ++ ' ' ::
        ("candidates shared secondary key ".toList ++ (key.toList ++
          ((keyEnd elementTypeName).toList ++ ((", ".intercalate (removed.map ("removed:" ++ ·) ++
            added.map ("added:" ++ ·))).toList ++ [')'])))) := by
  simp [ambiguityMessage, keyEnd, String.toList_append]

/-- Messages over plain paths determine their keys. -/
theorem key_of_ambiguityMessage {elementTypeName key key' : String}
    {removed added removed' added' : List String} (hname : PlainName elementTypeName)
    (hpaths : ∀ path ∈ removed ++ added ++ removed' ++ added', ¬ HasKeyEnd elementTypeName path)
    (h : ambiguityMessage elementTypeName key removed added =
      ambiguityMessage elementTypeName key' removed' added') : key = key' := by
  have hlist (removed added : List String)
      (hpaths : ∀ path ∈ removed ++ added, ¬ HasKeyEnd elementTypeName path) :
      ¬ (keyEnd elementTypeName).toList <:+: (", ".intercalate (removed.map ("removed:" ++ ·) ++
        added.map ("added:" ++ ·))).toList ++ [')'] := by
    rw [keyEnd_snoc]
    intro hin
    have hin := word_infix_front (by decide) hin
    rw [← keyEnd_snoc] at hin
    have hitems : ∀ item ∈ removed.map ("removed:" ++ ·) ++ added.map ("added:" ++ ·),
        item.toList.head? = some 'r' ∨ item.toList.head? = some 'a' := by
      intro item hitem
      rcases List.mem_append.mp hitem with hitem | hitem
      · obtain ⟨path, -, rfl⟩ := List.mem_map.mp hitem
        exact Or.inl (by simp [String.toList_append])
      · obtain ⟨path, -, rfl⟩ := List.mem_map.mp hitem
        exact Or.inr (by simp [String.toList_append])
    obtain ⟨item, hitem, hword⟩ := keyEnd_in_item hname _ hitems hin
    rcases List.mem_append.mp hitem with hitem | hitem
    · obtain ⟨path, hpath, rfl⟩ := List.mem_map.mp hitem
      exact hpaths path (List.mem_append_left _ hpath) (keyEnd_in_path (by decide) hword)
    · obtain ⟨path, hpath, rfl⟩ := List.mem_map.mp hitem
      exact hpaths path (List.mem_append_right _ hpath) (keyEnd_in_path (by decide) hword)
  have hin := hlist removed added fun path hp => hpaths path (by simp at hp ⊢; tauto)
  have hin' := hlist removed' added' fun path hp => hpaths path (by simp at hp ⊢; tauto)
  have hparen : '(' ∉ " for type ".toList ++ elementTypeName.toList ++
      ", no move inferred ".toList := by
    simpa using hname.2
  have hspace (n : Nat) : ' ' ∉ (toString n).toList :=
    fun hmem => toString_nat_ne hmem (by decide) n rfl
  have htext := congrArg String.toList h
  rw [ambiguityMessage_toList, ambiguityMessage_toList] at htext
  rw [keyEnd_snoc] at htext hin hin'
  have hbefore : (toString (removed.length + added.length)).toList ++ ' ' ::
      ("candidates shared secondary key ".toList ++ key.toList) =
      (toString (removed'.length + added'.length)).toList ++ ' ' ::
        ("candidates shared secondary key ".toList ++ key'.toList) :=
    before_word_unique hparen hin hin' (by simpa only [List.append_assoc, List.cons_append] using htext)
  have hkey := (split_first_unique (hspace _) (hspace _) hbefore).2
  exact String.toList_inj.mp (List.append_cancel_left hkey)

/-! ## The diagnostics of a pass -/

theorem ambiguityOf_eq_some {elementTypeName key : String} {removed added : List String}
    {d : DiffDiagnostic} (h : ambiguityOf elementTypeName key removed added = some d) :
    d = ⟨ambiguityMessage elementTypeName key removed added, elementTypeName⟩ := by
  rcases removed with _ | ⟨r, _ | ⟨r', removed⟩⟩ <;>
    rcases added with _ | ⟨a, _ | ⟨a', added⟩⟩ <;> simp_all [ambiguityOf]

namespace TypePass
variable (pass : TypePass)

theorem elementType_of_mem_diagnostics {d : DiffDiagnostic} (h : d ∈ pass.diagnostics) :
    d.elementType = pass.name := by
  obtain ⟨key, -, hd⟩ := List.mem_filterMap.mp h
  rw [ambiguityOf_eq_some hd]

/-- The diagnostics of a type differ in their messages when no path of the type
holds the words that follow a key. -/
theorem diagnostics_nodup (hname : PlainName pass.name)
    (hold : ∀ path ∈ pass.oldIndex, ¬ HasKeyEnd pass.name path)
    (hnew : ∀ path ∈ pass.newIndex, ¬ HasKeyEnd pass.name path) :
    (pass.diagnostics.map DiffDiagnostic.message).Nodup := by
  rw [diagnostics, List.map_filterMap, List.Nodup, List.pairwise_filterMap]
  have hpaths (key : String) : ∀ path ∈ pass.oldWith key ++ pass.newWith key,
      ¬ HasKeyEnd pass.name path := by
    intro path hp
    rcases List.mem_append.mp hp with hp | hp
    · exact hold path (pass.mem_oldOnly.mp (pass.mem_oldWith.mp hp).1).1
    · exact hnew path (pass.mem_newOnly.mp (pass.mem_newWith.mp hp).1).1
  refine (keys_nodup _).imp ?_
  intro key key' hne message hm message' hm' he
  obtain ⟨d, hd, rfl⟩ := Option.map_eq_some_iff.mp hm
  obtain ⟨d', hd', rfl⟩ := Option.map_eq_some_iff.mp hm'
  rw [ambiguityOf_eq_some hd, ambiguityOf_eq_some hd'] at he
  refine hne (key_of_ambiguityMessage hname ?_ he)
  intro path hp
  rw [List.append_assoc] at hp
  rcases List.mem_append.mp hp with hp | hp
  · exact hpaths key path hp
  · exact hpaths key' path hp

end TypePass

end ParseX

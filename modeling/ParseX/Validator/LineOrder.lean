import ParseX.Raw.LoaderContent
import ParseX.Raw.LoaderRuns
import ParseX.Validator.ValidatorSchema

/-! # The line index of a loaded document

Elements of a loaded document open one behind the other, so the sort of the index, stable or not, leaves
them in document order. -/
namespace ParseX
open Cpp Loader

/-! ## Lines -/

theorem count_pairCodes_take (f : UInt8 → UInt8 → Option UInt8) (code : UInt8) :
    ∀ (bytes : Bytes) (n : Nat),
      (pairCodes f (bytes.take n)).count (some code) ≤ (pairCodes f bytes).count (some code)
  | [], n => by rw [List.take_nil]
  | [first], n => by
    cases n with
    | zero => exact Nat.zero_le _
    | succ n => rw [List.take_succ_cons, List.take_nil]
  | first :: second :: rest, n => by
    match n with
    | 0 => exact Nat.zero_le _
    | 1 => exact Nat.zero_le _
    | n + 2 =>
      rw [List.take_succ_cons, List.take_succ_cons, pairCodes, pairCodes, List.count_cons, List.count_cons]
      exact Nat.add_le_add_right (count_pairCodes_take f code rest n) _

/-- Lines do not go back. -/
theorem lineNumberAt_mono {bytes : Bytes} {encoding : RawEncodingClass} {offset offset' : Nat}
    (h : offset ≤ offset') :
    lineNumberAt bytes encoding offset ≤ lineNumberAt bytes encoding offset' := by
  have htake : bytes.take offset = (bytes.take offset').take offset := by
    rw [List.take_take, Nat.min_eq_left h]
  rw [lineNumberAt, lineNumberAt, htake]
  refine Nat.succ_le_succ ?_
  cases encoding with
  | singleByte => exact ((List.take_sublist offset _).map byteCode).count_le _
  | utf16Le => exact count_pairCodes_take _ _ _ _
  | utf16Be => exact count_pairCodes_take _ _ _ _

theorem length_pairCodes (f : UInt8 → UInt8 → Option UInt8) : ∀ bytes : Bytes,
    (pairCodes f bytes).length ≤ bytes.length
  | [] => le_rfl
  | [_] => le_rfl
  | _ :: _ :: rest => by
    have := length_pairCodes f rest
    simp only [pairCodes, List.length_cons]
    omega

theorem lineNumberAt_le (bytes : Bytes) (encoding : RawEncodingClass) (offset : Nat) :
    lineNumberAt bytes encoding offset ≤ offset + 1 := by
  have hlength (bytes : Bytes) : (codes encoding bytes).length ≤ bytes.length := by
    cases encoding with
    | singleByte => exact (List.length_map _).le
    | utf16Le => exact length_pairCodes _ bytes
    | utf16Be => exact length_pairCodes _ bytes
  have htaken := hlength (bytes.take offset)
  have hcount : (codes encoding (bytes.take offset)).count (some 0x0A) ≤ _ := List.count_le_length
  rw [List.length_take] at htaken
  rw [lineNumberAt]
  omega

/-! ## The index -/

/-- Entries in strict order are the only outcome of the sort. -/
theorem IsLineIndex.eq_of_strict {root : RawNode} {index : LineIndex} (h : IsLineIndex root index)
    (hstrict : (collectLineEntries root).Pairwise fun earlier later => lineBefore earlier later = true) :
    index = collectLineEntries root := by
  have hbefore {lhs rhs : Int × RawSpan} (hlt : lineBefore lhs rhs = true) : lineBefore rhs lhs = false := by
    rw [← Bool.not_eq_true, lineBefore] at *
    split_ifs at * <;> simp_all <;> omega
  have hcomparable : (collectLineEntries root).Pairwise fun lhs rhs =>
      lineBefore lhs rhs = true ∨ lineBefore rhs lhs = true := hstrict.imp .inl
  refine List.Perm.eq_of_pairwise (fun lhs rhs hlhs hrhs hle hge => ?_) h.2
    (hstrict.imp hbefore) h.1
  have hsymm : Std.Symm fun lhs rhs : Int × RawSpan => lineBefore lhs rhs = true ∨ lineBefore rhs lhs = true :=
    ⟨fun lhs rhs => Or.symm⟩
  by_contra hne
  rcases hcomparable.forall (h.1.mem_iff.mp hlhs) hrhs hne with hlt | hlt
  · rw [hge] at hlt
    cases hlt
  · rw [hle] at hlt
    cases hlt

/-- **A loaded document is indexed in document order**, whatever order an unstable sort may leave: the
schema errors of a file are located alike on every run. -/
theorem lineIndex_loaded {bytes : Bytes} {delivery : Delivery} {root : RawNode} {index : LineIndex}
    (h : loadRawDocumentFromMemory bytes delivery = some root) (hsize : bytes.length < 2 ^ 31)
    (hindex : IsLineIndex root index) :
    index = root.nodes.map fun node => ((node.span.lineNumber : Int), node.span) := by
  obtain ⟨encoding, -, hsited⟩ := load_sited h
  have hline : ∀ node ∈ root.nodes, 0 < node.span.lineNumber ∧ node.span.lineNumber < 2 ^ 31 := by
    intro node hnode
    have hnode := hsited node hnode
    have hle := lineNumberAt_le bytes encoding node.span.startOffset
    have hend := hnode.ends.le
    have hlt := hnode.start_lt_end
    rw [hnode.line]
    exact ⟨Nat.succ_pos _, by omega⟩
  have hentries : collectLineEntries root =
      root.nodes.map fun node => ((node.span.lineNumber : Int), node.span) := by
    rw [collectLineEntries_eq, List.filter_eq_self.mpr fun node hnode => decide_eq_true (hline node hnode).1]
    exact List.map_congr_left fun node hnode => by rw [intOfSize_small (hline node hnode).2]
  rw [← hentries]
  refine hindex.eq_of_strict ?_
  rw [hentries, List.pairwise_map]
  refine (starts_increase root hsited).imp_of_mem fun {first second} hfirst hsecond hlt => ?_
  have hmono := @lineNumberAt_mono bytes encoding _ _ hlt.le
  rw [← (hsited first hfirst).line, ← (hsited second hsecond).line] at hmono
  rw [lineBefore]
  split
  · rename_i hne
    exact decide_eq_true (lt_of_le_of_ne (Int.ofNat_le.mpr hmono) hne)
  · exact decide_eq_true hlt

theorem lineIndex_loaded_mixed : ∃ root,
    loadRawDocumentFromMemory (utf8 "<A id='1'>x<p:B/>yz</A>") ⟨mixedContent.events, true⟩ = some root ∧
      buildLineIndex root = root.nodes.map fun node => ((node.span.lineNumber : Int), node.span) := by
  have hloads : (loadRawDocumentFromMemory (utf8 "<A id='1'>x<p:B/>yz</A>")
      ⟨mixedContent.events, true⟩).isSome = true := by decide +kernel
  obtain ⟨root, hroot⟩ := Option.isSome_iff_exists.mp hloads
  exact ⟨root, hroot, lineIndex_loaded hroot (by decide +kernel) (isLineIndex_buildLineIndex root)⟩

end ParseX

import ParseX.Raw.TagScanner

/-! # Scanning an encoded text

What the loops of the scanner do at a place from which the bytes encode a text: they stop at
the characters that they look for, however many units the others have. -/
namespace ParseX.Loader
open Cpp

/-- How many bytes a text takes. -/
def size (encoding : RawEncodingClass) (text : List Char) : Nat := (encode encoding text).length

theorem encode_append (encoding : RawEncodingClass) (text more : List Char) :
    encode encoding (text ++ more) = encode encoding text ++ encode encoding more :=
  List.flatMap_append

@[simp] theorem size_append (encoding : RawEncodingClass) (text more : List Char) :
    size encoding (text ++ more) = size encoding text + size encoding more := by
  rw [size, encode_append, List.length_append]
  rfl

@[simp] theorem size_nil (encoding : RawEncodingClass) : size encoding [] = 0 := rfl

theorem size_cons (encoding : RawEncodingClass) (c : Char) (text : List Char) :
    size encoding (c :: text) = size encoding [c] + size encoding text :=
  size_append encoding [c] text

theorem size_ascii (encoding : RawEncodingClass) {c : Char} (h : c.toNat < 128) :
    size encoding [c] = unitWidth encoding := by
  rw [size, length_encode, textCodes, List.flatMap_singleton, charCodes_ascii encoding h]
  exact Nat.one_mul _

/-- Every letter of ASCII takes a unit. -/
theorem size_of_ascii (encoding : RawEncodingClass) {text : List Char} (h : ∀ c ∈ text, c.toNat < 128) :
    size encoding text = text.length * unitWidth encoding := by
  induction text with
  | nil => rw [List.length_nil, Nat.zero_mul, size_nil]
  | cons c text ih =>
    obtain ⟨hc, htext⟩ := List.forall_mem_cons.mp h
    rw [size_cons, size_ascii encoding hc, ih htext, List.length_cons, Nat.succ_mul, Nat.add_comm]

theorem charCodes_ne_nil (encoding : RawEncodingClass) (c : Char) : charCodes encoding c ≠ [] := by
  have hunits : utf16 c ≠ [] := by
    rw [utf16]
    split
    · exact List.cons_ne_nil _ _
    · exact List.cons_ne_nil _ _
  intro hnil
  have hlength := length_encodeChar encoding c
  rw [hnil, List.length_nil, Nat.zero_mul, List.length_eq_zero_iff] at hlength
  cases encoding with
  | singleByte =>
    rw [encodeChar] at hlength
    exact absurd (congrArg List.length hlength) (Nat.ne_of_gt (by
      rw [String.length_utf8EncodeChar]
      exact Char.utf8Size_pos c))
  | utf16Le =>
    rw [encodeChar, List.flatMap_eq_nil_iff] at hlength
    obtain ⟨unit, hunit⟩ := List.exists_mem_of_ne_nil _ hunits
    exact List.cons_ne_nil _ _ (hlength unit hunit)
  | utf16Be =>
    rw [encodeChar, List.flatMap_eq_nil_iff] at hlength
    obtain ⟨unit, hunit⟩ := List.exists_mem_of_ne_nil _ hunits
    exact List.cons_ne_nil _ _ (hlength unit hunit)

theorem size_pos (encoding : RawEncodingClass) (c : Char) : 0 < size encoding [c] := by
  rw [size, length_encode, textCodes, List.flatMap_singleton]
  exact Nat.mul_pos (List.length_pos_of_ne_nil (charCodes_ne_nil encoding c)) (unitWidth_pos encoding)

/-- Of the texts that open a text no two take the same number of bytes. -/
theorem size_inj {encoding : RawEncodingClass} {unit unit' rest rest' : List Char}
    (htext : unit ++ rest = unit' ++ rest') (hsize : size encoding unit = size encoding unit') :
    unit = unit' := by
  have hnil {more : List Char} (h : size encoding more = 0) : more = [] := by
    cases more with
    | nil => rfl
    | cons c more =>
      have hpos := size_pos encoding c
      rw [size_cons] at h
      omega
  rcases List.append_eq_append_iff.mp htext with ⟨more, rfl, -⟩ | ⟨more, rfl, -⟩
  · rw [size_append] at hsize
    have hmore : more = [] := hnil (by omega)
    rw [hmore, List.append_nil]
  · rw [size_append] at hsize
    have hmore : more = [] := hnil (by omega)
    rw [hmore, List.append_nil]

/-! ## Places from which a text is read -/

/-- From a place on the bytes encode a text. -/
def Reads (bytes : Bytes) (encoding : RawEncodingClass) (pos : Nat) (text : List Char) : Prop :=
  bytes.drop pos = encode encoding text

section
variable {bytes : Bytes} {encoding : RawEncodingClass} {pos : Nat} {text unit rest : List Char} {c : Char}

theorem Reads.past (h : Reads bytes encoding pos (unit ++ rest)) :
    Reads bytes encoding (pos + size encoding unit) rest := by
  rw [Reads, ← List.drop_drop, h, encode_append]
  exact List.drop_left

theorem Reads.past_char (h : Reads bytes encoding pos (c :: text)) :
    Reads bytes encoding (pos + size encoding [c]) text :=
  Reads.past (List.singleton_append ▸ h)

/-- A letter of ASCII is passed with its unit. -/
theorem Reads.tail (h : Reads bytes encoding pos (c :: text)) (hc : c.toNat < 128) :
    Reads bytes encoding (pos + unitWidth encoding) text := by
  rw [← size_ascii encoding hc]
  exact h.past_char

theorem Reads.lt (h : Reads bytes encoding pos (c :: text)) : pos < bytes.length := by
  by_contra hge
  have hlength : (encode encoding (c :: text)).length = 0 := by
    rw [← h, List.drop_eq_nil_of_le (Nat.le_of_not_lt hge), List.length_nil]
  have hpos := size_pos encoding c
  have hsize : size encoding (c :: text) = 0 := hlength
  rw [size_cons] at hsize
  omega

theorem Reads.le (h : Reads bytes encoding pos []) : bytes.length ≤ pos := List.drop_eq_nil_iff.mp h

/-- The unit at the place of a character is its first. -/
theorem Reads.unitAscii_mem (h : Reads bytes encoding pos (c :: text)) :
    unitAscii bytes encoding pos ∈ charCodes encoding c := by
  have hcodes : codes encoding (bytes.drop pos) = unitAscii bytes encoding pos ::
      codes encoding (bytes.drop (pos + unitWidth encoding)) := codes_drop h.lt
  rw [h, encode_cons, codes_encodeChar] at hcodes
  cases hc : charCodes encoding c with
  | nil => exact absurd hc (charCodes_ne_nil encoding c)
  | cons code more =>
    rw [hc, List.cons_append, List.cons.injEq] at hcodes
    rw [← hcodes.1]
    exact List.mem_cons_self ..

theorem unitAscii_of_le (h : bytes.length ≤ pos) : unitAscii bytes encoding pos = none := by
  have hfirst : bytes[pos]? = none := List.getElem?_eq_none h
  cases encoding with
  | singleByte => rw [unitAscii, hfirst]
  | utf16Le => rw [unitAscii, hfirst]
  | utf16Be => rw [unitAscii, hfirst]

/-- A mark is found exactly where the text has it. -/
theorem Reads.unitIs (h : Reads bytes encoding pos text) {mark : Char} (hmark : mark.toNat < 128) :
    unitIs bytes encoding pos mark = (text.head? == some mark) := by
  rw [Loader.unitIs]
  cases text with
  | nil => rw [unitAscii_of_le h.le, List.head?_nil]; rfl
  | cons c text =>
    have hmem := h.unitAscii_mem
    rw [List.head?_cons]
    by_cases hc : c = mark
    · rw [hc, charCodes_ascii encoding hmark, List.mem_singleton] at hmem
      rw [hmem, hc, beq_self_eq_true, beq_self_eq_true]
    · rw [beq_false_of_ne (charCodes_ne encoding hmark hc _ hmem),
        beq_false_of_ne (fun heq => hc (Option.some.inj heq))]

theorem Reads.unitIs_head (h : Reads bytes encoding pos (c :: text)) {mark : Char}
    (hmark : mark.toNat < 128) : Loader.unitIs bytes encoding pos mark = true ↔ c = mark := by
  rw [h.unitIs hmark, List.head?_cons, beq_iff_eq, Option.some_inj]

theorem Reads.matchLiteral {literal : List Char} (hliteral : ∀ c ∈ literal, c.toNat < 128) :
    ∀ {pos text}, Reads bytes encoding pos text →
      matchLiteral bytes encoding pos literal = literal.isPrefixOf text := by
  induction literal with
  | nil =>
    intro pos text _
    rfl
  | cons expected literal ih =>
    obtain ⟨hexpected, hmore⟩ := List.forall_mem_cons.mp hliteral
    intro pos text h
    rw [Loader.matchLiteral, h.unitIs hexpected]
    cases text with
    | nil => rfl
    | cons c text =>
      rw [List.head?_cons, List.isPrefixOf]
      by_cases hc : expected = c
      · rw [ih hmore (h.tail (hc ▸ hexpected)), hc, beq_self_eq_true, beq_self_eq_true]
      · rw [beq_false_of_ne hc, beq_false_of_ne fun heq => hc (Option.some.inj heq).symm]
        rfl

/-- A loop that goes on at every unit without a mark, the marks other than `c` excepted, passes
the units of `c`. -/
theorem Reads.walk {β : Type} {loop : Nat → β} (h : Reads bytes encoding pos (c :: text))
    (hstep : ∀ place < bytes.length,
      (∀ mark : Char, mark.toNat < 128 → c ≠ mark → Loader.unitIs bytes encoding place mark = false) →
        loop place = loop (place + unitWidth encoding)) :
    loop pos = loop (pos + size encoding [c]) := by
  have hcodes : codes encoding (bytes.drop pos) =
      charCodes encoding c ++ codes encoding (encode encoding text) := by
    rw [h, encode_cons, codes_encodeChar]
  have hsize : size encoding [c] = (charCodes encoding c).length * unitWidth encoding := by
    rw [size, length_encode, textCodes, List.flatMap_singleton]
  have hother : ∀ code ∈ charCodes encoding c, ∀ mark : Char, mark.toNat < 128 → c ≠ mark →
      code ≠ some mark.toUInt8 :=
    fun code hcode mark hmark hc => charCodes_ne encoding hmark hc code hcode
  rw [hsize]
  clear h hsize
  generalize charCodes encoding c = units at hcodes hother
  induction units generalizing pos with
  | nil => rw [List.length_nil, Nat.zero_mul, Nat.add_zero]
  | cons code units ih =>
    have hlt : pos < bytes.length := by
      by_contra hge
      rw [codes_drop_of_le (Nat.le_of_not_lt hge)] at hcodes
      cases hcodes
    rw [codes_drop hlt, List.cons_append, List.cons.injEq] at hcodes
    obtain ⟨hcode, hcodes⟩ := hcodes
    obtain ⟨hfirst, hother⟩ := List.forall_mem_cons.mp hother
    have hnext : loop pos = loop (pos + unitWidth encoding) := by
      refine hstep pos hlt fun mark hmark hc => ?_
      rw [Loader.unitIs, hcode]
      exact beq_false_of_ne (hfirst mark hmark hc)
    rw [hnext, ih hcodes hother, List.length_cons, Nat.succ_mul]
    congr 1
    omega

end

end ParseX.Loader

import Mathlib.Data.List.TakeWhile
import ParseX.Mcp.Protocol

/-! # Id recovery

Which id is read from a line that is not parsed: the value at the leftmost match of
a pattern, wherever the line breaks off. -/
namespace ParseX.Mcp
open Cpp JsonText

/-! ## The pattern -/

/-- White space and the rest after it. -/
def Spaced (text rest : Bytes) : Prop :=
  ∃ space, (∀ byte ∈ space, isJsonSpace byte = true) ∧ text = space ++ rest

/-- The value at the front of a text, none where it is an integer too large. -/
inductive IdText : Option Json → Bytes → Prop where
  | number {negative : Bool} {text after : Bytes} : Digits text →
      (∀ byte, after.head? = some byte → byte ∉ digits) →
      IdText (if inLongLong (integerValue negative text) then
        some (.integer (integerValue negative text)) else none) (sign negative ++ (text ++ after))
  | string {raw after : Bytes} : quote ∉ raw →
      IdText (some (.string raw)) (quote :: (raw ++ quote :: after))
  | null {after : Bytes} : IdText (some .null) (utf8 "null" ++ after)

/-- What follows a key: a colon and a value, with white space around the colon. -/
def AfterKey (value : Option Json) (text : Bytes) : Prop :=
  ∃ t t₁, Spaced text (colon :: t) ∧ Spaced t t₁ ∧ IdText value t₁

/-- The pattern at the front of a text. -/
def IdMatch (value : Option Json) (text : Bytes) : Prop :=
  ∃ rest, text = kKey ++ rest ∧ AfterKey value rest

/-- The first place of a line where the pattern matches. -/
def Leftmost (line : Bytes) (place : Nat) (value : Option Json) : Prop :=
  IdMatch value (line.drop place) ∧
    ∀ other < place, ∀ earlier, ¬ IdMatch earlier (line.drop other)

/-! ## Reading the value -/

theorem skipJsonSpace_spaced {text rest : Bytes} {byte : UInt8} (h : Spaced text (byte :: rest))
    (hbyte : isJsonSpace byte = false) : skipJsonSpace text = byte :: rest := by
  obtain ⟨space, hspace, rfl⟩ := h
  rw [skipJsonSpace, List.dropWhile_append_of_pos hspace, List.dropWhile_cons, hbyte]
  rfl

theorem spaced_skipJsonSpace (text : Bytes) : Spaced text (skipJsonSpace text) :=
  ⟨text.takeWhile isJsonSpace, fun _ hbyte => List.mem_takeWhile_imp hbyte,
    List.takeWhile_append_dropWhile.symm⟩

/-- What is read where a value stands after the colon. -/
theorem readIdValue_text {rest t text : Bytes} {byte : UInt8} (hcolon : Spaced rest (colon :: t))
    (htext : Spaced t (byte :: text)) (hbyte : isJsonSpace byte = false) :
    readIdValue rest =
      if (utf8 "null").isPrefixOf (byte :: text) then .found .null
      else if byte = quote then
        if quote ∈ text then .found (.string (text.takeWhile (· ≠ quote))) else .keepLooking
      else readIdNumber (byte :: text) := by
  have hafter := skipJsonSpace_spaced hcolon (by decide)
  have hvalue := skipJsonSpace_spaced htext hbyte
  simp [readIdValue, hafter, hvalue]

/-! ## Numbers -/

theorem digit_of_mem {byte : UInt8} (h : byte ∈ digits) : isAsciiDigit byte = true ∧
    digitVal 10 (Char.ofNat byte.toNat) = some (byte.toNat - 48) := by
  have hdigits : ∀ byte ∈ digits, isAsciiDigit byte = true ∧
      digitVal 10 (Char.ofNat byte.toNat) = some (byte.toNat - 48) := by
    decide
  exact hdigits byte h

theorem mem_digits {byte : UInt8} (h : isAsciiDigit byte = true) : byte ∈ digits := by
  obtain ⟨hlow, hhigh⟩ := Bool.and_eq_true_iff.mp h
  have hlow : 48 ≤ byte.toNat := UInt8.le_iff_toNat_le.mp (of_decide_eq_true hlow)
  have hhigh : byte.toNat ≤ 57 := UInt8.le_iff_toNat_le.mp (of_decide_eq_true hhigh)
  have hdigits : ∀ value < 10, UInt8.ofNat (48 + value) ∈ digits := by decide
  have hbyte := hdigits (byte.toNat - 48) (by omega)
  rwa [show 48 + (byte.toNat - 48) = byte.toNat by omega, UInt8.ofNat_toNat] at hbyte

theorem digitRun_ascii {text : Bytes} (h : ∀ byte ∈ text, byte ∈ digits) :
    digitRun 10 (text.map fun byte => Char.ofNat byte.toNat) =
      text.map fun byte => byte.toNat - 48 := by
  induction text with
  | nil => rfl
  | cons byte text ih =>
    obtain ⟨hbyte, htext⟩ := List.forall_mem_cons.mp h
    rw [List.map_cons, digitRun, (digit_of_mem hbyte).2, List.map_cons, ← ih htext]

/-- `std::stoll` reads a run of digits, if `long long` holds it. -/
theorem stoll_digits {negative : Bool} {text : Bytes} (h : Digits text) :
    (stoll (asciiText (sign negative ++ text))).map Prod.fst =
      if inLongLong (integerValue negative text) then some (integerValue negative text)
      else none := by
  have hne : (text.map fun byte => Char.ofNat byte.toNat) ≠ [] := by
    simpa using h.1
  have hdigits : ∀ c ∈ text.map fun byte => Char.ofNat byte.toNat, (digitVal 10 c).isSome := by
    intro c hc
    obtain ⟨byte, hbyte, rfl⟩ := List.mem_map.mp hc
    rw [(digit_of_mem (h.2 byte hbyte)).2]
    rfl
  have hvalue : digitsValue 10 (digitRun 10 (text.map fun byte => Char.ofNat byte.toNat)) =
      numeralValue text := by
    rw [digitRun_ascii h.2, digitsValue, List.foldl_map]
    rfl
  have hfits (used : Nat) : (if inLongLong (integerValue negative text) then
      some (integerValue negative text, used) else none).map Prod.fst =
        if inLongLong (integerValue negative text) then some (integerValue negative text)
        else none := by
    split <;> rfl
  rw [stoll, asciiText, String.toList_ofList]
  cases negative with
  | false =>
    rw [show sign false ++ text = text from rfl, readLiteral_of_digits hne hdigits, hvalue]
    exact hfits _
  | true =>
    have hchars : (sign true ++ text).map (fun byte => Char.ofNat byte.toNat) =
        '-' :: text.map fun byte => Char.ofNat byte.toNat := rfl
    rw [hchars, readLiteral_neg_of_digits hne hdigits, hvalue]
    exact hfits _

/-- Digits read as their value, or are given up. -/
theorem readIdNumber_digits {negative : Bool} {text after : Bytes} (h : Digits text)
    (hafter : ∀ byte, after.head? = some byte → byte ∉ digits) :
    readIdNumber (sign negative ++ (text ++ after)) =
      if inLongLong (integerValue negative text) then .found (.integer (integerValue negative text))
      else .giveUp := by
  have hrun : (text ++ after).takeWhile isAsciiDigit = text := by
    rw [List.takeWhile_append_of_pos fun byte hbyte => (digit_of_mem (h.2 byte hbyte)).1]
    cases after with
    | nil => simp
    | cons byte after =>
      have hbyte : isAsciiDigit byte = false :=
        Bool.eq_false_iff.mpr fun hdigit => hafter byte rfl (mem_digits hdigit)
      simp [hbyte]
  have hminus : (if (sign negative ++ (text ++ after)).head? = some minus then [minus] else []) =
      sign negative := by
    cases negative with
    | true => rfl
    | false =>
      obtain ⟨byte, text, rfl⟩ := List.exists_cons_of_ne_nil h.1
      have hbyte : byte ∈ digits := h.2 byte (by simp)
      have hdigits : ∀ byte ∈ digits, byte ≠ minus := by decide
      exact if_neg fun hhead => hdigits byte hbyte (Option.some.inj hhead)
  have hvalue := @stoll_digits negative text h
  rw [readIdNumber, hminus, List.drop_left, hrun, if_neg h.1]
  cases hread : stoll (asciiText (sign negative ++ text)) with
  | none =>
    rw [hread] at hvalue
    split at hvalue
    · cases hvalue
    · rename_i hrange
      rw [if_neg hrange]
  | some read =>
    rw [hread] at hvalue
    split at hvalue
    · rename_i hrange
      rw [if_pos hrange]
      exact congrArg (IdScan.found ∘ Json.integer) (Option.some.inj hvalue)
    · cases hvalue

/-- A number starts with a minus or a digit. -/
theorem number_cons (negative : Bool) {text : Bytes} (after : Bytes) (h : Digits text) :
    ∃ byte more, sign negative ++ (text ++ after) = byte :: more ∧ byte ∈ minus :: digits := by
  cases negative with
  | true => exact ⟨minus, text ++ after, rfl, List.mem_cons_self ..⟩
  | false =>
    obtain ⟨byte, text, rfl⟩ := List.exists_cons_of_ne_nil h.1
    exact ⟨byte, text ++ after, rfl, List.mem_cons_of_mem _ (h.2 byte (by simp))⟩

theorem numberStart_of_mem {byte : UInt8} (h : byte ∈ minus :: digits) :
    isJsonSpace byte = false ∧ byte ≠ quote ∧ byte ≠ 'n'.toUInt8 := by
  have hstart : ∀ byte ∈ minus :: digits,
      isJsonSpace byte = false ∧ byte ≠ quote ∧ byte ≠ 'n'.toUInt8 := by
    decide
  exact hstart byte h

/-! ## The value is the one that the pattern gives -/

/-- The outcome of a scan that has found the pattern. -/
def scanned : Option Json → IdScan
  | some id => .found id
  | none => .giveUp

/-- What the pattern gives is read. -/
theorem readIdValue_afterKey {value : Option Json} {text : Bytes} (h : AfterKey value text) :
    readIdValue text = scanned value := by
  obtain ⟨t, t₁, hcolon, hspace, hvalue⟩ := h
  cases hvalue with
  | null => exact readIdValue_text hcolon hspace (by decide)
  | @string raw after hraw =>
    rw [readIdValue_text hcolon hspace (by decide)]
    have hnull : (utf8 "null").isPrefixOf (quote :: (raw ++ quote :: after)) = false := by
      rfl
    have hrun : (raw ++ quote :: after).takeWhile (· ≠ quote) = raw := by
      have hplain : ∀ byte ∈ raw, decide (byte ≠ quote) = true := fun byte hbyte =>
        decide_eq_true fun heq => hraw (heq ▸ hbyte)
      rw [List.takeWhile_append_of_pos hplain]
      simp
    rw [hnull, hrun]
    simp [scanned]
  | @number negative text after hdigits hafter =>
    obtain ⟨byte, more, hcons, hbyte⟩ := number_cons negative after hdigits
    obtain ⟨hspaceless, hquote, hn⟩ := numberStart_of_mem hbyte
    have hnull : (utf8 "null").isPrefixOf (byte :: more) = false := by
      rw [Bool.eq_false_iff]
      intro hstarts
      obtain ⟨rest, hrest⟩ := List.isPrefixOf_iff_prefix.mp hstarts
      exact hn (List.cons.inj hrest).1.symm
    rw [hcons] at hspace
    rw [readIdValue_text hcolon hspace hspaceless, hnull, if_neg Bool.false_ne_true, if_neg hquote,
      ← hcons, readIdNumber_digits hdigits hafter]
    split
    · rfl
    · rfl

/-- A number is read where digits stand, a minus in front of them or not. -/
theorem idText_of_number {line : Bytes} (h : readIdNumber line ≠ .keepLooking) :
    ∃ value, IdText value line := by
  have hsign : ∃ negative rest, line = sign negative ++ rest ∧
      (if line.head? = some minus then [minus] else []) = sign negative := by
    by_cases hminus : line.head? = some minus
    · obtain ⟨rest, rfl⟩ := List.head?_eq_some_iff.mp hminus
      exact ⟨true, rest, rfl, rfl⟩
    · exact ⟨false, line, rfl, if_neg hminus⟩
  obtain ⟨negative, rest, rfl, hminus⟩ := hsign
  rw [readIdNumber, hminus, List.drop_left] at h
  have hne : rest.takeWhile isAsciiDigit ≠ [] := fun hnone => h (if_pos hnone)
  have hdigits : Digits (rest.takeWhile isAsciiDigit) :=
    ⟨hne, fun byte hbyte => mem_digits (List.mem_takeWhile_imp hbyte)⟩
  have hafter : ∀ byte, (rest.dropWhile isAsciiDigit).head? = some byte → byte ∉ digits := by
    intro byte hhead hbyte
    have hstop := List.head?_dropWhile_not isAsciiDigit rest
    rw [hhead] at hstop
    exact absurd (digit_of_mem hbyte).1 (Bool.eq_false_iff.mp hstop)
  rw [← @List.takeWhile_append_dropWhile _ isAsciiDigit rest]
  exact ⟨_, .number hdigits hafter⟩

/-- Only what the pattern gives is read. -/
theorem afterKey_of_readIdValue {text : Bytes} (h : readIdValue text ≠ .keepLooking) :
    ∃ value, AfterKey value text := by
  have hafter := spaced_skipJsonSpace text
  rw [readIdValue] at h
  split at h
  · exact absurd rfl h
  · rename_i hcolon
    obtain ⟨t, ht⟩ := List.head?_eq_some_iff.mp (not_not.mp hcolon)
    rw [ht] at hafter h
    suffices hvalue : ∃ value, IdText value (skipJsonSpace t) by
      obtain ⟨value, hvalue⟩ := hvalue
      exact ⟨value, t, skipJsonSpace t, hafter, spaced_skipJsonSpace t, hvalue⟩
    rw [List.tail_cons] at h
    generalize skipJsonSpace t = line at h
    dsimp only at h
    split at h
    · exact absurd rfl h
    · split at h
      · rename_i hnull
        obtain ⟨after, rfl⟩ := List.isPrefixOf_iff_prefix.mp hnull
        exact ⟨_, .null⟩
      · split at h
        · rename_i hquote
          obtain ⟨rest, rfl⟩ := List.head?_eq_some_iff.mp hquote
          split at h
          · rename_i hclose
            obtain ⟨raw, after, hrest, hraw⟩ := List.eq_append_cons_of_mem hclose
            rw [List.tail_cons] at hrest
            rw [hrest]
            exact ⟨_, .string hraw⟩
          · exact absurd rfl h
        · exact idText_of_number h

/-! ## The leftmost match -/

/-- No `"id"` that starts in front has a value to be read after it. -/
def KeepsLooking (front line : Bytes) : Prop :=
  ∀ place < front.length, kKey <+: line.drop place →
    readIdValue ((line.drop place).drop kKey.length) = .keepLooking

theorem tryRecoverId_front {front rest : Bytes} (h : KeepsLooking front (front ++ rest)) :
    tryRecoverId (front ++ rest) = tryRecoverId rest := by
  induction front with
  | nil => rfl
  | cons chr front ih =>
    have hrest : KeepsLooking front (front ++ rest) := fun place hplace =>
      h (place + 1) (Nat.succ_lt_succ hplace)
    rw [List.cons_append, tryRecoverId, ih hrest]
    split
    · rename_i hkey
      have hhere : readIdValue ((chr :: (front ++ rest)).drop kKey.length) = .keepLooking :=
        h 0 (Nat.succ_pos _) (List.isPrefixOf_iff_prefix.mp hkey)
      rw [hhere]
    · rfl

/-- The scan ends at a key that the pattern matches at. -/
theorem tryRecoverId_afterKey {value : Option Json} {rest : Bytes} (h : AfterKey value rest) :
    tryRecoverId (kKey ++ rest) = value := by
  have hkey : kKey ++ rest = quote :: (utf8 "id\"" ++ rest) := rfl
  rw [hkey, tryRecoverId, if_pos (List.isPrefixOf_iff_prefix.mpr ⟨rest, hkey⟩)]
  have hdrop : (quote :: (utf8 "id\"" ++ rest)).drop kKey.length = rest := rfl
  rw [hdrop, readIdValue_afterKey h]
  cases value <;> rfl

/-- Where the pattern does not match, the scan keeps looking. -/
theorem keepsLooking_of_no_match {front line : Bytes}
    (h : ∀ place < front.length, ∀ value, ¬ IdMatch value (line.drop place)) :
    KeepsLooking front line := by
  intro place hplace hkey
  obtain ⟨rest, hrest⟩ := hkey
  rw [← hrest, List.drop_left]
  by_contra hread
  obtain ⟨value, hvalue⟩ := afterKey_of_readIdValue hread
  exact h place hplace value ⟨rest, hrest.symm, hvalue⟩

/-- The scan ends at the leftmost match. -/
theorem tryRecoverId_leftmost {line : Bytes} {place : Nat} {value : Option Json}
    (h : Leftmost line place value) : tryRecoverId line = value := by
  obtain ⟨⟨rest, hrest, hvalue⟩, hbefore⟩ := h
  have hfront : KeepsLooking (line.take place) line := keepsLooking_of_no_match fun other hother =>
    hbefore other (lt_of_lt_of_le hother (List.length_take_le ..))
  have hsplit : line.take place ++ (kKey ++ rest) = line := by
    rw [← hrest, List.take_append_drop]
  calc tryRecoverId line = tryRecoverId (line.take place ++ (kKey ++ rest)) := by rw [hsplit]
    _ = tryRecoverId (kKey ++ rest) := tryRecoverId_front (by rwa [hsplit])
    _ = value := tryRecoverId_afterKey hvalue

theorem tryRecoverId_no_match {line : Bytes}
    (h : ∀ place value, ¬ IdMatch value (line.drop place)) : tryRecoverId line = none := by
  have hfront : KeepsLooking line (line ++ []) :=
    keepsLooking_of_no_match fun place _ => by
      rw [List.append_nil]
      exact h place
  rw [← List.append_nil line, tryRecoverId_front hfront]
  rfl

theorem exists_leftmost {line : Bytes} (h : ∃ place value, IdMatch value (line.drop place)) :
    ∃ place value, Leftmost line place value := by
  classical
  obtain ⟨value, hvalue⟩ := Nat.find_spec h
  exact ⟨Nat.find h, value, hvalue, fun other hother earlier hmatch =>
    Nat.find_min h hother ⟨earlier, hmatch⟩⟩

/-- **The id that is recovered is the one at the leftmost match.** None is recovered
where nothing matches, or where the integer of the leftmost match is too large. -/
theorem recovers_leftmost (line : Bytes) :
    (∀ id, tryRecoverId line = some id ↔ ∃ place, Leftmost line place (some id)) ∧
      (tryRecoverId line = none ↔ (∀ place value, ¬ IdMatch value (line.drop place)) ∨
        ∃ place, Leftmost line place none) := by
  by_cases hmatch : ∃ place value, IdMatch value (line.drop place)
  · obtain ⟨place, value, hleft⟩ := exists_leftmost hmatch
    have hvalue := tryRecoverId_leftmost hleft
    refine ⟨fun id => ⟨fun h => ?_, fun ⟨_, h⟩ => tryRecoverId_leftmost h⟩, fun h => ?_, ?_⟩
    · rw [← h, hvalue]
      exact ⟨place, hleft⟩
    · rw [← h, hvalue]
      exact .inr ⟨place, hleft⟩
    · rintro (hnone | ⟨other, h⟩)
      · exact absurd hleft.1 (hnone place value)
      · exact tryRecoverId_leftmost h
  · have hnone : ∀ place value, ¬ IdMatch value (line.drop place) := fun place value h =>
      hmatch ⟨place, value, h⟩
    refine ⟨fun id => ⟨fun h => ?_, fun ⟨place, h⟩ => absurd h.1 (hnone place _)⟩,
      fun _ => .inl hnone, fun _ => tryRecoverId_no_match hnone⟩
    rw [tryRecoverId_no_match hnone] at h
    cases h

end ParseX.Mcp

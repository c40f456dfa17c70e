import ParseX.Export.Accounting
import ParseX.Export.DbcWriter
import ParseX.Export.Lookup

/-! # Exported CAN identifiers

`parseId` takes every 32-bit number, so an identifier of the export can exceed
its format: 11 bits, or 29 bits with extended addressing. -/
namespace ParseX.CanDb
open Cpp

/-- The largest identifier of a format. -/
def maxIdentifier (extended : Bool) : Nat := if extended then 0x1FFFFFFF else 0x7FF

/-- The identifier and the format in the number of a DBC message. -/
def readDbcId (number : UInt32) : UInt32 × Bool :=
  if 0x80000000 ≤ number then (number - 0x80000000, true) else (number, false)

section
variable {D : Type} [Double D]

/-- The identifier fits its format and both can be recovered from the number
the DBC export writes. -/
def SoundIdentifier (frame : ExportFrame D) : Prop :=
  frame.id.toNat ≤ maxIdentifier frame.extended ∧
    readDbcId (dbcId frame) = (frame.id, frame.extended)

/-- The extended flag is a bit of its own below 2^31. -/
theorem readDbcId_dbcId {frame : ExportFrame D} (h : frame.id.toNat < 2 ^ 31) :
    readDbcId (dbcId frame) = (frame.id, frame.extended) := by
  cases he : frame.extended with
  | false =>
    have hle : ¬ (0x80000000 : UInt32) ≤ frame.id := by
      rw [UInt32.le_iff_toNat_le]
      exact fun hle => absurd h (not_lt.mpr hle)
    simp [readDbcId, dbcId, he, hle]
  | true =>
    have hor : (frame.id ||| kExtendedFlag).toNat = 2 ^ 31 + frame.id.toNat := by
      rw [UInt32.toNat_or, Nat.or_comm]
      have := Nat.two_pow_add_eq_or_of_lt h 1
      rw [Nat.mul_one] at this
      exact this.symm
    have hle : (0x80000000 : UInt32) ≤ frame.id ||| kExtendedFlag := by
      rw [UInt32.le_iff_toNat_le, hor]
      exact Nat.le_add_right _ _
    have hsub : frame.id ||| kExtendedFlag = frame.id + 0x80000000 := by
      apply UInt32.toNat_inj.mp
      rw [hor, UInt32.toNat_add]
      have : (0x80000000 : UInt32).toNat = 2 ^ 31 := rfl
      rw [this, Nat.mod_eq_of_lt (by omega), Nat.add_comm]
    simp only [readDbcId, dbcId, he, if_true, hle]
    rw [hsub, UInt32.add_sub_cancel]

theorem soundIdentifier_iff {frame : ExportFrame D} :
    SoundIdentifier frame ↔ frame.id.toNat ≤ maxIdentifier frame.extended := by
  refine ⟨And.left, fun h => ⟨h, readDbcId_dbcId (lt_of_le_of_lt h ?_)⟩⟩
  unfold maxIdentifier
  split <;> decide

/-- The identifier a frame's triggering states, where it states a 32-bit
number, fits the addressing mode. -/
def StatedIdentifierFits (file : ParsedFile D) (frame : Frame) : Prop :=
  ∀ root trig stated, file.rawDocument = some root →
    triggeringOf root frame.common.shortName = some trig →
    @parseId D _ (childText trig "IDENTIFIER") = some stated →
    stated.toNat ≤ maxIdentifier (childText trig "CAN-ADDRESSING-MODE" == "EXTENDED")

/-- The header of a frame comes from the triggering of its name. -/
theorem makeFrameHeader_eq_some {file : ParsedFile D} {frame : Frame} {who : FrameParties}
    {header : ExportFrame D} (h : makeFrameHeader frame (fileIndex file) who = some header) :
    ∃ root trig, file.rawDocument = some root ∧
      triggeringOf root frame.common.shortName = some trig ∧
      @parseId D _ (childText trig "IDENTIFIER") = some header.id ∧
      header.extended = (childText trig "CAN-ADDRESSING-MODE" == "EXTENDED") ∧
      header.length = frame.length := by
  unfold makeFrameHeader at h
  cases htrig : (fileIndex file).triggerings[frame.common.shortName]? with
  | none => rw [htrig] at h; cases h
  | some trig =>
    rw [htrig] at h
    dsimp only at h
    cases hid : @parseId D _ (childText trig "IDENTIFIER") with
    | none => rw [hid] at h; cases h
    | some stated =>
      rw [hid] at h
      obtain rfl := Option.some.inj h
      cases hraw : file.rawDocument with
      | none => simp [fileIndex, hraw] at htrig
      | some root =>
        rw [fileIndex, hraw] at htrig
        exact ⟨root, trig, rfl, (getElem?_triggerings root _).symm.trans htrig, hid, rfl, rfl⟩

/-- A frame whose triggering states a number is exported with it. -/
theorem makeFrameHeader_isSome {file : ParsedFile D} {frame : Frame} {who : FrameParties}
    {root trig : RawNode} {stated : UInt32} (hraw : file.rawDocument = some root)
    (htrig : triggeringOf root frame.common.shortName = some trig)
    (hid : @parseId D _ (childText trig "IDENTIFIER") = some stated) :
    ∃ header : ExportFrame D, makeFrameHeader frame (fileIndex file) who = some header ∧
      header.id = stated ∧
      header.extended = (childText trig "CAN-ADDRESSING-MODE" == "EXTENDED") := by
  have hindex : (fileIndex file).triggerings[frame.common.shortName]? = some trig := by
    rw [fileIndex, hraw]
    exact (getElem?_triggerings root _).trans htrig
  unfold makeFrameHeader
  rw [hindex]
  dsimp only
  rw [hid]
  exact ⟨_, rfl, rfl, rfl⟩

/-- **Exported identifiers are sound exactly when the stated ones fit.** -/
theorem sound_identifiers_iff (file : ParsedFile D) :
    (∀ frame ∈ (buildExportDatabase file).frames, SoundIdentifier frame) ↔
      ∀ frame ∈ file.frames, StatedIdentifierFits file frame := by
  have haccount := buildExportDatabase_account file
  constructor
  · intro h frame hframe root trig stated hraw htrig hid
    obtain ⟨outs, notes, hgives, houts, -⟩ := haccount.of_mem hframe
    obtain ⟨header, hheader, hheaderId, hextended⟩ :=
      makeFrameHeader_isSome hraw htrig hid
    cases hgives with
    | skipped hnone => rw [hheader] at hnone; cases hnone
    | exported hsome _ _ =>
      rw [hheader] at hsome
      obtain rfl := Option.some.inj hsome
      have := (h _ (houts _ (List.mem_singleton_self _))).1
      rwa [hheaderId, hextended] at this
  · intro h out hout
    obtain ⟨frame, hframe, outs, notes, hgives, hmem⟩ := haccount.mem hout
    cases hgives with
    | skipped _ => cases hmem
    | exported hsome _ _ =>
      obtain rfl := List.mem_singleton.mp hmem
      obtain ⟨root, trig, hraw, htrig, hid, hextended, -⟩ := makeFrameHeader_eq_some hsome
      rw [soundIdentifier_iff]
      have := h frame hframe root trig _ hraw htrig hid
      rwa [← hextended] at this

end

/-- A file with the frame "Brake", whose triggering states an identifier. -/
def fileOfIdentifier (identifier : String) : ParsedFile WholeDouble :=
  { frames := [{ common := { shortName := "Brake" } }]
    rawDocument := some { tagName := "AUTOSAR", children := [
      { tagName := "CAN-FRAME", children := [{ tagName := "SHORT-NAME", text := "Brake" }] },
      { tagName := "CAN-FRAME-TRIGGERING", children := [
        { tagName := "FRAME-REF", text := "/Frames/Brake" },
        { tagName := "CAN-ADDRESSING-MODE", text := "STANDARD" },
        { tagName := "IDENTIFIER", text := identifier }] }] } }

/-- A standard frame with the identifier 2^31 is exported, under the number of
the extended frame with the identifier 0. -/
theorem standard_identifier_aliases :
    ∃ frame ∈ (buildExportDatabase (fileOfIdentifier "2147483648")).frames,
      frame.extended = false ∧ readDbcId (dbcId frame) = (0, true) ∧ ¬ SoundIdentifier frame := by
  refine ⟨_, by rw [show (buildExportDatabase (fileOfIdentifier "2147483648")).frames =
    [{ name := "Brake", id := 2147483648 }] by decide +kernel]; exact List.mem_singleton_self _,
    rfl, rfl, ?_⟩
  rw [soundIdentifier_iff]
  decide

end ParseX.CanDb

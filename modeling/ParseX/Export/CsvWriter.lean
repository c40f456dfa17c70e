import ParseX.Base.Csv
import ParseX.Cpp.ToChars
import ParseX.Export.CanDb

/-! # The CSV export

`csv_writer.cpp`, and what an RFC 4180 reader makes of its output. -/
namespace ParseX.CanDb
open Cpp

/-! ## The writer -/

def kHeader : String :=
  "frame,frame_id,extended,can_fd,length,transmitters,signal,start_bit,bit_length,byte_order,signed,"
    ++ "factor,offset,min,max,unit,init_value,receivers,value_table"

/-- The signal columns. -/
def kSignalColumns : Nat := 13

/-- The characters of `find_first_of` in `appendField`. -/
def isTroublesome (letter : Char) : Bool :=
  letter == ',' || letter == '"' || letter == '\r' || letter == '\n'

/-- `appendField`: the text it appends. -/
def appendField (field : String) : String :=
  if field.toList.all fun letter => !isTroublesome letter then field
  else String.ofList ('"' :: (field.toList.foldl (fun out letter =>
    (if letter = '"' then out ++ ['"'] else out) ++ [letter]) [] ++ ['"']))

/-- `appendRow`: a comma before every cell but the first, and a CRLF. -/
def appendRow : List String → String
  | [] => "\r\n"
  | cell :: cells => cells.foldl (fun out cell => out ++ "," ++ appendField cell)
      (appendField cell) ++ "\r\n"

/-- The format `0x{:X}`. -/
def formatHex (value : UInt32) : String :=
  "0x" ++ String.ofList ((Nat.toDigits 16 value.toNat).map Char.toUpper)

def formatBool (value : Bool) : String := if value then "true" else "false"

/-- `joinSemicolon`: a semicolon goes after text that is not empty yet. -/
def joinSemicolon (items : List String) : String :=
  items.foldl (fun out item => (if out.isEmpty then out else out ++ ";") ++ item) ""

def formatValueTable (table : List ValueTableEntry) : String :=
  table.foldl (fun out entry => (if out.isEmpty then out else out ++ ";") ++
    (toString entry.value.toInt ++ "=" ++ entry.label)) ""

section
variable {D : Type} [Double D] [CharsDouble D]

def formatNumber (value : D) : String := CharsDouble.toChars value

def formatOptional (value : Option D) : String :=
  match value with
  | some value => formatNumber value
  | none => ""

/-- The cells of a frame. -/
def frameCells (frame : ExportFrame D) : List String :=
  [frame.name, formatHex frame.id, formatBool frame.extended, formatBool frame.canFd,
    toString frame.length.toNat, joinSemicolon frame.transmitters]

/-- The cells of a signal. -/
def signalCells (signal : ExportSignal D) : List String :=
  [signal.name, toString signal.startBit.toNat, toString signal.bitLength.toNat,
    if signal.byteOrder = .mostSignificantByteFirst then "big_endian" else "little_endian",
    formatBool signal.isSigned, formatNumber signal.factor, formatNumber signal.offset,
    formatOptional signal.min, formatOptional signal.max, signal.unit,
    formatOptional signal.initValue, joinSemicolon signal.receivers,
    formatValueTable signal.valueTable]

/-- One turn of the loop over the frames. -/
def appendFrameRows (out : String) (frame : ExportFrame D) : String :=
  let row := frameCells frame
  if frame.signals.isEmpty then out ++ appendRow (row ++ List.replicate kSignalColumns "")
  else frame.signals.foldl (fun out signal => out ++ appendRow (row ++ signalCells signal)) out

def toCsv (database : ExportDatabase D) : String :=
  database.frames.foldl appendFrameRows (kHeader ++ "\r\n")

end

/-! ## Reading it -/

/-- The names of the columns. -/
def columnNames : Csv.Record :=
  ["frame", "frame_id", "extended", "can_fd", "length", "transmitters", "signal", "start_bit",
    "bit_length", "byte_order", "signed", "factor", "offset", "min", "max", "unit", "init_value",
    "receivers", "value_table"]

section
variable {D : Type} [Double D] [CharsDouble D]

/-- The records of a frame: one for each signal, one in all without signals. -/
def frameRecords (frame : ExportFrame D) : List Csv.Record :=
  if frame.signals = [] then [frameCells frame ++ List.replicate kSignalColumns ""]
  else frame.signals.map fun signal => frameCells frame ++ signalCells signal

end

theorem doubleQuotes_loop (letters : List Char) : ∀ out : List Char,
    letters.foldl (fun out letter => (if letter = '"' then out ++ ['"'] else out) ++ [letter]) out =
      out ++ Csv.doubleQuotes letters := by
  induction letters with
  | nil => intro out; simp [Csv.doubleQuotes]
  | cons letter letters ih =>
    intro out
    rw [List.foldl_cons, ih]
    by_cases hl : letter = '"' <;> simp [Csv.doubleQuotes, hl]

/-- The quoting of `appendField` is the one RFC 4180 asks for. -/
theorem renders_appendField (field : String) : Csv.Renders field (appendField field).toList := by
  unfold appendField
  split
  · rename_i h
    refine .plain fun c hc => ?_
    have := List.all_eq_true.mp h c hc
    simpa [isTroublesome, Csv.isSpecial] using this
  · rw [String.toList_ofList, doubleQuotes_loop]
    exact .quoted

theorem appendCells (cells : List String) : ∀ out : String,
    (cells.foldl (fun out cell => out ++ "," ++ appendField cell) out).toList =
      out.toList ++ cells.flatMap fun cell => ',' :: (appendField cell).toList := by
  induction cells with
  | nil => intro out; simp
  | cons cell cells ih => intro out; rw [List.foldl_cons, ih]; simp

theorem row_appendRow {cells : List String} (h : cells ≠ []) :
    Csv.Row cells (appendRow cells).toList := by
  cases cells with
  | nil => exact absurd rfl h
  | cons cell cells =>
    rw [appendRow, String.toList_append, appendCells]
    induction cells generalizing cell with
    | nil => simpa using Csv.Row.last (renders_appendField cell)
    | cons next cells ih =>
      have := Csv.Row.cons (renders_appendField cell) (ih next (by simp))
      simpa using this

section
variable {D : Type} [Double D] [CharsDouble D]

omit [CharsDouble D] in
theorem frameCells_ne_nil (frame : ExportFrame D) (cells : List String) :
    frameCells frame ++ cells ≠ [] := by simp [frameCells]

/-- What the loops append is the table of the frames. -/
theorem table_appendFrameRows (frame : ExportFrame D) (out : String) :
    ∃ text, (appendFrameRows out frame).toList = out.toList ++ text ∧
      Csv.Table (frameRecords frame) text := by
  unfold appendFrameRows frameRecords
  cases hs : frame.signals with
  | nil =>
    refine ⟨(appendRow (frameCells frame ++ List.replicate kSignalColumns "")).toList, ?_, ?_⟩
    · simp
    · have := Csv.Table.cons (row_appendRow (frameCells_ne_nil frame
        (List.replicate kSignalColumns ""))) .nil
      simpa using this
  | cons first rest =>
    rw [← hs]
    have hne : frame.signals ≠ [] := by simp [hs]
    simp only [List.isEmpty_iff, hne, if_false]
    clear hs hne
    generalize frame.signals = signals
    induction signals generalizing out with
    | nil => exact ⟨[], by simp, .nil⟩
    | cons signal signals ih =>
      obtain ⟨text, htext, htable⟩ := ih (out ++ appendRow (frameCells frame ++ signalCells signal))
      refine ⟨_ ++ text, ?_, .cons (row_appendRow (frameCells_ne_nil frame
        (signalCells signal))) htable⟩
      rw [List.foldl_cons, htext, String.toList_append, List.append_assoc]

theorem table_frames (frames : List (ExportFrame D)) : ∀ out : String,
    ∃ text, (frames.foldl appendFrameRows out).toList = out.toList ++ text ∧
      Csv.Table (frames.flatMap frameRecords) text := by
  induction frames with
  | nil => intro out; exact ⟨[], by simp, .nil⟩
  | cons frame frames ih =>
    intro out
    obtain ⟨text, htext, htable⟩ := table_appendFrameRows frame out
    obtain ⟨text', htext', htable'⟩ := ih (appendFrameRows out frame)
    refine ⟨text ++ text', ?_, ?_⟩
    · rw [List.foldl_cons, htext', htext, List.append_assoc]
    · rw [List.flatMap_cons]
      exact htable.append htable'

/-- The header is the row of the column names, none of which needs quotes. -/
theorem appendRow_columnNames : appendRow columnNames = kHeader ++ "\r\n" := by
  have hplain : ∀ name ∈ columnNames, appendField name = name := by
    intro name hname
    rw [appendField, if_pos]
    revert name
    simp [columnNames, isTroublesome]
  have hcells : ∀ (cells : List String) (out : String), (∀ cell ∈ cells, cell ∈ columnNames) →
      cells.foldl (fun out cell => out ++ "," ++ appendField cell) out =
        cells.foldl (fun out cell => out ++ "," ++ cell) out := by
    intro cells
    induction cells with
    | nil => intro out _; rfl
    | cons cell cells ih =>
      intro out h
      obtain ⟨hcell, hcells⟩ := List.forall_mem_cons.mp h
      rw [List.foldl_cons, List.foldl_cons, hplain cell hcell, ih _ hcells]
  rw [columnNames, appendRow, hcells _ _ fun _ h => List.mem_cons_of_mem _ h,
    hplain _ List.mem_cons_self]
  rfl

/-- Every record has a cell for every column. -/
theorem length_frameRecords {frame : ExportFrame D} {record : Csv.Record}
    (h : record ∈ frameRecords frame) : record.length = 19 := by
  unfold frameRecords at h
  split at h
  · rw [List.mem_singleton.mp h]
    simp [frameCells, kSignalColumns]
  · obtain ⟨signal, -, rfl⟩ := List.mem_map.mp h
    simp [frameCells, signalCells]

/-- A reader finds the header and the records of the frames. -/
theorem parse_toCsv (database : ExportDatabase D) :
    Csv.parse (toCsv database) = some (columnNames :: database.frames.flatMap frameRecords) := by
  obtain ⟨text, htext, htable⟩ := table_frames database.frames (kHeader ++ "\r\n")
  apply Csv.parse_table
  rw [toCsv, htext]
  rw [← appendRow_columnNames]
  exact .cons (row_appendRow (by simp [columnNames])) htable

/-- **The table reads back.** -/
theorem csv_round_trip (database : ExportDatabase D) :
    Csv.parse (toCsv database) = some (columnNames :: database.frames.flatMap frameRecords) ∧
      ∀ record ∈ columnNames :: database.frames.flatMap frameRecords, record.length = 19 := by
  refine ⟨parse_toCsv database, ?_⟩
  intro record hrecord
  rcases List.mem_cons.mp hrecord with rfl | hrecord
  · rfl
  · obtain ⟨frame, -, hmem⟩ := List.mem_flatMap.mp hrecord
    exact length_frameRecords hmem

end

end ParseX.CanDb

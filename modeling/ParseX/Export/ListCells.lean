import ParseX.Base.Words
import ParseX.Export.CsvWriter

/-! # List cells of a CSV export

Names and value tables are joined without escaping. The cells determine lists
whose names hold no semicolon and whose labels do not look like further
entries. -/
namespace ParseX.CanDb
open Cpp Words

/-! ## Names -/

/-- Names without a semicolon, the first of which is not empty. -/
structure PlainNames (names : List String) : Prop where
  first : ∀ name ∈ names.head?, name ≠ ""
  plain : ∀ name ∈ names, ';' ∉ name.toList

/-- The cell of a list of plain names determines it. -/
theorem joinSemicolon_inj {names names' : List String} (hnames : PlainNames names)
    (hnames' : PlainNames names') (h : joinSemicolon names = joinSemicolon names') :
    names = names' :=
  foldl_joined_inj Function.injective_id (separable_of_not_mem ';') hnames.plain hnames'.plain
    hnames.first hnames'.first h

/-! ## Value tables -/

/-- The text of an entry. -/
def entryText (entry : ValueTableEntry) : String :=
  toString entry.value.toInt ++ "=" ++ entry.label

theorem toList_entryText (entry : ValueTableEntry) : (entryText entry).toList =
    (toString entry.value.toInt).toList ++ '=' :: entry.label.toList := by
  simp [entryText]

/-- Nothing in the label looks like a further entry. -/
def ClearLabel (label : String) : Prop :=
  ∀ value : Int64, ¬ ';' :: ((toString value.toInt).toList ++ ['=']) <:+: label.toList

theorem clearLabel_of_not_mem {label : String} (h : ';' ∉ label.toList) : ClearLabel label :=
  fun _ hword => h (hword.subset List.mem_cons_self)

/-- The text is that of an entry with a clear label. -/
def IsEntry (text : List Char) : Prop :=
  ∃ entry : ValueTableEntry, ClearLabel entry.label ∧ text = (entryText entry).toList

theorem entryText_inj {entry entry' : ValueTableEntry} (h : entryText entry = entryText entry') :
    entry = entry' := by
  have htext := congrArg String.toList h
  rw [toList_entryText, toList_entryText] at htext
  obtain ⟨hvalue, hlabel⟩ := split_first_unique (not_mem_toString_int (by decide) (by decide) _)
    (not_mem_toString_int (by decide) (by decide) _) htext
  obtain ⟨value, label⟩ := entry
  obtain ⟨value', label'⟩ := entry'
  obtain rfl : value = value' :=
    Int64.toInt_inj.mp (toString_int_inj (String.toList_inj.mp hvalue))
  obtain rfl : label = label' := String.toList_inj.mp hlabel
  rfl

theorem separable_entry : Separable ';' IsEntry := by
  rintro x y z w t t' ⟨entry, -, rfl⟩ ⟨entry', hclear, rfl⟩ ⟨next, -, rfl⟩ hlong hstops -
  rw [toList_entryText, toList_entryText, List.append_assoc, List.cons_append] at hlong
  -- both texts have their first equals sign after the value
  obtain ⟨-, hlabel⟩ := split_first_unique (not_mem_toString_int (by decide) (by decide) _)
    (not_mem_toString_int (by decide) (by decide) _) hlong
  intro hnext
  rw [toList_entryText, List.append_assoc, List.cons_append] at hnext
  have hword : (toString next.value.toInt).toList ++ '=' :: (next.label.toList ++ t') =
      ((toString next.value.toInt).toList ++ ['=']) ++ (next.label.toList ++ t') := by simp
  rw [hword] at hnext
  rcases List.append_eq_append_iff.mp hnext with ⟨u, hvalue, hrest⟩ | ⟨u, hw, -⟩
  · rcases hstops with rfl | ⟨rest, rfl⟩
    · -- nothing follows, so the label ends in an entry
      obtain ⟨rfl, -⟩ := List.append_eq_nil_iff.mp hrest.symm
      refine hclear next.value ⟨entry.label.toList, [], ?_⟩
      rw [hlabel, hvalue]
      simp
    · cases u with
      | nil =>
        refine hclear next.value ⟨entry.label.toList, [], ?_⟩
        rw [hlabel, hvalue]
        simp
      | cons c u =>
        -- the entry would hold a semicolon in its value
        obtain ⟨rfl, -⟩ := List.cons.inj hrest
        have hmem : ';' ∈ (toString next.value.toInt).toList ++ ['='] := by rw [hvalue]; simp
        rcases List.mem_append.mp hmem with hmem | hmem
        · exact not_mem_toString_int (by decide) (by decide) _ hmem
        · simp at hmem
  · refine hclear next.value ⟨entry.label.toList, u, ?_⟩
    rw [hlabel, hw]
    simp

/-- The cell of a table with clear labels determines it. -/
theorem formatValueTable_inj {table table' : List ValueTableEntry}
    (hclear : ∀ entry ∈ table, ClearLabel entry.label)
    (hclear' : ∀ entry ∈ table', ClearLabel entry.label)
    (h : formatValueTable table = formatValueTable table') : table = table' := by
  have hne (entry : ValueTableEntry) : entryText entry ≠ "" := by
    intro hempty
    have htext := toList_entryText entry
    rw [hempty] at htext
    simp at htext
  exact foldl_joined_inj (fun _ _ => entryText_inj) separable_entry
    (fun entry hentry => ⟨entry, hclear entry hentry, rfl⟩)
    (fun entry hentry => ⟨entry, hclear' entry hentry, rfl⟩) (fun entry _ => hne entry)
    (fun entry _ => hne entry) h

/-! ## Rows -/

section
variable {D : Type} [Double D]

/-- What the rows of a frame come from: the frame, with each of its signals if it
has any. -/
def frameRows (frame : ExportFrame D) : List (ExportFrame D × Option (ExportSignal D)) :=
  if frame.signals = [] then [(frame, none)] else frame.signals.map fun signal => (frame, some signal)

def csvRows (database : ExportDatabase D) : List (ExportFrame D × Option (ExportSignal D)) :=
  database.frames.flatMap frameRows

/-- The transmitters of a row, and the receivers and the value table of its
signal if it has one. -/
def rowLists (row : ExportFrame D × Option (ExportSignal D)) :
    List String × Option (List String × List ValueTableEntry) :=
  (row.1.transmitters, row.2.map fun signal => (signal.receivers, signal.valueTable))

/-- Lists whose cells no separator confuses. -/
structure PlainLists (database : ExportDatabase D) : Prop where
  transmitters : ∀ frame ∈ database.frames, PlainNames frame.transmitters
  receivers : ∀ frame ∈ database.frames, ∀ signal ∈ frame.signals, PlainNames signal.receivers
  labels : ∀ frame ∈ database.frames, ∀ signal ∈ frame.signals, ∀ entry ∈ signal.valueTable,
    ClearLabel entry.label

theorem mem_csvRows {database : ExportDatabase D} {row : ExportFrame D × Option (ExportSignal D)}
    (h : row ∈ csvRows database) :
    row.1 ∈ database.frames ∧ ∀ signal ∈ row.2, signal ∈ row.1.signals := by
  obtain ⟨frame, hframe, hrow⟩ := List.mem_flatMap.mp h
  unfold frameRows at hrow
  split at hrow
  · obtain rfl := List.mem_singleton.mp hrow
    exact ⟨hframe, by simp⟩
  · obtain ⟨signal, hsignal, rfl⟩ := List.mem_map.mp hrow
    refine ⟨hframe, fun other hother => ?_⟩
    obtain rfl := Option.some.inj hother
    exact hsignal

/-- Equal first images give equal second images. -/
theorem map_eq_map_of_imp {A B C : Type} {f : A → B} {g : A → C} {l l' : List A}
    (h : ∀ a ∈ l, ∀ b ∈ l', f a = f b → g a = g b) (heq : l.map f = l'.map f) :
    l.map g = l'.map g := by
  induction l generalizing l' with
  | nil =>
    obtain rfl := List.map_eq_nil_iff.mp heq.symm
    rfl
  | cons a l ih =>
    cases l' with
    | nil => cases heq
    | cons b l' =>
      obtain ⟨hhead, htail⟩ := List.cons.inj heq
      rw [List.map_cons, List.map_cons, h a (by simp) b (by simp) hhead,
        ih (fun x hx y hy => h x (by simp [hx]) y (by simp [hy])) htail]

variable [CharsDouble D]

/-- The record of a row. -/
def rowRecord (row : ExportFrame D × Option (ExportSignal D)) : Csv.Record :=
  frameCells row.1 ++ match row.2 with
    | none => List.replicate kSignalColumns ""
    | some signal => signalCells signal

theorem frameRecords_eq (frame : ExportFrame D) :
    frameRecords frame = (frameRows frame).map rowRecord := by
  unfold frameRecords frameRows
  split
  · rfl
  · rw [List.map_map]
    rfl

/-- Equal records come from equal lists. -/
theorem rowLists_of_record {one two : ExportDatabase D} (hone : PlainLists one)
    (htwo : PlainLists two) {row row' : ExportFrame D × Option (ExportSignal D)}
    (hrow : row ∈ csvRows one) (hrow' : row' ∈ csvRows two) (h : rowRecord row = rowRecord row') :
    rowLists row = rowLists row' := by
  obtain ⟨hframe, hsignals⟩ := mem_csvRows hrow
  obtain ⟨hframe', hsignals'⟩ := mem_csvRows hrow'
  obtain ⟨frame, signal⟩ := row
  obtain ⟨frame', signal'⟩ := row'
  obtain ⟨hcells, hrest⟩ := List.append_inj h rfl
  have htransmitters : frame.transmitters = frame'.transmitters := by
    refine joinSemicolon_inj (hone.transmitters _ hframe) (htwo.transmitters _ hframe') ?_
    simp only [frameCells, List.cons.injEq, and_true] at hcells
    exact hcells.2.2.2.2.2
  -- a start bit is never empty
  have hstart (signal : ExportSignal D) :
      signalCells signal ≠ List.replicate kSignalColumns "" := by
    intro hcells
    have hempty : signalCells signal = "" :: "" :: List.replicate 11 "" := hcells
    have hbit : toString signal.startBit.toNat = "" := (List.cons.inj (List.cons.inj hempty).2).1
    have hdigits := toList_toString_nat signal.startBit.toNat
    rw [hbit] at hdigits
    exact Nat.toDigits_ne_nil hdigits.symm
  cases signal with
  | none =>
    cases signal' with
    | none => simp [rowLists, htransmitters]
    | some signal' => exact absurd hrest.symm (hstart signal')
  | some signal =>
    cases signal' with
    | none => exact absurd hrest (hstart signal)
    | some signal' =>
      have hmem := hsignals signal rfl
      have hmem' := hsignals' signal' rfl
      simp only [signalCells, List.cons.injEq, and_true] at hrest
      obtain ⟨-, -, -, -, -, -, -, -, -, -, -, hreceivers, htable⟩ := hrest
      simp [rowLists, htransmitters, joinSemicolon_inj (hone.receivers _ hframe _ hmem)
        (htwo.receivers _ hframe' _ hmem') hreceivers,
        formatValueTable_inj (hone.labels _ hframe _ hmem) (htwo.labels _ hframe' _ hmem') htable]

/-- Tables of plain lists that are equal as texts have equal lists in each row. -/
theorem list_cells_determined {one two : ExportDatabase D} (hone : PlainLists one)
    (htwo : PlainLists two) (h : toCsv one = toCsv two) :
    (csvRows one).map rowLists = (csvRows two).map rowLists := by
  have hrecords (database : ExportDatabase D) :
      database.frames.flatMap frameRecords = (csvRows database).map rowRecord := by
    rw [csvRows, List.map_flatMap]
    exact List.flatMap_congr fun frame _ => frameRecords_eq frame
  have hparse := parse_toCsv one
  rw [h, parse_toCsv two, Option.some.injEq, List.cons.injEq, hrecords, hrecords] at hparse
  exact map_eq_map_of_imp (fun row hrow row' hrow' => rowLists_of_record hone htwo hrow hrow')
    hparse.2.symm

end

/-! ## An instance -/

/-- A database with one signal and the lists. -/
def databaseOfLists (transmitters receivers : List String) (valueTable : List ValueTableEntry) :
    ExportDatabase WholeDouble :=
  { frames := [{ name := "F", transmitters := transmitters
                 signals := [{ name := "S", receivers := receivers, valueTable := valueTable }] }] }

/-- A semicolon in a name or a label, and an empty first name, read as other lists. -/
theorem list_cells_confused :
    let one := databaseOfLists ["A;B"] ["", "C"] [⟨0, "off;1=on"⟩]
    let two := databaseOfLists ["A", "B"] ["C"] [⟨0, "off"⟩, ⟨1, "on"⟩]
    toCsv one = toCsv two ∧
      (csvRows one).map rowLists = [(["A;B"], some (["", "C"], [⟨0, "off;1=on"⟩]))] ∧
      (csvRows two).map rowLists = [(["A", "B"], some (["C"], [⟨0, "off"⟩, ⟨1, "on"⟩]))] := by
  decide +kernel

/-- Two databases on different buses with the same plain lists, one name empty. -/
theorem list_cells_determined_buses :
    let one := databaseOfLists ["A", "", "B"] ["C"] [⟨0, "off=1"⟩, ⟨-1, "on"⟩]
    let two := { one with busName := "CAN1" }
    (csvRows one).map rowLists = (csvRows two).map rowLists := by
  intro one two
  have hone : PlainLists one :=
    { transmitters := fun frame hframe => by
        obtain rfl := List.mem_singleton.mp hframe
        exact ⟨by simp, by decide⟩
      receivers := fun frame hframe signal hsignal => by
        obtain rfl := List.mem_singleton.mp hframe
        obtain rfl := List.mem_singleton.mp hsignal
        exact ⟨by simp, by decide⟩
      labels := fun frame hframe signal hsignal entry hentry => by
        obtain rfl := List.mem_singleton.mp hframe
        obtain rfl := List.mem_singleton.mp hsignal
        have hlabels : ∀ entry ∈ ([⟨0, "off=1"⟩, ⟨-1, "on"⟩] : List ValueTableEntry),
            ';' ∉ entry.label.toList := by decide
        exact clearLabel_of_not_mem (hlabels entry hentry) }
  have htwo : PlainLists two := ⟨hone.transmitters, hone.receivers, hone.labels⟩
  exact list_cells_determined hone htwo rfl

end ParseX.CanDb

import ParseX.Base.DbcText
import ParseX.Base.Words
import ParseX.Export.DbcWriter

/-! # Reading a DBC export back -/
namespace ParseX.CanDb
open Cpp

/-- A C identifier. -/
def IsIdentifier (name : String) : Prop :=
  name ≠ "" ∧ (∀ letter ∈ name.toList, isIdentChar letter = true) ∧
    ∀ letter ∈ name.toList.head?, isDecimalDigit letter = false

instance (name : String) : Decidable (IsIdentifier name) :=
  decidable_of_iff (name ≠ "" ∧ name.toList.all isIdentChar = true ∧
      name.toList.head?.all (fun letter => !isDecimalDigit letter) = true)
    (and_congr_right' (and_congr List.all_eq_true (by cases name.toList.head? <;> simp)))

/-- The name of a node, wherever a database names one. -/
def IsNodeName (name : String) : Prop := IsIdentifier name ∧ name ≠ kNoNode

instance (name : String) : Decidable (IsNodeName name) := inferInstanceAs (Decidable (_ ∧ _))

section
variable {D : Type} [Double D]

/-! ## The database a reader finds -/

def dbcSignal (signal : ExportSignal D) : Dbc.Signal D :=
  { name := signal.name
    startBit := signal.startBit.toNat
    bitLength := signal.bitLength.toNat
    littleEndian := signal.byteOrder = .leastSignificantByteFirst
    isSigned := signal.isSigned
    factor := signal.factor
    offset := signal.offset
    min := signal.min.getD (Double.ofNat 0)
    max := signal.max.getD (Double.ofNat 0)
    unit := signal.unit
    receivers := signal.receivers
    valueTable := signal.valueTable.map fun entry => (entry.value.toInt, entry.label) }

def dbcMessage (frame : ExportFrame D) : Dbc.Message D :=
  { id := (dbcId frame).toNat
    name := frame.name
    length := frame.length.toNat
    transmitters := frame.transmitters
    signals := frame.signals.map dbcSignal }

def dbcDatabase (database : ExportDatabase D) : Dbc.Database D :=
  { nodes := database.nodes
    messages := database.frames.map dbcMessage }

variable [CharsDouble D]

/-- What the text of a signal relies on. -/
@[mk_iff]
structure ExportableSignal (signal : ExportSignal D) : Prop where
  name : IsIdentifier signal.name
  finite : ∀ number ∈ [signal.factor, signal.offset] ++ signal.min.toList ++ signal.max.toList,
    CharsDouble.isFinite number = true
  receivers : ∀ node ∈ signal.receivers, IsNodeName node

@[mk_iff]
structure ExportableFrame (frame : ExportFrame D) : Prop where
  name : IsIdentifier frame.name
  transmitters : ∀ node ∈ frame.transmitters, IsNodeName node
  signals : ∀ signal ∈ frame.signals, ExportableSignal signal
  distinctNames : (frame.signals.map ExportSignal.name).Nodup

/-- What the text of a database relies on. -/
@[mk_iff]
structure Exportable (database : ExportDatabase D) : Prop where
  nodes : ∀ node ∈ database.nodes, IsNodeName node
  frames : ∀ frame ∈ database.frames, ExportableFrame frame
  distinctIds : (database.frames.map dbcId).Nodup

instance (signal : ExportSignal D) : Decidable (ExportableSignal signal) :=
  decidable_of_iff' _ (exportableSignal_iff signal)

instance (frame : ExportFrame D) : Decidable (ExportableFrame frame) :=
  decidable_of_iff' _ (exportableFrame_iff frame)

instance (database : ExportDatabase D) : Decidable (Exportable database) :=
  decidable_of_iff' _ (exportable_iff database)

end

/-! ## Names and literals -/

theorem ident_eq {name : String} (h : IsIdentifier name) : ident name = name := by
  obtain ⟨hne, hall, hfirst⟩ := h
  have hkeep : ∀ letters : List Char, (∀ letter ∈ letters, isIdentChar letter = true) →
      (letters.flatMap fun letter =>
        if isIdentChar letter then [letter] else List.replicate letter.utf8Size '_') = letters := by
    intro letters hletters
    rw [List.flatMap_congr fun letter hletter => if_pos (hletters letter hletter),
      List.flatMap_singleton']
  cases hletters : name.toList with
  | nil => exact absurd (String.toList_inj.mp hletters) hne
  | cons letter letters =>
    have hdigit := hfirst letter (by rw [hletters]; rfl)
    have hplain : (name.toList.isEmpty || (name.toList.head?.map isDecimalDigit).getD false) =
        false := by
      rw [hletters]
      exact hdigit
    rw [ident, hkeep name.toList hall]
    simp only [hplain, Bool.false_eq_true, if_false, String.ofList_toList]

theorem isWord_of_identifier {name : String} (h : IsIdentifier name) : Dbc.IsWord name := by
  refine ⟨h.1, fun letter hletter => ?_⟩
  have hchar := h.2.1 letter hletter
  simp only [isIdentChar, isDecimalDigit, Bool.or_eq_true, Bool.and_eq_true, decide_eq_true_eq,
    beq_iff_eq] at hchar
  have hword (halnum : (letter.isUpper || letter.isLower || letter.isDigit) = true) :
      Dbc.isWordChar letter = true := by
    have halnum' : letter.isAlphanum = true := halnum
    simp [Dbc.isWordChar, halnum']
  rcases hchar with ((hlower | hupper) | hdigit) | hline
  · have hrange : letter.isLower = true :=
      Bool.and_eq_true_iff.mpr ⟨decide_eq_true hlower.1, decide_eq_true hlower.2⟩
    exact hword (by simp [hrange])
  · have hrange : letter.isUpper = true := decide_eq_true (And.intro hupper.1 hupper.2)
    exact hword (by simp [hrange])
  · have hrange : letter.isDigit = true :=
      Bool.and_eq_true_iff.mpr ⟨decide_eq_true hdigit.1, decide_eq_true hdigit.2⟩
    exact hword (by simp [hrange])
  · simp [Dbc.isWordChar, hline]

theorem toList_quoted (text : String) :
    (quoted text).toList = Dbc.Piece.letters (.text text) := by
  rw [quoted, String.toList_append, String.toList_append, String.toList_ofList,
    String.toList_ofList]
  rfl

theorem toList_joinIdents {names : List String} (h : ∀ name ∈ names, IsIdentifier name) :
    (joinIdents names ",").toList = Dbc.lettersOf (Dbc.commaPieces (Dbc.orNoNode names)) := by
  cases names with
  | nil => decide
  | cons name names =>
    obtain ⟨hname, hnames⟩ := List.forall_mem_cons.mp h
    have hpieces : ∀ (names : List String) (first : String),
        Dbc.lettersOf (Dbc.commaPieces (first :: names)) =
          Words.joined ',' first.toList (names.map String.toList) := by
      intro names
      induction names with
      | nil => intro first; simp [Dbc.lettersOf, Dbc.commaPieces, Dbc.Piece.letters, Words.joined]
      | cons second names ih =>
        intro first
        have hcons : Dbc.lettersOf (Dbc.commaPieces (first :: second :: names)) =
            first.toList ++ ',' :: Dbc.lettersOf (Dbc.commaPieces (second :: names)) := rfl
        rw [hcons, ih]
        simp [Words.joined]
    have hfirst : ident name ≠ "" := by
      rw [ident_eq hname]
      exact hname.1
    have hloop := Words.toList_foldl_joined ',' ident hfirst names
    rw [ident_eq hname, List.map_congr_left fun other hother => by rw [ident_eq (hnames other hother)]]
      at hloop
    rw [Dbc.orNoNode, if_neg (List.cons_ne_nil _ _), hpieces, ← hloop]
    refine congrArg String.toList (if_neg fun hempty => hname.1 ?_)
    -- the first name already makes the text not empty
    have hnil := hloop.symm.trans (congrArg String.toList (String.isEmpty_iff.mp hempty))
    exact String.toList_inj.mp (List.append_eq_nil_iff.mp hnil).1

section
variable {D : Type} [Double D]

/-! ## Lines -/

theorem toList_frameLine {frame : ExportFrame D} (hname : IsIdentifier frame.name)
    (h : ∀ node ∈ frame.transmitters, IsIdentifier node) :
    (frameLine frame).toList = Dbc.lettersOf (Dbc.messagePieces (dbcMessage frame)) ++ ['\n'] := by
  have hline : frameLine frame = "BO_ " ++ toString (dbcId frame).toNat ++ " " ++ frame.name ++
      ": " ++ toString frame.length.toNat ++ " " ++ frame.transmitters.headD Dbc.noNode ++
      "\n" := by
    rw [frameLine, ident_eq hname]
    cases hlist : frame.transmitters with
    | nil => rfl
    | cons first rest =>
      have hfirst := ident_eq (h first (by rw [hlist]; exact List.mem_cons_self))
      dsimp only
      rw [List.headD_cons, hfirst]
  simp only [hline, Dbc.messagePieces, String.toList_append, Dbc.lettersOf_cons,
    Dbc.Piece.letters, dbcMessage, String.reduceToList, List.append_assoc, List.cons_append,
    List.nil_append]
  rfl

theorem toList_transmittersLine {frame : ExportFrame D}
    (h : ∀ node ∈ frame.transmitters, IsIdentifier node) (hlength : 1 < frame.transmitters.length) :
    (transmittersLine frame).toList =
      Dbc.lettersOf (Dbc.transmitterPieces (dbcId frame).toNat frame.transmitters) ++ ['\n'] := by
  have hnames : frame.transmitters ≠ [] := by
    intro hnil
    rw [hnil] at hlength
    cases hlength
  have hjoin := toList_joinIdents h
  rw [Dbc.orNoNode, if_neg hnames] at hjoin
  simp only [transmittersLine, if_pos hlength, Dbc.transmitterPieces, Dbc.lettersOf_append,
    String.toList_append, hjoin, Dbc.lettersOf_cons, Dbc.Piece.letters, String.reduceToList,
    List.append_assoc, List.cons_append, List.nil_append]
  rfl

theorem toList_valueTableLine {frame : ExportFrame D} {signal : ExportSignal D}
    (hname : IsIdentifier signal.name) (h : signal.valueTable ≠ []) :
    (valueTableLine frame signal).toList = Dbc.lettersOf (Dbc.valuePieces (dbcId frame).toNat
      signal.name (signal.valueTable.map fun entry => (entry.value.toInt, entry.label))) ++
        ['\n'] := by
  have hentries : ∀ table : List ValueTableEntry,
      (String.join (table.map fun entry =>
        " " ++ toString entry.value.toInt ++ " " ++ quoted entry.label)).toList =
      Dbc.lettersOf ((table.map fun entry => (entry.value.toInt, entry.label)).flatMap fun entry =>
        [.gap, .word (toString entry.1), .gap, .text entry.2]) := by
    intro table
    induction table with
    | nil => rfl
    | cons entry table ih =>
      rw [String.toList_join] at ih ⊢
      rw [List.map_cons, List.flatMap_cons, ih, List.map_cons, List.flatMap_cons,
        Dbc.lettersOf_append]
      simp only [String.toList_append, toList_quoted]
      simp [Dbc.lettersOf, Dbc.Piece.letters]
  have hfull : signal.valueTable.isEmpty = false := by simpa using h
  simp only [valueTableLine, hfull, Bool.false_eq_true, if_false, ident_eq hname,
    Dbc.valuePieces, Dbc.lettersOf_append, ← hentries, String.toList_append, Dbc.lettersOf_cons,
    Dbc.Piece.letters, String.reduceToList, List.append_assoc, List.cons_append, List.nil_append]
  rfl

variable [CharsDouble D]

theorem toList_signalLine {signal : ExportSignal D} (hname : IsIdentifier signal.name)
    (h : ∀ node ∈ signal.receivers, IsIdentifier node) : (signalLine signal).toList =
      Dbc.lettersOf (Dbc.signalPieces (dbcSignal signal)) ++ ['\n'] := by
  have hjoin := toList_joinIdents h
  have horder : (Dbc.orderWord (decide (signal.byteOrder = .leastSignificantByteFirst))
      signal.isSigned).toList =
        (if signal.byteOrder = .leastSignificantByteFirst then "1" else "0").toList ++
          (if signal.isSigned then "-" else "+").toList := by
    cases hb : signal.byteOrder <;> cases hs : signal.isSigned <;> rfl
  unfold signalLine
  simp only [ident_eq hname, Dbc.signalPieces, String.toList_append, hjoin, Dbc.lettersOf_cons,
    Dbc.Piece.letters, dbcSignal, horder, toList_quoted, num, String.reduceToList,
    List.append_assoc, List.cons_append, List.nil_append]

/-! ## The text -/

theorem isWord_of_nodeName {name : String} (h : IsNodeName name) :
    Dbc.IsWord name ∧ name ≠ Dbc.noNode := ⟨isWord_of_identifier h.1, h.2⟩

theorem toList_join_map {A : Type} (items : List A) (write : A → String) :
    (String.join (items.map write)).toList = items.flatMap fun item => (write item).toList := by
  rw [String.toList_join, List.flatMap_map]

theorem printable_dbcSignal {signal : ExportSignal D}
    (hzero : CharsDouble.isFinite (Double.ofNat 0 : D) = true) (h : ExportableSignal signal) :
    (dbcSignal signal).Printable := by
  have hlimit : ∀ limit : Option D, (∀ number ∈ limit.toList, CharsDouble.isFinite number = true) →
      CharsDouble.isFinite (limit.getD (Double.ofNat 0)) = true := by
    intro limit hnumbers
    cases limit with
    | none => exact hzero
    | some number => exact hnumbers number (by simp)
  have hfinite := h.finite
  exact
    { name := isWord_of_identifier h.name
      factor := hfinite signal.factor (by simp)
      offset := hfinite signal.offset (by simp)
      min := hlimit _ fun number hnumber => hfinite number (by simp_all)
      max := hlimit _ fun number hnumber => hfinite number (by simp_all)
      receivers := fun node hnode => isWord_of_nodeName (h.receivers node hnode) }

variable [LawfulCharsDouble D]

/-- The lines of a frame and of its signals. -/
theorem writes_frameBlock {frame : ExportFrame D}
    (hzero : CharsDouble.isFinite (Double.ofNat 0 : D) = true) (h : ExportableFrame frame) :
    Dbc.Writes Dbc.statement (frameBlock frame).toList (dbcMessage frame).statements := by
  have hmessage : Dbc.Writes Dbc.statement (frameLine frame).toList
      [.message (dbcMessage frame).bare] := by
    rw [toList_frameLine h.name fun node hnode => (h.transmitters node hnode).1]
    exact Dbc.Writes.message (isWord_of_identifier h.name) fun node hnode =>
      isWord_of_nodeName (h.transmitters node hnode)
  have hsignals : Dbc.Writes Dbc.statement
      (frame.signals.flatMap fun signal => (signalLine signal).toList)
      (frame.signals.map fun signal => .signal (dbcSignal signal).bare) := by
    refine Dbc.Writes.map fun signal hmem => ?_
    have hsignal := h.signals signal hmem
    rw [toList_signalLine hsignal.name fun node hnode => (hsignal.receivers node hnode).1]
    exact Dbc.Writes.signal (printable_dbcSignal hzero hsignal)
  have hstatements : (dbcMessage frame).statements = [.message (dbcMessage frame).bare] ++
      (frame.signals.map fun signal => .signal (dbcSignal signal).bare) ++ [.other] := by
    simp [Dbc.Message.statements, dbcMessage]
  rw [frameBlock, String.toList_append, String.toList_append, toList_join_map, hstatements]
  exact (hmessage.append hsignals).append (Dbc.Writes.blank Dbc.skipsOthers_statement)

omit [CharsDouble D] [LawfulCharsDouble D] in
theorem writes_transmittersLine [CharsDouble D] {frame : ExportFrame D} (h : ExportableFrame frame) :
    Dbc.Writes Dbc.statement (transmittersLine frame).toList
      (dbcMessage frame).transmitterStatements := by
  have hstatements : (dbcMessage frame).transmitterStatements =
      if 1 < frame.transmitters.length then
        [.transmitters (dbcId frame).toNat frame.transmitters]
      else [] := rfl
  rw [hstatements]
  by_cases hlength : 1 < frame.transmitters.length
  · have hne : frame.transmitters ≠ [] := fun hnil => by rw [hnil] at hlength; cases hlength
    rw [if_pos hlength,
      toList_transmittersLine (fun node hnode => (h.transmitters node hnode).1) hlength]
    exact Dbc.Writes.transmitters _ hne fun node hnode =>
      isWord_of_nodeName (h.transmitters node hnode)
  · rw [if_neg hlength, transmittersLine, if_neg hlength]
    exact .nil

omit [CharsDouble D] [LawfulCharsDouble D] in
theorem writes_valueTables [CharsDouble D] {frame : ExportFrame D} (h : ExportableFrame frame) :
    Dbc.Writes Dbc.statement (String.join (frame.signals.map (valueTableLine frame))).toList
      (dbcMessage frame).valueStatements := by
  have hsignals : (dbcMessage frame).valueStatements = frame.signals.flatMap fun signal =>
      if (dbcSignal signal).valueTable = [] then []
      else [.values (dbcId frame).toNat signal.name (dbcSignal signal).valueTable] :=
    List.flatMap_map _ _ _
  rw [toList_join_map, hsignals]
  refine Dbc.Writes.flatMap fun signal hmem => ?_
  have hname := (h.signals signal hmem).name
  have hempty : (dbcSignal signal).valueTable = [] ↔ signal.valueTable = [] := List.map_eq_nil_iff
  by_cases htable : signal.valueTable = []
  · rw [if_pos (hempty.mpr htable), valueTableLine, htable]
    exact .nil
  · rw [if_neg (mt hempty.mp htable), toList_valueTableLine hname htable]
    exact Dbc.Writes.values _ (isWord_of_identifier hname) _

/-! ## Constant lines -/

def versionLines : List (List Dbc.Piece) := [[.word "VERSION", .gap, .text ""], []]

/-- The attribute lines before those of the frames. -/
def attributeLines : List (List Dbc.Piece) :=
  [[.word "BA_DEF_", .gap, .word "BO_", .gap, .text "VFrameFormat", .gap, .word "ENUM", .gap,
      .text "StandardCAN", .mark ',', .text "ExtendedCAN"] ++
      (List.replicate 12 [.mark ',', .text "reserved"]).flatten ++
      [.mark ',', .text "StandardCAN_FD", .mark ',', .text "ExtendedCAN_FD", .mark ';'],
    [.word "BA_DEF_", .gap, .text "BusType", .gap, .word "STRING", .gap, .mark ';'],
    [.word "BA_DEF_DEF_", .gap, .text "VFrameFormat", .gap, .text "StandardCAN", .mark ';'],
    [.word "BA_DEF_DEF_", .gap, .text "BusType", .gap, .text "CAN", .mark ';'],
    [.word "BA_", .gap, .text "BusType", .gap, .text "CAN FD", .mark ';']]

omit [CharsDouble D] [LawfulCharsDouble D] in
def formatPieces (frame : ExportFrame D) : List Dbc.Piece :=
  [.word "BA_", .gap, .text "VFrameFormat", .gap, .word "BO_", .gap,
    .word (toString (dbcId frame).toNat), .gap, .word (toString (frameFormat frame)), .mark ';']

omit [CharsDouble D] [LawfulCharsDouble D] in
theorem toList_formatLine (frame : ExportFrame D) : (formatLine frame).toList =
    if frameFormat frame = 0 then [] else Dbc.lettersOf (formatPieces frame) ++ ['\n'] := by
  unfold formatLine
  by_cases hformat : frameFormat frame = 0
  · simp [hformat]
  · simp only [ne_eq, hformat, not_false_eq_true, if_true, formatPieces,
      String.toList_append, Dbc.lettersOf_cons, Dbc.Piece.letters, String.reduceToList,
      List.append_assoc, List.cons_append, List.nil_append]
    rfl

theorem lettersOf_attributeLines : Dbc.lettersOfLines attributeLines =
    ("BA_DEF_ BO_ \"VFrameFormat\" ENUM \"StandardCAN\",\"ExtendedCAN\"" ++
      String.join (List.replicate 12 ",\"reserved\"") ++
      ",\"StandardCAN_FD\",\"ExtendedCAN_FD\";\n" ++ "BA_DEF_ \"BusType\" STRING ;\n" ++
      "BA_DEF_DEF_ \"VFrameFormat\" \"StandardCAN\";\n" ++ "BA_DEF_DEF_ \"BusType\" \"CAN\";\n" ++
      "BA_ \"BusType\" \"CAN FD\";\n").toList := by
  simp only [String.toList_append, String.toList_join, String.reduceToList]
  decide +kernel

theorem lettersOf_symbols (symbols : List String) :
    Dbc.lettersOfLines (Dbc.symbolPieces symbols) =
      ("NS_ :\n" ++ String.join (symbols.map fun keyword => "\t" ++ keyword ++ "\n") ++
        "\n").toList := by
  have hlines : Dbc.lettersOfLines (symbols.map fun symbol => [.tab, .word symbol]) =
      symbols.flatMap fun keyword => ("\t" ++ keyword ++ "\n").toList := by
    rw [Dbc.lettersOfLines, List.flatMap_map]
    refine List.flatMap_congr fun keyword _ => ?_
    simp [Dbc.lettersOf, Dbc.Piece.letters]
  rw [String.toList_append, String.toList_append, toList_join_map, ← hlines, Dbc.symbolPieces,
    Dbc.lettersOfLines_append]
  simp only [String.reduceToList]
  rfl

section
variable {S : Type} {read : List Dbc.Token → Option S} {other : S}

omit [CharsDouble D] [LawfulCharsDouble D] in
/-- The attribute lines of a database with CAN FD frames. -/
theorem writes_fdAttributes (hskips : Dbc.SkipsOthers read other) (database : ExportDatabase D) :
    ∃ others : List S, (∀ skipped ∈ others, skipped = other) ∧
      Dbc.Writes read (fdAttributes database).toList others := by
  have hconstant : Dbc.Writes read (Dbc.lettersOfLines attributeLines)
      (attributeLines.map fun _ => other) :=
    Dbc.Writes.ignoredLines hskips (by decide)
  have hformats : Dbc.Writes read (database.frames.flatMap fun frame => (formatLine frame).toList)
      (database.frames.flatMap fun frame => if frameFormat frame = 0 then [] else [other]) := by
    refine Dbc.Writes.flatMap fun frame _ => ?_
    rw [toList_formatLine]
    split
    · exact .nil
    · exact Dbc.Writes.ignored hskips ⟨by decide, rfl, by decide, rfl, Dbc.isWord_nat _, rfl,
        Dbc.isWord_nat _, rfl, rfl, trivial⟩ (by decide : Dbc.Ignored [.word "BA_"])
  have hletters : (fdAttributes database).toList = Dbc.lettersOfLines attributeLines ++
      (database.frames.flatMap fun frame => (formatLine frame).toList) ++ ['\n'] := by
    rw [lettersOf_attributeLines, ← toList_join_map, ← String.toList_append]
    unfold fdAttributes
    rw [String.toList_append]
    rfl
  refine ⟨_, ?_, hletters ▸ (hconstant.append hformats).append (Dbc.Writes.blank hskips)⟩
  intro skipped hmem
  simp only [List.mem_append, List.mem_map, List.mem_flatMap, List.mem_singleton] at hmem
  rcases hmem with (⟨_, _, rfl⟩ | ⟨frame, _, hskipped⟩) | rfl
  · rfl
  · split at hskipped
    · cases hskipped
    · exact List.mem_singleton.mp hskipped
  · rfl

omit [CharsDouble D] [LawfulCharsDouble D] in
/-- What stands between the transmitters and the value tables. -/
theorem writes_between (hskips : Dbc.SkipsOthers read other) (database : ExportDatabase D) :
    ∃ others : List S, (∀ skipped ∈ others, skipped = other) ∧ Dbc.Writes read
      ((if database.frames.any fun frame => 1 < frame.transmitters.length then ['\n'] else []) ++
        (if database.frames.any ExportFrame.canFd then (fdAttributes database).toList else []))
      others := by
  have hblank : ∃ others : List S, (∀ skipped ∈ others, skipped = other) ∧
      Dbc.Writes read (if database.frames.any fun frame => 1 < frame.transmitters.length then ['\n']
        else []) others := by
    split
    · exact ⟨_, List.forall_mem_singleton.mpr rfl, Dbc.Writes.blank hskips⟩
    · exact ⟨[], by simp, .nil⟩
  have hattributes : ∃ others : List S, (∀ skipped ∈ others, skipped = other) ∧
      Dbc.Writes read (if database.frames.any ExportFrame.canFd then (fdAttributes database).toList
        else []) others := by
    split
    · exact writes_fdAttributes hskips database
    · exact ⟨[], by simp, .nil⟩
  obtain ⟨front, hfront, hfrontWrites⟩ := hblank
  obtain ⟨back, hback, hbackWrites⟩ := hattributes
  exact ⟨front ++ back, List.forall_mem_append.mpr ⟨hfront, hback⟩,
    hfrontWrites.append hbackWrites⟩

omit [LawfulCharsDouble D] in
/-- The parts of the text. -/
theorem toList_toDbc (database : ExportDatabase D) : (toDbc database).toList =
    Dbc.lettersOfLines versionLines ++ (Dbc.lettersOfLines (Dbc.symbolPieces kNewSymbols) ++
      (Dbc.lettersOfLines [[.word "BS_", .mark ':'], []] ++
        (("BU_:" ++ String.join (database.nodes.map fun node => " " ++ ident node)).toList ++
          ['\n'] ++ ['\n'] ++
          (database.frames.flatMap fun frame => (frameBlock frame).toList) ++
          (database.frames.flatMap fun frame => (transmittersLine frame).toList) ++
          ((if database.frames.any fun frame => 1 < frame.transmitters.length then ['\n'] else []) ++
            (if database.frames.any ExportFrame.canFd then (fdAttributes database).toList else [])) ++
          database.frames.flatMap fun frame =>
            (String.join (frame.signals.map (valueTableLine frame))).toList))) := by
  have hversion : Dbc.lettersOfLines versionLines = "VERSION \"\"\n\n".toList := by decide
  have hbits : Dbc.lettersOfLines [[.word "BS_", .mark ':'], []] = "BS_:\n\n".toList := by decide
  have hfront : "VERSION \"\"\n\nNS_ :\n" = "VERSION \"\"\n\n" ++ "NS_ :\n" := by decide
  have hmiddle : "\nBS_:\n\nBU_:" = "\n" ++ "BS_:\n\n" ++ "BU_:" := by decide
  unfold toDbc
  rw [hversion, hbits, lettersOf_symbols, hfront, hmiddle]
  simp only [String.toList_append, toList_join_map, apply_ite String.toList, List.append_assoc,
    String.reduceToList, List.cons_append, List.nil_append]

omit [LawfulCharsDouble D] in
/-- The lines of the text, from what its nodes and its frames write. -/
theorem readLines_toDbc (hskips : Dbc.SkipsOthers read other) {database : ExportDatabase D}
    {nodes : S} {frames transmitters values : ExportFrame D → List S}
    (hnodes : Dbc.Writes read (("BU_:" ++ String.join (database.nodes.map fun node =>
      " " ++ ident node)).toList ++ ['\n']) [nodes])
    (hframes : ∀ frame ∈ database.frames, Dbc.Writes read (frameBlock frame).toList (frames frame))
    (htransmitters : ∀ frame ∈ database.frames,
      Dbc.Writes read (transmittersLine frame).toList (transmitters frame))
    (hvalues : ∀ frame ∈ database.frames, Dbc.Writes read
      (String.join (frame.signals.map (valueTableLine frame))).toList (values frame)) :
    ∃ front others, (∀ skipped ∈ front, skipped = other) ∧ (∀ skipped ∈ others, skipped = other) ∧
      Dbc.readLines read (toDbc database) = some (front ++ ([nodes] ++ [other] ++
        database.frames.flatMap frames ++ database.frames.flatMap transmitters ++ others ++
        database.frames.flatMap values)) := by
  have hversion : Dbc.Writes read (Dbc.lettersOfLines versionLines)
      (versionLines.map fun _ => other) := Dbc.Writes.ignoredLines hskips (by decide)
  have hbits : Dbc.Writes read (Dbc.lettersOfLines [[.word "BS_", .mark ':'], []])
      [other, other] := Dbc.Writes.ignoredLines hskips (by decide)
  obtain ⟨others, hothers, hbetween⟩ := writes_between hskips database
  have hmain := ((((hnodes.append (Dbc.Writes.blank hskips)).append
    (Dbc.Writes.flatMap hframes)).append (Dbc.Writes.flatMap htransmitters)).append
    hbetween).append (Dbc.Writes.flatMap hvalues)
  refine ⟨(versionLines.map fun _ => other) ++ [other, other], others, ?_, hothers, ?_⟩
  · simp [versionLines]
  · rw [Dbc.readLines_of_writes (toList_toDbc database) hversion (hbits.append hmain) (by decide),
      ← List.append_assoc]

end

/-! ## The round trip -/

omit [LawfulCharsDouble D] in
theorem distinct_dbcDatabase {database : ExportDatabase D} (h : Exportable database) :
    (dbcDatabase database).Distinct where
  ids := by
    have hids : (dbcDatabase database).messages.map Dbc.Message.id =
        (database.frames.map dbcId).map UInt32.toNat := by
      simp [dbcDatabase, dbcMessage]
    rw [hids]
    exact h.distinctIds.map fun _ _ => UInt32.toNat_inj.mp
  names := by
    intro message hmem
    obtain ⟨frame, hframe, rfl⟩ := List.mem_map.mp hmem
    have hnames : (dbcMessage frame).signals.map Dbc.Signal.name =
        frame.signals.map ExportSignal.name := by
      simp [dbcMessage, dbcSignal]
    rw [hnames]
    exact (h.frames frame hframe).distinctNames

omit [Double D] [CharsDouble D] [LawfulCharsDouble D] in
theorem toList_nodesLine {nodes : List String} (h : ∀ node ∈ nodes, IsIdentifier node) :
    ("BU_:" ++ String.join (nodes.map fun node => " " ++ ident node)).toList =
      Dbc.lettersOf (Dbc.nodePieces nodes) := by
  have hnodes : (nodes.flatMap fun node => (" " ++ ident node).toList) =
      Dbc.lettersOf (nodes.flatMap fun node => [.gap, .word node]) := by
    rw [Dbc.lettersOf, List.flatMap_assoc]
    refine List.flatMap_congr fun node hnode => ?_
    rw [ident_eq (h node hnode), String.toList_append]
    simp [Dbc.Piece.letters]
  rw [String.toList_append, toList_join_map, hnodes, Dbc.nodePieces, Dbc.lettersOf_append]
  rfl

/-- **A DBC reader recovers the exported database.** -/
theorem dbc_round_trip (hzero : CharsDouble.isFinite (Double.ofNat 0 : D) = true)
    {database : ExportDatabase D} (h : Exportable database) :
    Dbc.read (toDbc database) = some (dbcDatabase database) := by
  have hnodes : Dbc.Writes (@Dbc.statement D _) (("BU_:" ++ String.join (database.nodes.map fun node =>
      " " ++ ident node)).toList ++ ['\n']) [.nodes database.nodes] := by
    rw [toList_nodesLine fun node hnode => (h.nodes node hnode).1]
    exact @Dbc.Writes.nodes D _ _ fun node hnode => (isWord_of_nodeName (h.nodes node hnode)).1
  obtain ⟨front, others, hfront, hothers, hlines⟩ := readLines_toDbc Dbc.skipsOthers_statement
    hnodes (fun frame hframe => writes_frameBlock hzero (h.frames frame hframe))
    (fun frame hframe => writes_transmittersLine (h.frames frame hframe))
    (fun frame hframe => writes_valueTables (h.frames frame hframe))
  have hstatements : (dbcDatabase database).statements others =
      [.nodes database.nodes] ++ [.other] ++
        (database.frames.flatMap fun frame => (dbcMessage frame).statements) ++
        (database.frames.flatMap fun frame => (dbcMessage frame).transmitterStatements) ++ others ++
        database.frames.flatMap fun frame => (dbcMessage frame).valueStatements := by
    simp [Dbc.Database.statements, dbcDatabase, List.flatMap_map]
  rw [Dbc.read_of_lines hlines, ← hstatements, Dbc.foldlM_skip _ hfront]
  exact Dbc.foldlM_statements (distinct_dbcDatabase h) hothers

end

/-- Two frames, one with CAN FD and two transmitters; a unit and a label hold
quotes, backslashes, line breaks and keywords. -/
def brakeDatabase : ExportDatabase WholeDouble :=
  { nodes := ["Gateway", "Brakes"]
    frames := [
      { name := "Brake", id := 0x123, extended := true, canFd := true, length := 8
        transmitters := ["Gateway", "Brakes"]
        signals := [
          { name := "Pressure", startBit := 3, bitLength := 12, isSigned := true
            byteOrder := .mostSignificantByteFirst, factor := ⟨2⟩, offset := ⟨-40⟩
            max := some ⟨500⟩, unit := "\"bar\\\nVAL_ 1", receivers := ["Brakes"] },
          { name := "State"
            valueTable := [⟨-1, "say \"off\""⟩, ⟨1, "on\nSG_ State : 0"⟩] }] },
      { name := "Wheel", id := 0x124 }] }

theorem brakeDatabase_round_trip :
    Exportable brakeDatabase ∧ Dbc.read (toDbc brakeDatabase) = some (dbcDatabase brakeDatabase) :=
  have hexportable : Exportable brakeDatabase := by decide +kernel
  ⟨hexportable, dbc_round_trip rfl hexportable⟩

end ParseX.CanDb

import ParseX.Base.DbcNames
import ParseX.Export.DbcRoundTrip

/-! # Names of a DBC export

Sanitising leaves C identifiers alone and can write two other names alike. The
names that a text has are the sanitised ones. -/
namespace ParseX.CanDb
open Cpp

/-! ## The sanitised form -/

/-- The bytes of a name, with an underscore for each that cannot stand in an
identifier. -/
def replacedBytes (name : String) : List Char :=
  name.toList.flatMap fun letter =>
    if isIdentChar letter then [letter] else List.replicate letter.utf8Size '_'

/-- No identifier is empty or starts with a digit. -/
def NeedsPrefix : List Char → Prop
  | [] => True
  | letter :: _ => isDecimalDigit letter = true

instance : DecidablePred NeedsPrefix
  | [] => isTrue trivial
  | letter :: _ => inferInstanceAs (Decidable (isDecimalDigit letter = true))

/-- Two names are the same up to the replaced bytes, or up to the underscore that
is put before a leading digit or for an empty name. -/
def Confusable (a b : String) : Prop :=
  replacedBytes a = replacedBytes b ∨
    NeedsPrefix (replacedBytes a) ∧ replacedBytes b = '_' :: replacedBytes a ∨
    NeedsPrefix (replacedBytes b) ∧ replacedBytes a = '_' :: replacedBytes b

instance (a b : String) : Decidable (Confusable a b) :=
  inferInstanceAs (Decidable (_ ∨ _ ∧ _ ∨ _ ∧ _))

theorem toList_ident (name : String) : (ident name).toList =
    if NeedsPrefix (replacedBytes name) then '_' :: replacedBytes name else replacedBytes name := by
  have hneeds : ((replacedBytes name).isEmpty ||
      ((replacedBytes name).head?.map isDecimalDigit).getD false) = true ↔
        NeedsPrefix (replacedBytes name) := by
    cases replacedBytes name <;> simp [NeedsPrefix]
  have hident : ident name = String.ofList (if (replacedBytes name).isEmpty ||
      ((replacedBytes name).head?.map isDecimalDigit).getD false then '_' :: replacedBytes name
      else replacedBytes name) := rfl
  rw [hident, String.toList_ofList]
  exact if_congr hneeds rfl rfl

/-- A prefixed form needs no prefix. -/
theorem not_needsPrefix_cons (letters : List Char) : ¬ NeedsPrefix ('_' :: letters) := by
  have hline : ¬ isDecimalDigit '_' = true := by decide
  exact hline

/-- Two names are written alike exactly when they are confusable. -/
theorem ident_eq_ident_iff {a b : String} : ident a = ident b ↔ Confusable a b := by
  rw [← String.toList_inj, toList_ident, toList_ident]
  unfold Confusable
  by_cases ha : NeedsPrefix (replacedBytes a) <;> by_cases hb : NeedsPrefix (replacedBytes b)
  · have hne : replacedBytes b ≠ '_' :: replacedBytes a := fun h =>
      not_needsPrefix_cons _ (h ▸ hb)
    have hne' : replacedBytes a ≠ '_' :: replacedBytes b := fun h =>
      not_needsPrefix_cons _ (h ▸ ha)
    simp [ha, hb, hne, hne']
  · have hne : replacedBytes a ≠ replacedBytes b := fun h => hb (h ▸ ha)
    rw [if_pos ha, if_neg hb]
    simp [ha, hb, hne, eq_comm]
  · have hne : replacedBytes a ≠ replacedBytes b := fun h => ha (h ▸ hb)
    rw [if_neg ha, if_pos hb]
    simp [ha, hb, hne]
  · simp [ha, hb]

theorem isIdentifier_ident (name : String) : IsIdentifier (ident name) := by
  have hreplaced : ∀ letter ∈ replacedBytes name, isIdentChar letter = true := by
    intro letter hletter
    obtain ⟨original, -, hmem⟩ := List.mem_flatMap.mp hletter
    split at hmem
    · rename_i hkeep
      rwa [List.mem_singleton.mp hmem]
    · rw [List.eq_of_mem_replicate hmem]
      rfl
  have hletters := toList_ident name
  refine ⟨fun hempty => ?_, fun letter hletter => ?_, fun letter hletter => ?_⟩
  · rw [hempty] at hletters
    split at hletters
    · cases hletters
    · rename_i hneeds
      rw [← hletters] at hneeds
      exact hneeds trivial
  · rw [hletters] at hletter
    split at hletter
    · rcases List.mem_cons.mp hletter with rfl | hletter
      · rfl
      · exact hreplaced letter hletter
    · exact hreplaced letter hletter
  · rw [hletters] at hletter
    split at hletter
    · obtain rfl := Option.some.inj hletter
      rfl
    · rename_i hneeds
      refine Bool.eq_false_iff.mpr fun hdigit => hneeds ?_
      obtain ⟨rest, hrest⟩ := List.head?_eq_some_iff.mp hletter
      rw [hrest]
      exact hdigit

@[simp] theorem ident_ident (name : String) : ident (ident name) = ident name :=
  ident_eq (isIdentifier_ident name)

/-! ## Sections of names -/

/-- Different names are not confusable. -/
def Apart (names : List String) : Prop :=
  ∀ a ∈ names, ∀ b ∈ names, Confusable a b → a = b

/-- Different names are written differently exactly when they are apart. -/
theorem nodup_map_ident_iff {names : List String} (h : names.Nodup) :
    (names.map ident).Nodup ↔ Apart names := by
  constructor
  · intro hdistinct a ha b hb hconfusable
    exact List.inj_on_of_nodup_map hdistinct ha hb (ident_eq_ident_iff.mpr hconfusable)
  · intro hapart
    exact h.map_on fun a ha b hb hab => hapart a ha b hb (ident_eq_ident_iff.mp hab)

theorem apart_of_identifiers {names : List String} (h : ∀ name ∈ names, IsIdentifier name) :
    Apart names := by
  intro a ha b hb hconfusable
  rw [← ident_eq (h a ha), ident_eq_ident_iff.mpr hconfusable, ident_eq (h b hb)]

/-! ## Sanitised frames -/

section
variable {D : Type} [Double D]

def ExportSignal.sanitised (signal : ExportSignal D) : ExportSignal D := { signal with
  name := ident signal.name
  receivers := signal.receivers.map ident }

def ExportFrame.sanitised (frame : ExportFrame D) : ExportFrame D := { frame with
  name := ident frame.name
  transmitters := frame.transmitters.map ident
  signals := frame.signals.map ExportSignal.sanitised }

omit [Double D] in
theorem joinIdents_map_ident (names : List String) (separator : String) :
    joinIdents (names.map ident) separator = joinIdents names separator := by
  rw [joinIdents, joinIdents, List.foldl_map]
  simp only [ident_ident]

theorem ident_name_sanitised (signal : ExportSignal D) :
    ident signal.sanitised.name = ident signal.name := ident_ident signal.name

theorem frameLine_sanitised (frame : ExportFrame D) : frameLine frame.sanitised = frameLine frame := by
  have hname : ident frame.sanitised.name = ident frame.name := ident_ident frame.name
  have htransmitters : frame.sanitised.transmitters = frame.transmitters.map ident := rfl
  unfold frameLine
  rw [hname, htransmitters]
  cases frame.transmitters with
  | nil => rfl
  | cons first rest =>
    change _ ++ ident (ident first) ++ _ = _
    rw [ident_ident]
    rfl

theorem transmittersLine_sanitised (frame : ExportFrame D) :
    transmittersLine frame.sanitised = transmittersLine frame := by
  have htransmitters : frame.sanitised.transmitters = frame.transmitters.map ident := rfl
  unfold transmittersLine
  rw [htransmitters, joinIdents_map_ident, List.length_map]
  rfl

theorem valueTableLine_sanitised (frame : ExportFrame D) (signal : ExportSignal D) :
    valueTableLine frame.sanitised signal.sanitised = valueTableLine frame signal := by
  unfold valueTableLine
  rw [ident_name_sanitised]
  rfl

variable [CharsDouble D]

theorem signalLine_sanitised (signal : ExportSignal D) :
    signalLine signal.sanitised = signalLine signal := by
  have hreceivers : signal.sanitised.receivers = signal.receivers.map ident := rfl
  unfold signalLine
  rw [ident_name_sanitised, hreceivers, joinIdents_map_ident]
  rfl

/-! ## The names of the text -/

omit [CharsDouble D] in
def writtenSignal (signal : ExportSignal D) : Dbc.NamedSignal :=
  { name := ident signal.name
    receivers := Dbc.orNoNode (signal.receivers.map ident) }

omit [CharsDouble D] in
def writtenMessage (frame : ExportFrame D) : Dbc.NamedMessage :=
  { id := (dbcId frame).toNat
    name := ident frame.name
    transmitter := (frame.transmitters.map ident).headD Dbc.noNode
    signals := frame.signals.map writtenSignal }

omit [CharsDouble D] in
def writtenTransmitters (frame : ExportFrame D) : List (Nat × List String) :=
  if 1 < frame.transmitters.length then
    [((dbcId frame).toNat, frame.transmitters.map ident)]
  else []

omit [CharsDouble D] in
def writtenValues (frame : ExportFrame D) : List (Nat × String) :=
  frame.signals.flatMap fun signal =>
    if signal.valueTable = [] then [] else [((dbcId frame).toNat, ident signal.name)]

omit [CharsDouble D] in
/-- The names that the text of a database has. -/
def writtenNames (database : ExportDatabase D) : Dbc.Names :=
  { nodes := database.nodes.map ident
    messages := database.frames.map writtenMessage
    transmitters := database.frames.flatMap writtenTransmitters
    values := database.frames.flatMap writtenValues }

omit [Double D] [CharsDouble D] in
theorem isIdentifier_map_ident (names : List String) : ∀ name ∈ names.map ident, IsIdentifier name := by
  intro name hname
  obtain ⟨original, -, rfl⟩ := List.mem_map.mp hname
  exact isIdentifier_ident original

theorem writes_signalLine_names (hwords : ∀ number : D, Dbc.IsWord (CharsDouble.toChars number))
    (signal : ExportSignal D) :
    Dbc.Writes Dbc.namedLine (signalLine signal).toList [(writtenSignal signal).line] := by
  have hspelled : (dbcSignal signal.sanitised).Spelled :=
    { name := isWord_of_identifier (isIdentifier_ident signal.name)
      factor := hwords _
      offset := hwords _
      min := hwords _
      max := hwords _
      receivers := fun name hname => isWord_of_identifier (isIdentifier_map_ident _ name hname) }
  rw [← signalLine_sanitised, toList_signalLine (isIdentifier_ident signal.name)
    (isIdentifier_map_ident signal.receivers)]
  exact Dbc.Writes.stated Dbc.skipsOthers_namedLine (Dbc.wellSpaced_signalPieces hspelled)
    (Dbc.namedLine_signal (dbcSignal signal.sanitised)) (by simp [Dbc.NamedSignal.line])

theorem writes_frameBlock_names (hwords : ∀ number : D, Dbc.IsWord (CharsDouble.toChars number))
    (frame : ExportFrame D) :
    Dbc.Writes Dbc.namedLine (frameBlock frame).toList (writtenMessage frame).lines := by
  have hname := isIdentifier_ident frame.name
  have htransmitters := isIdentifier_map_ident frame.transmitters
  have hmessage : Dbc.Writes Dbc.namedLine (frameLine frame).toList [.message
      (writtenMessage frame).id (writtenMessage frame).name (writtenMessage frame).transmitter] := by
    rw [← frameLine_sanitised, toList_frameLine hname htransmitters]
    exact Dbc.Writes.stated Dbc.skipsOthers_namedLine
      (Dbc.wellSpaced_messagePieces (isWord_of_identifier hname) fun node hnode =>
        isWord_of_identifier (htransmitters node hnode))
      (Dbc.namedLine_message (dbcMessage frame.sanitised)) (by simp)
  have hsignals : Dbc.Writes Dbc.namedLine
      (frame.signals.flatMap fun signal => (signalLine signal).toList)
      (frame.signals.map fun signal => (writtenSignal signal).line) :=
    Dbc.Writes.map fun signal _ => writes_signalLine_names hwords signal
  have hlines : (writtenMessage frame).lines = [.message (writtenMessage frame).id
      (writtenMessage frame).name (writtenMessage frame).transmitter] ++
        (frame.signals.map fun signal => (writtenSignal signal).line) ++ [.other] := by
    simp [Dbc.NamedMessage.lines, writtenMessage]
  rw [frameBlock, String.toList_append, String.toList_append, toList_join_map, hlines]
  exact (hmessage.append hsignals).append (Dbc.Writes.blank Dbc.skipsOthers_namedLine)

omit [CharsDouble D] in
theorem writes_transmittersLine_names (frame : ExportFrame D) :
    Dbc.Writes Dbc.namedLine (transmittersLine frame).toList
      ((writtenTransmitters frame).map fun line => .transmitters line.1 line.2) := by
  have hnames := isIdentifier_map_ident frame.transmitters
  by_cases hlength : 1 < frame.transmitters.length
  · have hmany : 1 < frame.sanitised.transmitters.length := by
      rwa [ExportFrame.sanitised, List.length_map]
    have hne : frame.transmitters.map ident ≠ [] := by
      intro hnil
      rw [List.map_eq_nil_iff.mp hnil] at hlength
      cases hlength
    rw [writtenTransmitters, if_pos hlength, ← transmittersLine_sanitised,
      toList_transmittersLine hnames hmany]
    exact Dbc.Writes.stated Dbc.skipsOthers_namedLine
      (Dbc.wellSpaced_transmitterPieces _ fun name hname => isWord_of_identifier (hnames name hname))
      (Dbc.namedLine_transmitters _ hne) (by simp)
  · rw [writtenTransmitters, if_neg hlength, transmittersLine, if_neg hlength]
    exact .nil

omit [CharsDouble D] in
theorem writes_valueTables_names (frame : ExportFrame D) :
    Dbc.Writes Dbc.namedLine (String.join (frame.signals.map (valueTableLine frame))).toList
      ((writtenValues frame).map fun line => .values line.1 line.2) := by
  rw [toList_join_map, writtenValues, List.map_flatMap]
  refine Dbc.Writes.flatMap fun signal _ => ?_
  have hname := isIdentifier_ident signal.name
  by_cases htable : signal.valueTable = []
  · rw [if_pos htable, valueTableLine, htable]
    exact .nil
  · rw [if_neg htable, ← valueTableLine_sanitised,
      @toList_valueTableLine _ _ frame.sanitised signal.sanitised hname htable]
    exact Dbc.Writes.stated Dbc.skipsOthers_namedLine
      (Dbc.wellSpaced_valuePieces _ (isWord_of_identifier hname) _)
      (Dbc.namedLine_values _ _ _) (by simp)

/-- **The text of a database has the sanitised names.** -/
theorem readNames_toDbc (hwords : ∀ number : D, Dbc.IsWord (CharsDouble.toChars number))
    (database : ExportDatabase D) :
    Dbc.readNames (toDbc database) = some (writtenNames database) := by
  have hnames := isIdentifier_map_ident database.nodes
  have hjoin : String.join (database.nodes.map fun node => " " ++ ident node) =
      String.join ((database.nodes.map ident).map fun node => " " ++ ident node) := by
    rw [List.map_map]
    exact congrArg String.join (List.map_congr_left fun node _ => by simp)
  have hnodes : Dbc.Writes Dbc.namedLine (("BU_:" ++ String.join (database.nodes.map fun node =>
      " " ++ ident node)).toList ++ ['\n']) [.nodes (database.nodes.map ident)] := by
    rw [hjoin, toList_nodesLine hnames]
    exact Dbc.Writes.stated Dbc.skipsOthers_namedLine
      (Dbc.wellSpaced_nodePieces fun name hname => isWord_of_identifier (hnames name hname))
      (Dbc.namedLine_nodes _) (by simp)
  obtain ⟨front, others, hfront, hothers, hlines⟩ := readLines_toDbc Dbc.skipsOthers_namedLine
    hnodes (fun frame _ => writes_frameBlock_names hwords frame)
    (fun frame _ => writes_transmittersLine_names frame)
    (fun frame _ => writes_valueTables_names frame)
  have hwritten : (writtenNames database).lines others =
      [.nodes (database.nodes.map ident)] ++ [.other] ++
        (database.frames.flatMap fun frame => (writtenMessage frame).lines) ++
        (database.frames.flatMap fun frame =>
          (writtenTransmitters frame).map fun line => .transmitters line.1 line.2) ++ others ++
        database.frames.flatMap fun frame =>
          (writtenValues frame).map fun line => .values line.1 line.2 := by
    simp [Dbc.Names.lines, writtenNames, List.flatMap_map, List.map_flatMap]
  rw [Dbc.readNames, hlines, ← hwritten]
  exact Dbc.foldlM_names _ hfront hothers

end

/-! ## Names and their objects -/

section
variable {D : Type} [Double D]

/-- No name occurs twice in a section. -/
structure ExportDatabase.DistinctNames (database : ExportDatabase D) : Prop where
  nodes : database.nodes.Nodup
  frames : (database.frames.map ExportFrame.name).Nodup
  signals : ∀ frame ∈ database.frames, (frame.signals.map ExportSignal.name).Nodup

/-- Transmitters and receivers are nodes. -/
structure ExportDatabase.PartiesListed (database : ExportDatabase D) : Prop where
  transmitters : ∀ frame ∈ database.frames, ∀ node ∈ frame.transmitters, node ∈ database.nodes
  receivers : ∀ frame ∈ database.frames, ∀ signal ∈ frame.signals, ∀ node ∈ signal.receivers,
    node ∈ database.nodes

/-- No two different names of a section are confusable. -/
structure ExportDatabase.NamesApart (database : ExportDatabase D) : Prop where
  nodes : Apart database.nodes
  frames : Apart (database.frames.map ExportFrame.name)
  signals : ∀ frame ∈ database.frames, Apart (frame.signals.map ExportSignal.name)

variable {database : ExportDatabase D}

theorem distinct_writtenNames_iff (h : database.DistinctNames) :
    (writtenNames database).Distinct ↔ database.NamesApart := by
  have hframes : (writtenNames database).messages.map Dbc.NamedMessage.name =
      (database.frames.map ExportFrame.name).map ident := by
    simp [writtenNames, writtenMessage]
  have hsignals (frame : ExportFrame D) : (writtenMessage frame).signals.map Dbc.NamedSignal.name =
      (frame.signals.map ExportSignal.name).map ident := by
    simp [writtenMessage, writtenSignal]
  constructor
  · rintro ⟨hnodes, hmessages, hmessageSignals⟩
    rw [hframes] at hmessages
    refine ⟨(nodup_map_ident_iff h.nodes).mp hnodes, (nodup_map_ident_iff h.frames).mp hmessages,
      fun frame hframe => (nodup_map_ident_iff (h.signals frame hframe)).mp ?_⟩
    rw [← hsignals]
    exact hmessageSignals _ (List.mem_map_of_mem hframe)
  · rintro ⟨hnodes, hmessages, hmessageSignals⟩
    refine ⟨(nodup_map_ident_iff h.nodes).mpr hnodes, ?_, ?_⟩
    · rw [hframes]
      exact (nodup_map_ident_iff h.frames).mpr hmessages
    · intro message hmem
      obtain ⟨frame, hframe, rfl⟩ := List.mem_map.mp hmem
      rw [hsignals]
      exact (nodup_map_ident_iff (h.signals frame hframe)).mpr (hmessageSignals frame hframe)

/-- A listed party is written with the name of exactly one node. -/
theorem nodesResolved_of_distinct (hparties : database.PartiesListed)
    (h : (writtenNames database).Distinct) : (writtenNames database).NodesResolved := by
  have hone {node : String} (hnode : node ∈ database.nodes) :
      (writtenNames database).nodes.count (ident node) = 1 :=
    List.count_eq_one_of_mem h.nodes (List.mem_map_of_mem hnode)
  refine ⟨fun message hmem => ?_, fun message hmem signal hsignal node hnode => ?_,
    fun line hline node hnode => ?_⟩
  · obtain ⟨frame, hframe, rfl⟩ := List.mem_map.mp hmem
    have hlisted := hparties.transmitters frame hframe
    simp only [writtenMessage]
    cases hlist : frame.transmitters with
    | nil => exact Or.inl rfl
    | cons first rest =>
      rw [hlist] at hlisted
      exact Or.inr (hone (hlisted first List.mem_cons_self))
  · obtain ⟨frame, hframe, rfl⟩ := List.mem_map.mp hmem
    obtain ⟨original, horiginal, rfl⟩ := List.mem_map.mp hsignal
    simp only [writtenSignal, Dbc.orNoNode] at hnode
    split at hnode
    · exact Or.inl (List.mem_singleton.mp hnode)
    · obtain ⟨party, hparty, rfl⟩ := List.mem_map.mp hnode
      exact Or.inr (hone (hparties.receivers frame hframe original horiginal party hparty))
  · obtain ⟨frame, hframe, hline⟩ := List.mem_flatMap.mp hline
    unfold writtenTransmitters at hline
    split at hline
    · obtain rfl := List.mem_singleton.mp hline
      obtain ⟨party, hparty, rfl⟩ := List.mem_map.mp hnode
      exact hone (hparties.transmitters frame hframe party hparty)
    · cases hline

/-- A message id that no other frame has is that of one message. -/
theorem messagesOf_writtenNames (hids : (database.frames.map dbcId).Nodup) {frame : ExportFrame D}
    (hframe : frame ∈ database.frames) :
    (writtenNames database).messagesOf (dbcId frame).toNat = [writtenMessage frame] := by
  obtain ⟨front, back, hsplit⟩ := List.append_of_mem hframe
  have hothers : ∀ other ∈ front ++ back, (dbcId other).toNat ≠ (dbcId frame).toNat := by
    rw [hsplit, List.map_append, List.map_cons, List.nodup_middle, List.nodup_cons,
      ← List.map_append] at hids
    exact fun other hother heq => hids.1 (UInt32.toNat_inj.mp heq ▸ List.mem_map_of_mem hother)
  have hnone : ∀ frames : List (ExportFrame D), (∀ other ∈ frames, other ∈ front ++ back) →
      (frames.map writtenMessage).filter (fun message => message.id = (dbcId frame).toNat) = [] := by
    intro frames hsub
    refine List.filter_eq_nil_iff.mpr fun message hmem => ?_
    obtain ⟨other, hother, rfl⟩ := List.mem_map.mp hmem
    exact fun heq => hothers other (hsub other hother) (of_decide_eq_true heq)
  rw [Dbc.Names.messagesOf, writtenNames, hsplit, List.map_append, List.map_cons,
    List.filter_append, List.filter_cons, hnone front fun _ h => List.mem_append_left _ h,
    hnone back fun _ h => List.mem_append_right _ h, if_pos (by simp [writtenMessage])]
  rfl

theorem messagesResolved_of_distinct (hids : (database.frames.map dbcId).Nodup)
    (h : (writtenNames database).Distinct) : (writtenNames database).MessagesResolved := by
  refine ⟨fun line hline => ?_, fun line hline => ?_⟩
  · obtain ⟨frame, hframe, hline⟩ := List.mem_flatMap.mp hline
    unfold writtenTransmitters at hline
    split at hline
    · obtain rfl := List.mem_singleton.mp hline
      exact ⟨_, messagesOf_writtenNames hids hframe⟩
    · cases hline
  · obtain ⟨frame, hframe, hline⟩ := List.mem_flatMap.mp hline
    obtain ⟨signal, hsignal, hline⟩ := List.mem_flatMap.mp hline
    split at hline
    · cases hline
    · obtain rfl := List.mem_singleton.mp hline
      refine ⟨_, messagesOf_writtenNames hids hframe, List.count_eq_one_of_mem
        (h.signals _ (List.mem_map_of_mem hframe)) ?_⟩
      exact List.mem_map.mpr ⟨writtenSignal signal, List.mem_map_of_mem hsignal, rfl⟩

/-- The names that a text has stay apart, and its lines refer to one object each,
exactly where no two different names of a section are confusable. C identifiers
never are. -/
theorem sanitised_names_iff [CharsDouble D]
    (hwords : ∀ number : D, Dbc.IsWord (CharsDouble.toChars number)) (h : database.DistinctNames)
    (hparties : database.PartiesListed) :
    ∃ names, Dbc.readNames (toDbc database) = some names ∧
      names.nodes = database.nodes.map ident ∧
      names.messages.map Dbc.NamedMessage.name =
        (database.frames.map ExportFrame.name).map ident ∧
      (names.messages.map fun message => message.signals.map Dbc.NamedSignal.name) =
        (database.frames.map fun frame => (frame.signals.map ExportSignal.name).map ident) ∧
      (names.Distinct ∧ names.NodesResolved ∧
        ((database.frames.map dbcId).Nodup → names.MessagesResolved) ↔ database.NamesApart) ∧
      ∀ others : List String, (∀ name ∈ others, IsIdentifier name) → Apart others := by
  refine ⟨_, readNames_toDbc hwords database, rfl, ?_, ?_, ⟨fun hnames => ?_, fun hapart => ?_⟩,
    fun _ => apart_of_identifiers⟩
  · simp [writtenNames, writtenMessage]
  · simp [writtenNames, writtenMessage, writtenSignal]
  · exact (distinct_writtenNames_iff h).mp hnames.1
  · have hdistinct := (distinct_writtenNames_iff h).mpr hapart
    exact ⟨hdistinct, nodesResolved_of_distinct hparties hdistinct, fun hids =>
      messagesResolved_of_distinct hids hdistinct⟩

end

/-! ## An instance -/

/-- A database with the names as its nodes, and as frames that all of them send,
with signals of the names that all of them receive. -/
def databaseOfNames (names : List String) : ExportDatabase WholeDouble :=
  { nodes := names
    frames := names.map fun name =>
      { name := name, transmitters := names
        signals := names.map fun name => { name := name, receivers := names } } }

theorem frames_databaseOfNames (names : List String) :
    (databaseOfNames names).frames.map ExportFrame.name = names :=
  List.map_map.trans (List.map_id names)

theorem signals_databaseOfNames {names : List String} {frame : ExportFrame WholeDouble}
    (h : frame ∈ (databaseOfNames names).frames) : frame.signals.map ExportSignal.name = names := by
  obtain ⟨name, -, rfl⟩ := List.mem_map.mp h
  exact List.map_map.trans (List.map_id names)

theorem distinctNames_databaseOfNames {names : List String} (h : names.Nodup) :
    (databaseOfNames names).DistinctNames where
  nodes := h
  frames := (frames_databaseOfNames names).symm ▸ h
  signals _ hframe := (signals_databaseOfNames hframe).symm ▸ h

theorem partiesListed_databaseOfNames (names : List String) :
    (databaseOfNames names).PartiesListed := by
  refine ⟨fun frame hframe node hnode => ?_, fun frame hframe signal hsignal node hnode => ?_⟩
  · obtain ⟨name, -, rfl⟩ := List.mem_map.mp hframe
    exact hnode
  · obtain ⟨name, -, rfl⟩ := List.mem_map.mp hframe
    obtain ⟨other, -, rfl⟩ := List.mem_map.mp hsignal
    exact hnode

theorem isWord_toChars_whole (number : WholeDouble) : Dbc.IsWord (CharsDouble.toChars number) :=
  Dbc.isWord_toChars rfl

/-- The text has two nodes, two messages and two signals of one name. -/
theorem names_merged :
    let database := databaseOfNames ["A-B", "A_B"]
    database.DistinctNames ∧ database.PartiesListed ∧
      ∃ names, Dbc.readNames (toDbc database) = some names ∧ names.nodes = ["A_B", "A_B"] ∧
        names.messages.map Dbc.NamedMessage.name = ["A_B", "A_B"] ∧
        (∀ message ∈ names.messages,
          message.signals.map Dbc.NamedSignal.name = ["A_B", "A_B"]) ∧
        ¬ names.NodesResolved := by
  intro database
  refine ⟨distinctNames_databaseOfNames (by decide), partiesListed_databaseOfNames _, _,
    readNames_toDbc isWord_toChars_whole database, by decide +kernel, by decide +kernel,
    by decide +kernel, fun hresolved => ?_⟩
  have htwice : (writtenNames database).messages.map Dbc.NamedMessage.transmitter =
      ["A_B", "A_B"] ∧ (writtenNames database).nodes.count "A_B" = 2 := by decide +kernel
  obtain ⟨message, hmessage, hname⟩ :=
    List.mem_map.mp (htwice.1 ▸ List.mem_cons_self : "A_B" ∈ _)
  have hone := hresolved.transmitter message hmessage
  rw [hname, htwice.2] at hone
  exact absurd hone (by decide)

/-- Names with a different byte in the same place, and identifiers, stay apart. -/
theorem names_kept_apart :
    ∃ names, Dbc.readNames (toDbc (databaseOfNames ["A-B", "A_C", "B"])) = some names ∧
      names.nodes = ["A_B", "A_C", "B"] ∧ names.Distinct ∧ names.NodesResolved := by
  have hapart : Apart ["A-B", "A_C", "B"] := by
    unfold Apart
    decide +kernel
  have hnames : (databaseOfNames ["A-B", "A_C", "B"]).NamesApart :=
    { nodes := hapart
      frames := (frames_databaseOfNames _).symm ▸ hapart
      signals := fun frame hframe => (signals_databaseOfNames hframe).symm ▸ hapart }
  obtain ⟨names, hread, hnodes, -, -, hiff, -⟩ := sanitised_names_iff isWord_toChars_whole
    (distinctNames_databaseOfNames (by decide : ["A-B", "A_C", "B"].Nodup))
    (partiesListed_databaseOfNames _)
  obtain ⟨hdistinct, hresolved, -⟩ := hiff.mpr hnames
  exact ⟨names, hread, hnodes.trans (by decide +kernel), hdistinct, hresolved⟩

end ParseX.CanDb

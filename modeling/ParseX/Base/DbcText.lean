import ParseX.Base.DbcLines

/-! # A whole DBC text

The text of a database: a front, the symbol list, then the nodes, the messages
with their signals, the transmitters and the value tables. -/
namespace ParseX.Dbc
open Cpp

section
variable {S : Type} {read : List Token → Option S}

/-! ## Texts and their statements -/

/-- Lines of a text and what they read as. -/
inductive Writes (read : List Token → Option S) : List Char → List S → Prop where
  | nil : Writes read [] []
  | line {pieces : List Piece} {stated : S} {letters : List Char} {statements : List S} :
      WellSpaced pieces → tokensOf pieces ≠ symbolsLine → read (tokensOf pieces) = some stated →
      Writes read letters statements →
      Writes read (lettersOf pieces ++ '\n' :: letters) (stated :: statements)

/-- The keyword is none that a reader knows. -/
def Ignored (line : List Token) : Prop :=
  ∀ keyword ∈ ["BU_", "BO_", "SG_", "BO_TX_BU_", "VAL_", "NS_"], line.head? ≠ some (.word keyword)

instance (line : List Token) : Decidable (Ignored line) := inferInstanceAs (Decidable (∀ _ ∈ _, _))

theorem Ignored.keyword_ne {keyword : String} {rest : List Token}
    (h : Ignored (.word keyword :: rest)) : keyword ≠ "BU_" ∧ keyword ≠ "BO_" ∧ keyword ≠ "SG_" ∧
      keyword ≠ "BO_TX_BU_" ∧ keyword ≠ "VAL_" := by
  simp only [Ignored, List.forall_mem_cons, List.head?, ne_eq, Option.some.injEq,
    Token.word.injEq] at h
  obtain ⟨hnodes, hmessage, hsignal, htransmitters, hvalues, -⟩ := h
  exact ⟨hnodes, hmessage, hsignal, htransmitters, hvalues⟩

/-- Lines with another keyword, and the start of the symbol list, read as `other`. -/
structure SkipsOthers (read : List Token → Option S) (other : S) : Prop where
  ignored {line : List Token} : Ignored line → read line = some other
  symbols : read symbolsLine = some other

variable {letters letters' : List Char} {statements statements' : List S} {other : S}

theorem Writes.append (h : Writes read letters statements) (h' : Writes read letters' statements') :
    Writes read (letters ++ letters') (statements ++ statements') := by
  induction h with
  | nil => exact h'
  | line hspaced hsymbols hstated _ ih =>
    rw [List.append_assoc, List.cons_append, List.cons_append]
    exact .line hspaced hsymbols hstated ih

theorem Writes.single {pieces : List Piece} {stated : S} (hspaced : WellSpaced pieces)
    (hsymbols : tokensOf pieces ≠ symbolsLine) (hstated : read (tokensOf pieces) = some stated) :
    Writes read (lettersOf pieces ++ ['\n']) [stated] := .line hspaced hsymbols hstated .nil

/-- A line that states something does not start the symbol list. -/
theorem Writes.stated (hskips : SkipsOthers read other) {pieces : List Piece} {stated : S}
    (hspaced : WellSpaced pieces) (hstated : read (tokensOf pieces) = some stated)
    (hother : stated ≠ other) : Writes read (lettersOf pieces ++ ['\n']) [stated] := by
  refine Writes.single hspaced (fun hsymbols => hother ?_) hstated
  rw [hsymbols, hskips.symbols] at hstated
  exact (Option.some.inj hstated).symm

theorem Writes.ignored (hskips : SkipsOthers read other) {pieces : List Piece}
    (hspaced : WellSpaced pieces) (h : Ignored (tokensOf pieces)) :
    Writes read (lettersOf pieces ++ ['\n']) [other] :=
  Writes.single hspaced (fun hsymbols => h "NS_" (by decide) (by rw [hsymbols]; rfl))
    (hskips.ignored h)

theorem Writes.flatMap {A : Type} {items : List A} {write : A → List Char} {state : A → List S}
    (h : ∀ item ∈ items, Writes read (write item) (state item)) :
    Writes read (items.flatMap write) (items.flatMap state) := by
  induction items with
  | nil => exact .nil
  | cons item items ih =>
    obtain ⟨hitem, hitems⟩ := List.forall_mem_cons.mp h
    exact hitem.append (ih hitems)

theorem Writes.map {A : Type} {items : List A} {write : A → List Char} {state : A → S}
    (h : ∀ item ∈ items, Writes read (write item) [state item]) :
    Writes read (items.flatMap write) (items.map state) := by
  rw [← List.flatMap_pure_eq_map]
  exact Writes.flatMap h

/-- An empty line. -/
theorem Writes.blank (hskips : SkipsOthers read other) : Writes read ['\n'] [other] :=
  @Writes.ignored S read other hskips [] trivial (by decide)

/-- Lines the reader reads over. -/
theorem Writes.ignoredLines (hskips : SkipsOthers read other) {lines : List (List Piece)}
    (h : ∀ pieces ∈ lines, WellSpaced pieces ∧ Ignored (tokensOf pieces)) :
    Writes read (lettersOfLines lines) (lines.map fun _ => other) :=
  Writes.map fun pieces hmem => Writes.ignored hskips (h pieces hmem).1 (h pieces hmem).2

/-! ## Reading texts -/

/-- The lines outside the symbol list, each read. -/
def readLines (read : List Token → Option S) (text : String) : Option (List S) := do
  let lines ← lex text
  (withoutSymbols false lines).mapM read

theorem lettersOfLines_append (front back : List (List Piece)) :
    lettersOfLines (front ++ back) = lettersOfLines front ++ lettersOfLines back :=
  List.flatMap_append

theorem withoutSymbols_append {front : List (List Token)}
    (h : ∀ line ∈ front, line ≠ symbolsLine) (rest : List (List Token)) :
    withoutSymbols false (front ++ rest) = front ++ withoutSymbols false rest := by
  induction front with
  | nil => rfl
  | cons line front ih =>
    obtain ⟨hline, hfront⟩ := List.forall_mem_cons.mp h
    rw [List.cons_append, withoutSymbols, if_neg Bool.false_ne_true, if_neg hline, ih hfront]
    rfl

/-- The lines of a text that writes statements. -/
theorem Writes.lines (h : Writes read letters statements) : ∃ lines : List (List Piece),
    letters = lettersOfLines lines ∧ (∀ pieces ∈ lines, WellSpaced pieces) ∧
      (∀ line ∈ lines.map tokensOf, line ≠ symbolsLine) ∧
      (lines.map tokensOf).mapM read = some statements := by
  induction h with
  | nil => exact ⟨[], rfl, by simp, by simp, rfl⟩
  | @line pieces stated letters statements hspaced hsymbols hstated _ ih =>
    obtain ⟨lines, hletters, hall, hnone, hread⟩ := ih
    refine ⟨pieces :: lines, ?_, List.forall_mem_cons.mpr ⟨hspaced, hall⟩,
      List.forall_mem_cons.mpr ⟨hsymbols, hnone⟩, ?_⟩
    · rw [hletters, lettersOfLines, lettersOfLines, List.flatMap_cons, List.append_assoc]
      rfl
    · rw [List.map_cons, List.mapM_cons, hstated, hread]
      rfl

/-- The symbol list and the empty line after it. -/
def symbolPieces (symbols : List String) : List (List Piece) :=
  [.word "NS_", .gap, .mark ':'] :: (symbols.map fun symbol => [.tab, .word symbol]) ++ [[]]

theorem withoutSymbols_symbolPieces (symbols : List String) (rest : List (List Token)) :
    withoutSymbols false ((symbolPieces symbols).map tokensOf ++ rest) =
      withoutSymbols false rest := by
  have hinside : ∀ symbols : List String, withoutSymbols true
      ((symbols.map fun symbol => [Token.word symbol]) ++ [] :: rest) =
        withoutSymbols false rest := by
    intro symbols
    induction symbols with
    | nil => rfl
    | cons symbol symbols ih => exact ih
  have htokens : (symbolPieces symbols).map tokensOf ++ rest =
      symbolsLine :: ((symbols.map fun symbol => [Token.word symbol]) ++ [] :: rest) := by
    rw [symbolPieces, List.map_append, List.map_cons, List.map_map, List.append_assoc]
    rfl
  rw [htokens, withoutSymbols, if_neg Bool.false_ne_true, if_pos (by rfl), hinside]

theorem wellSpaced_symbolPieces {symbols : List String} (h : ∀ symbol ∈ symbols, IsWord symbol) :
    ∀ pieces ∈ symbolPieces symbols, WellSpaced pieces := by
  intro pieces hmem
  rcases List.mem_append.mp hmem with hmem | hmem
  · rcases List.mem_cons.mp hmem with rfl | hmem
    · exact ⟨by decide, rfl, rfl, trivial⟩
    · obtain ⟨symbol, hsymbol, rfl⟩ := List.mem_map.mp hmem
      exact ⟨h symbol hsymbol, rfl, trivial⟩
  · obtain rfl := List.mem_singleton.mp hmem
    trivial

/-- A text reads as its statements; those of the symbol list are left out. -/
theorem readLines_of_writes {text : String} {symbols : List String}
    (htext : text.toList = letters ++ (lettersOfLines (symbolPieces symbols) ++ letters'))
    (hfront : Writes read letters statements) (hbody : Writes read letters' statements')
    (hsymbols : ∀ symbol ∈ symbols, IsWord symbol) :
    readLines read text = some (statements ++ statements') := by
  obtain ⟨front, rfl, hfrontSpaced, hfrontLines, hfrontRead⟩ := hfront.lines
  obtain ⟨body, rfl, hbodySpaced, hbodyLines, hbodyRead⟩ := hbody.lines
  have hlex : lex text = some ((front ++ (symbolPieces symbols ++ body)).map tokensOf) := by
    refine lex_lines ?_ fun pieces hmem => ?_
    · rw [htext, lettersOfLines_append, lettersOfLines_append]
    · rcases List.mem_append.mp hmem with hmem | hmem
      · exact hfrontSpaced pieces hmem
      · rcases List.mem_append.mp hmem with hmem | hmem
        · exact wellSpaced_symbolPieces hsymbols pieces hmem
        · exact hbodySpaced pieces hmem
  have hbodyOnly : withoutSymbols false (body.map tokensOf) = body.map tokensOf := by
    have := withoutSymbols_append hbodyLines []
    rwa [List.append_nil, withoutSymbols, List.append_nil] at this
  have hlines : withoutSymbols false ((front ++ (symbolPieces symbols ++ body)).map tokensOf) =
      front.map tokensOf ++ body.map tokensOf := by
    rw [List.map_append, List.map_append, withoutSymbols_append hfrontLines,
      withoutSymbols_symbolPieces, hbodyOnly]
  rw [readLines, hlex]
  change (withoutSymbols false ((front ++ (symbolPieces symbols ++ body)).map tokensOf)).mapM
    read = _
  rw [hlines, List.mapM_append, hfrontRead, hbodyRead]
  rfl

end

/-! ## Statements -/

section
variable {D : Type} [CharsDouble D]

theorem skipsOthers_statement : SkipsOthers (@statement D _) .other where
  ignored {line} h := by
    unfold statement
    split
    case h_2 => rfl
    case h_1 keyword rest =>
      obtain ⟨hnodes, hmessage, hsignal, htransmitters, hvalues⟩ := h.keyword_ne
      rw [if_neg hnodes, if_neg hmessage, if_neg hsignal, if_neg htransmitters, if_neg hvalues]
  symbols := by simp [statement, symbolsLine]

theorem Writes.nodes {names : List String} (h : ∀ name ∈ names, IsWord name) :
    Writes (@statement D _) (lettersOf (nodePieces names) ++ ['\n']) [.nodes names] :=
  Writes.stated skipsOthers_statement (wellSpaced_nodePieces h) (statement_nodes names) (by simp)

theorem Writes.message {message : Message D} (hname : IsWord message.name)
    (h : ∀ name ∈ message.transmitters, IsWord name ∧ name ≠ noNode) :
    Writes statement (lettersOf (messagePieces message) ++ ['\n']) [.message message.bare] :=
  Writes.stated skipsOthers_statement
    (wellSpaced_messagePieces hname fun name hmem => (h name hmem).1)
    (statement_message message fun name hmem => (h name hmem).2) (by simp)

theorem Writes.signal [LawfulCharsDouble D] {signal : Signal D} (h : signal.Printable) :
    Writes statement (lettersOf (signalPieces signal) ++ ['\n']) [.signal signal.bare] :=
  Writes.stated skipsOthers_statement (wellSpaced_signalPieces h.spelled) (statement_signal h)
    (by simp)

theorem Writes.transmitters (id : Nat) {names : List String} (hne : names ≠ [])
    (h : ∀ name ∈ names, IsWord name ∧ name ≠ noNode) :
    Writes (@statement D _) (lettersOf (transmitterPieces id names) ++ ['\n'])
      [.transmitters id names] :=
  Writes.stated skipsOthers_statement
    (wellSpaced_transmitterPieces id fun name hmem => (h name hmem).1)
    (statement_transmitters id hne fun name hmem => (h name hmem).2) (by simp)

theorem Writes.values (id : Nat) {signal : String} (hname : IsWord signal)
    (table : List (Int × String)) : Writes (@statement D _)
      (lettersOf (valuePieces id signal table) ++ ['\n']) [.values id signal table] :=
  Writes.stated skipsOthers_statement (wellSpaced_valuePieces id hname table)
    (statement_values id signal table) (by simp)

/-- The database of a text is that of its statements. -/
theorem read_of_lines {text : String} {statements : List (Statement D)}
    (h : readLines statement text = some statements) :
    read text = statements.foldlM execute {} := by
  unfold readLines at h
  unfold read
  cases hlex : lex text with
  | none =>
    rw [hlex] at h
    cases h
  | some lines =>
    rw [hlex] at h
    change (withoutSymbols false lines).mapM statement >>= _ = _
    rw [show (withoutSymbols false lines).mapM statement = some statements from h]
    rfl

end

/-! ## The statements of a database -/

section
variable {D : Type}

/-- A message and its signals. -/
def Message.statements (message : Message D) : List (Statement D) :=
  .message message.bare :: (message.signals.map fun signal => .signal signal.bare) ++ [.other]

def Message.transmitterStatements (message : Message D) : List (Statement D) :=
  if 1 < message.transmitters.length then [.transmitters message.id message.transmitters] else []

def Message.valueStatements (message : Message D) : List (Statement D) :=
  message.signals.flatMap fun signal =>
    if signal.valueTable = [] then [] else [.values message.id signal.name signal.valueTable]

/-- The message that its own statements give. -/
def Message.opened (message : Message D) : Message D := { message with
  transmitters := message.transmitters.take 1
  signals := message.signals.map Signal.bare }

/-- The message before its value tables. -/
def Message.untabled (message : Message D) : Message D := { message with
  signals := message.signals.map Signal.bare }

theorem foldlM_signals (nodes : List String) (messages : List (Message D))
    (signals : List (Signal D)) : ∀ message : Message D,
    (signals.map fun signal => Statement.signal signal.bare).foldlM execute
      ⟨nodes, messages ++ [message]⟩ = some ⟨nodes, messages ++ [{ message with
        signals := message.signals ++ signals.map Signal.bare }]⟩ := by
  induction signals with
  | nil => intro message; simp
  | cons signal signals ih =>
    intro message
    have hstep : execute ⟨nodes, messages ++ [message]⟩ (.signal signal.bare) =
        some ⟨nodes, messages ++ [{ message with
          signals := message.signals ++ [signal.bare] }]⟩ := by
      rw [execute, if_neg (by simp), List.modifyLast_concat]
    rw [List.map_cons, List.foldlM_cons, hstep]
    simp [ih]

theorem foldlM_message (nodes : List String) (messages : List (Message D)) (message : Message D) :
    message.statements.foldlM execute ⟨nodes, messages⟩ =
      some ⟨nodes, messages ++ [message.opened]⟩ := by
  have hfirst : execute ⟨nodes, messages⟩ (.message message.bare) =
      some ⟨nodes, messages ++ [message.bare]⟩ := rfl
  rw [Message.statements, List.cons_append, List.foldlM_cons, hfirst]
  change ((message.signals.map fun signal => Statement.signal (Signal.bare signal)) ++
    [Statement.other]).foldlM execute ⟨nodes, messages ++ [message.bare]⟩ = _
  rw [List.foldlM_append, foldlM_signals]
  rfl

theorem foldlM_messages (nodes : List String) (todo : List (Message D)) :
    ∀ done : List (Message D), (todo.flatMap Message.statements).foldlM execute ⟨nodes, done⟩ =
      some ⟨nodes, done ++ todo.map Message.opened⟩ := by
  induction todo with
  | nil => intro done; simp
  | cons message todo ih =>
    intro done
    rw [List.flatMap_cons, List.foldlM_append, foldlM_message]
    change (todo.flatMap Message.statements).foldlM execute ⟨nodes, done ++ [message.opened]⟩ = _
    rw [ih, List.append_assoc]
    rfl

/-! ## Later statements -/

/-- Only the entry with the key changes. -/
theorem updateAt_middle {A K : Type} [DecidableEq K] {key : A → K} {k : K} (change : A → A)
    {front back : List A} {entry : A} (hentry : key entry = k)
    (h : ∀ other ∈ front ++ back, key other ≠ k) :
    updateAt key k change (front ++ entry :: back) = front ++ change entry :: back := by
  have hsame (others : List A) (hothers : ∀ other ∈ others, key other ≠ k) :
      updateAt key k change others = others :=
    (List.map_congr_left fun other hother => if_neg (hothers other hother)).trans (List.map_id _)
  obtain ⟨hfront, hback⟩ := List.forall_mem_append.mp h
  show List.map _ _ = _
  rw [List.map_append, List.map_cons, if_pos hentry]
  exact congrArg₂ (· ++ change entry :: ·) (hsame front hfront) (hsame back hback)

/-- The other keys in a list without repetition. -/
theorem ne_of_nodup {A K : Type} {key : A → K} {front back : List A} {entry : A}
    (h : ((front ++ entry :: back).map key).Nodup) :
    ∀ other ∈ front ++ back, key other ≠ key entry := by
  rw [List.map_append, List.map_cons, List.perm_middle.nodup_iff, List.nodup_cons,
    ← List.map_append] at h
  exact fun other hother heq => h.1 (heq ▸ List.mem_map_of_mem hother)

/-- Statements about one message after the other. -/
theorem foldlM_updates (nodes : List String) {state : Message D → List (Statement D)}
    {before after : Message D → Message D} (hbefore : ∀ message, (before message).id = message.id)
    (hafter : ∀ message, (after message).id = message.id) (todo : List (Message D))
    (hstep : ∀ message ∈ todo, ∀ front back, (∀ other ∈ front ++ back, other.id ≠ message.id) →
      (state message).foldlM execute ⟨nodes, front ++ before message :: back⟩ =
        some ⟨nodes, front ++ after message :: back⟩) :
    ∀ done : List (Message D), ((done ++ todo).map Message.id).Nodup →
      (todo.flatMap state).foldlM execute ⟨nodes, done.map after ++ todo.map before⟩ =
        some ⟨nodes, (done ++ todo).map after⟩ := by
  induction todo with
  | nil => intro done _; simp
  | cons message todo ih =>
    intro done hnodup
    obtain ⟨hmessage, htodo⟩ := List.forall_mem_cons.mp hstep
    have hothers : ∀ other ∈ done.map after ++ todo.map before, other.id ≠ message.id := by
      intro other hother
      rcases List.mem_append.mp hother with hother | hother
      · obtain ⟨m, hm, rfl⟩ := List.mem_map.mp hother
        rw [hafter]
        exact ne_of_nodup hnodup m (List.mem_append_left _ hm)
      · obtain ⟨m, hm, rfl⟩ := List.mem_map.mp hother
        rw [hbefore]
        exact ne_of_nodup hnodup m (List.mem_append_right _ hm)
    have hdone : done.map after ++ after message :: todo.map before =
        (done ++ [message]).map after ++ todo.map before := by simp
    have hsplit : done ++ message :: todo = (done ++ [message]) ++ todo := by simp
    rw [List.flatMap_cons, List.foldlM_append, List.map_cons, hmessage _ _ hothers, hdone, hsplit]
    exact ih htodo (done ++ [message]) (hsplit ▸ hnodup)

theorem foldlM_transmitters (nodes : List String) (message : Message D)
    {front back : List (Message D)} (h : ∀ other ∈ front ++ back, other.id ≠ message.id) :
    message.transmitterStatements.foldlM execute ⟨nodes, front ++ message.opened :: back⟩ =
      some ⟨nodes, front ++ message.untabled :: back⟩ := by
  unfold Message.transmitterStatements
  split
  case isTrue =>
    have hstep : execute ⟨nodes, front ++ message.opened :: back⟩
        (.transmitters message.id message.transmitters) =
          some ⟨nodes, front ++ message.untabled :: back⟩ := by
      have hid : message.opened.id = message.id := rfl
      rw [execute, updateAt_middle _ hid h]
      rfl
    rw [List.foldlM_cons, hstep]
    rfl
  case isFalse hlength =>
    have hopened : message.opened = message.untabled := by
      rw [Message.opened, List.take_of_length_le (Nat.le_of_not_lt hlength)]
      rfl
    rw [hopened]
    rfl

theorem foldlM_values (nodes : List String) (message : Message D) {front back : List (Message D)}
    (h : ∀ other ∈ front ++ back, other.id ≠ message.id) (todo : List (Signal D)) :
    ∀ done : List (Signal D), ((done ++ todo).map Signal.name).Nodup →
      (todo.flatMap fun signal => if signal.valueTable = [] then []
        else [Statement.values message.id signal.name signal.valueTable]).foldlM execute
          ⟨nodes, front ++ { message with
            signals := done ++ todo.map Signal.bare } :: back⟩ =
        some ⟨nodes, front ++ { message with
          signals := done ++ todo } :: back⟩ := by
  induction todo with
  | nil => intro done _; simp
  | cons signal todo ih =>
    intro done hnodup
    have hothers : ∀ other ∈ done ++ todo.map Signal.bare, other.name ≠ signal.name := by
      intro other hother
      rcases List.mem_append.mp hother with hother | hother
      · exact ne_of_nodup hnodup other (List.mem_append_left _ hother)
      · obtain ⟨held, hheld, rfl⟩ := List.mem_map.mp hother
        exact ne_of_nodup hnodup held (List.mem_append_right _ hheld)
    have hstep : (if signal.valueTable = [] then []
        else [Statement.values message.id signal.name signal.valueTable]).foldlM execute
          ⟨nodes, front ++ { message with
            signals := done ++ signal.bare :: todo.map Signal.bare } :: back⟩ =
        some ⟨nodes, front ++ { message with
          signals := (done ++ [signal]) ++ todo.map Signal.bare } :: back⟩ := by
      split
      case isTrue hempty =>
        have hbare : signal.bare = signal := by
          rw [Signal.bare, ← hempty]
        rw [hbare, List.append_assoc]
        rfl
      case isFalse =>
        have hname : signal.bare.name = signal.name := rfl
        have hid : ({ message with
            signals := done ++ signal.bare :: todo.map Signal.bare } : Message D).id =
          message.id := rfl
        rw [List.foldlM_cons, execute, updateAt_middle _ hid h, updateAt_middle _ hname hothers,
          List.append_assoc]
        rfl
    have hsplit : done ++ signal :: todo = (done ++ [signal]) ++ todo := by simp
    rw [List.flatMap_cons, List.foldlM_append, List.map_cons, hstep, hsplit]
    exact ih (done ++ [signal]) (hsplit ▸ hnodup)

/-! ## The whole database -/

/-- The statements of a database, an empty line after the nodes; `attributes`
stand between the transmitters and the value tables. -/
def Database.statements (database : Database D) (attributes : List (Statement D)) :
    List (Statement D) :=
  .nodes database.nodes :: .other :: database.messages.flatMap Message.statements ++
    database.messages.flatMap Message.transmitterStatements ++ attributes ++
    database.messages.flatMap Message.valueStatements

/-- Messages, and signals of a message, can be told apart. -/
structure Database.Distinct (database : Database D) : Prop where
  ids : (database.messages.map Message.id).Nodup
  names : ∀ message ∈ database.messages, (message.signals.map Signal.name).Nodup

theorem foldlM_other (database : Database D) {attributes : List (Statement D)}
    (h : ∀ skipped ∈ attributes, skipped = .other) :
    attributes.foldlM execute database = some database := by
  induction attributes with
  | nil => rfl
  | cons skipped attributes ih =>
    obtain ⟨rfl, hrest⟩ := List.forall_mem_cons.mp h
    exact ih hrest

theorem foldlM_skip (database : Database D) {others rest : List (Statement D)}
    (h : ∀ skipped ∈ others, skipped = .other) :
    (others ++ rest).foldlM execute database = rest.foldlM execute database := by
  rw [List.foldlM_append, foldlM_other database h]
  rfl

/-- The statements of a database give it back. -/
theorem foldlM_statements {database : Database D} (h : database.Distinct)
    {attributes : List (Statement D)} (hattributes : ∀ skipped ∈ attributes, skipped = .other) :
    (database.statements attributes).foldlM execute {} = some database := by
  obtain ⟨nodes, messages⟩ := database
  have hnodes : execute {} (.nodes nodes : Statement D) = some ⟨nodes, []⟩ := rfl
  have hblank : execute ⟨nodes, []⟩ (.other : Statement D) = some ⟨nodes, []⟩ := rfl
  have hopen := foldlM_messages nodes messages []
  have htransmitters := @foldlM_updates D nodes _ Message.opened Message.untabled (fun _ => rfl)
    (fun _ => rfl) messages (fun message _ _ _ => foldlM_transmitters nodes message) [] h.ids
  have hvalues := @foldlM_updates D nodes Message.valueStatements Message.untabled id
    (fun _ => rfl) (fun _ => rfl) messages (fun message hmem _ _ hothers =>
      foldlM_values nodes message hothers message.signals [] (h.names message hmem)) [] h.ids
  rw [List.map_nil, List.nil_append] at htransmitters hvalues
  rw [Database.statements, List.foldlM_append, List.foldlM_append, List.foldlM_append]
  simp only [List.foldlM_cons, hnodes, Option.bind_eq_bind, Option.bind_some, hblank, hopen,
    List.nil_append, htransmitters,
    foldlM_other _ hattributes, hvalues, List.map_id]

end

end ParseX.Dbc

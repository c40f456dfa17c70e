import ParseX.Base.DbcText

/-! # The names of a DBC text

The names that a text gives to nodes, messages and signals, and those it refers
to them by. Numbers, units and labels are read over. -/
namespace ParseX.Dbc
open Cpp

/-- The names of a line. -/
inductive NamedLine where
  | nodes (names : List String)
  | message (id : Nat) (name transmitter : String)
  /-- A signal of the message before. -/
  | signal (name : String) (receivers : List String)
  | transmitters (id : Nat) (names : List String)
  | values (id : Nat) (signal : String)
  | other
  deriving DecidableEq, Repr

/-! ## Reading lines -/

/-- The tokens to the first string literal, read over. -/
def afterText : TokenReader Unit
  | .text _ :: rest => some ((), rest)
  | _ :: rest => afterText rest
  | [] => none

def namedNodes : TokenReader NamedLine := do
  mark ':'
  let names ← words
  pure (.nodes names)

def namedMessage : TokenReader NamedLine := do
  let id ← wordAs readNat
  let name ← word
  mark ':'
  let _length ← word
  let transmitter ← word
  pure (.message id name transmitter)

def namedSignal : TokenReader NamedLine := do
  let name ← word
  afterText
  let receivers ← commaWords
  pure (.signal name receivers)

def namedTransmitters : TokenReader NamedLine := do
  let id ← wordAs readNat
  mark ':'
  let names ← commaWords
  pure (.transmitters id names)

def namedValues : TokenReader NamedLine := do
  let id ← wordAs readNat
  let signal ← word
  pure (.values id signal)

/-- The keyword decides which names the line has. -/
def namedLine : List Token → Option NamedLine
  | .word keyword :: rest =>
    if keyword = "BU_" then (namedNodes rest).map Prod.fst
    else if keyword = "BO_" then (namedMessage rest).map Prod.fst
    else if keyword = "SG_" then (namedSignal rest).map Prod.fst
    else if keyword = "BO_TX_BU_" then (namedTransmitters rest).map Prod.fst
    else if keyword = "VAL_" then (namedValues rest).map Prod.fst
    else some .other
  | _ => some .other

/-! ## Reading files -/

structure NamedSignal where
  name : String
  receivers : List String
  deriving DecidableEq, Repr

structure NamedMessage where
  id : Nat
  name : String
  transmitter : String
  signals : List NamedSignal := []
  deriving DecidableEq, Repr

/-- The names of a text, section by section. -/
structure Names where
  nodes : List String := []
  messages : List NamedMessage := []
  /-- The message id and the nodes of each transmitter line. -/
  transmitters : List (Nat × List String) := []
  /-- The message id and the signal of each value line. -/
  values : List (Nat × String) := []
  deriving DecidableEq, Repr

/-- The names with those of a line; a signal needs a message before it. -/
def Names.add (names : Names) : NamedLine → Option Names
  | .nodes nodes => some { names with
      nodes := nodes }
  | .message id name transmitter => some { names with
      messages := names.messages ++ [⟨id, name, transmitter, []⟩] }
  | .signal name receivers =>
    if names.messages = [] then none
    else some { names with
      messages := names.messages.modifyLast fun message => { message with
        signals := message.signals ++ [⟨name, receivers⟩] } }
  | .transmitters id nodes => some { names with
      transmitters := names.transmitters ++ [(id, nodes)] }
  | .values id signal => some { names with
      values := names.values ++ [(id, signal)] }
  | .other => some names

def readNames (text : String) : Option Names := do
  let lines ← readLines namedLine text
  lines.foldlM Names.add {}

/-! ## What names are good for -/

/-- No two objects of a section have one name. -/
structure Names.Distinct (names : Names) : Prop where
  nodes : names.nodes.Nodup
  messages : (names.messages.map NamedMessage.name).Nodup
  signals : ∀ message ∈ names.messages, (message.signals.map NamedSignal.name).Nodup

/-- A line that names a node names exactly one of the node list. -/
structure Names.NodesResolved (names : Names) : Prop where
  transmitter : ∀ message ∈ names.messages,
    message.transmitter = noNode ∨ names.nodes.count message.transmitter = 1
  receivers : ∀ message ∈ names.messages, ∀ signal ∈ message.signals, ∀ node ∈ signal.receivers,
    node = noNode ∨ names.nodes.count node = 1
  transmitters : ∀ line ∈ names.transmitters, ∀ node ∈ line.2, names.nodes.count node = 1

/-- The messages with an id. -/
def Names.messagesOf (names : Names) (id : Nat) : List NamedMessage :=
  names.messages.filter fun message => message.id = id

/-- A line with an id is about exactly one message, and a value line about
exactly one signal of it. -/
structure Names.MessagesResolved (names : Names) : Prop where
  transmitters : ∀ line ∈ names.transmitters, ∃ message, names.messagesOf line.1 = [message]
  values : ∀ line ∈ names.values, ∃ message, names.messagesOf line.1 = [message] ∧
    (message.signals.map NamedSignal.name).count line.2 = 1

/-! ## Lines that write names -/

theorem namedLine_nodes (names : List String) :
    namedLine (tokensOf (nodePieces names)) = some (.nodes names) := by
  have htokens : tokensOf (nodePieces names) = .word "BU_" :: .mark ':' ::
      tokensOf (names.flatMap fun name => [.gap, .word name]) := tokensOf_append _ _
  rw [htokens, namedLine, if_pos rfl, namedNodes, mark_bind, bind_of_eq (words_nodes names)]
  rfl

theorem namedLine_message {D : Type} (message : Message D) :
    namedLine (tokensOf (messagePieces message)) =
      some (.message message.id message.name (message.transmitters.headD noNode)) := by
  have htokens : tokensOf (messagePieces message) = [.word "BO_", .word (toString message.id),
      .word message.name, .mark ':', .word (toString message.length),
      .word (message.transmitters.headD noNode)] := rfl
  rw [htokens, namedLine, if_neg (by decide), if_pos rfl, namedMessage,
    wordAs_bind (readNat_toString _), word_bind, mark_bind, word_bind, word_bind]
  rfl

theorem namedLine_signal {D : Type} [CharsDouble D] (signal : Signal D) :
    namedLine (tokensOf (signalPieces signal)) =
      some (.signal signal.name (orNoNode signal.receivers)) := by
  obtain ⟨rest, htokens, hafter⟩ : ∃ rest, tokensOf (signalPieces signal) =
      .word "SG_" :: .word signal.name :: rest ∧
        afterText rest = some ((), tokensOf (commaPieces (orNoNode signal.receivers))) :=
    ⟨_, rfl, rfl⟩
  have hcomma : commaWords (tokensOf (commaPieces (orNoNode signal.receivers))) =
      some (orNoNode signal.receivers, []) := by
    rw [← List.append_nil (tokensOf _), commaWords_commaPieces (orNoNode_ne_nil _) (by simp)]
  rw [htokens, namedLine, if_neg (by decide), if_neg (by decide), if_pos rfl, namedSignal,
    word_bind, bind_of_eq hafter, bind_of_eq hcomma]
  rfl

theorem namedLine_transmitters (id : Nat) {names : List String} (hne : names ≠ []) :
    namedLine (tokensOf (transmitterPieces id names)) = some (.transmitters id names) := by
  have htokens : tokensOf (transmitterPieces id names) = .word "BO_TX_BU_" ::
      .word (toString id) :: .mark ':' :: (tokensOf (commaPieces names) ++ [.mark ';']) := by
    rw [transmitterPieces, List.append_assoc, tokensOf_append, tokensOf_append]
    rfl
  have hcomma : commaWords (tokensOf (commaPieces names) ++ [.mark ';']) =
      some (names, [.mark ';']) := commaWords_commaPieces hne (by simp)
  rw [htokens, namedLine, if_neg (by decide), if_neg (by decide), if_neg (by decide), if_pos rfl,
    namedTransmitters, wordAs_bind (readNat_toString _), mark_bind, bind_of_eq hcomma]
  rfl

theorem namedLine_values (id : Nat) (signal : String) (table : List (Int × String)) :
    namedLine (tokensOf (valuePieces id signal table)) = some (.values id signal) := by
  obtain ⟨rest, htokens⟩ : ∃ rest, tokensOf (valuePieces id signal table) =
      .word "VAL_" :: .word (toString id) :: .word signal :: rest := by
    rw [valuePieces, List.append_assoc, tokensOf_append]
    exact ⟨_, rfl⟩
  rw [htokens, namedLine, if_neg (by decide), if_neg (by decide), if_neg (by decide),
    if_neg (by decide), if_pos rfl, namedValues, wordAs_bind (readNat_toString _), word_bind]
  rfl

theorem skipsOthers_namedLine : SkipsOthers namedLine .other where
  ignored {line} h := by
    unfold namedLine
    split
    case h_2 => rfl
    case h_1 keyword rest =>
      obtain ⟨hnodes, hmessage, hsignal, htransmitters, hvalues⟩ := h.keyword_ne
      rw [if_neg hnodes, if_neg hmessage, if_neg hsignal, if_neg htransmitters, if_neg hvalues]
  symbols := by simp [namedLine, symbolsLine]

/-! ## Names and their lines -/

def NamedSignal.line (signal : NamedSignal) : NamedLine := .signal signal.name signal.receivers

/-- A message, its signals and an empty line. -/
def NamedMessage.lines (message : NamedMessage) : List NamedLine :=
  .message message.id message.name message.transmitter :: message.signals.map NamedSignal.line ++
    [.other]

theorem foldlM_namedSignals (signals : List NamedSignal) (names : Names) :
    ∀ (messages : List NamedMessage) (message : NamedMessage),
      (signals.map NamedSignal.line).foldlM Names.add { names with
        messages := messages ++ [message] } = some { names with
        messages := messages ++ [{ message with
          signals := message.signals ++ signals }] } := by
  induction signals with
  | nil => intro messages message; simp
  | cons signal signals ih =>
    intro messages message
    have hstep : Names.add { names with
        messages := messages ++ [message] } signal.line = some { names with
        messages := messages ++ [{ message with
          signals := message.signals ++ [signal] }] } := by
      rw [NamedSignal.line, Names.add, if_neg (by simp), List.modifyLast_concat]
    rw [List.map_cons, List.foldlM_cons, hstep]
    simp [ih]

theorem foldlM_namedMessages (todo : List NamedMessage) (names : Names) :
    ∀ messages : List NamedMessage, (todo.flatMap NamedMessage.lines).foldlM Names.add { names with
      messages := messages } = some { names with
      messages := messages ++ todo } := by
  induction todo with
  | nil => intro messages; simp
  | cons message todo ih =>
    intro messages
    have hmessage : message.lines.foldlM Names.add { names with
        messages := messages } = some { names with
        messages := messages ++ [message] } := by
      rw [NamedMessage.lines, List.foldlM_append, List.foldlM_cons]
      change ((message.signals.map NamedSignal.line).foldlM Names.add { names with
        messages := messages ++ [⟨message.id, message.name, message.transmitter, []⟩] }) >>= _ = _
      rw [foldlM_namedSignals]
      rfl
    rw [List.flatMap_cons, List.foldlM_append, hmessage]
    change (todo.flatMap NamedMessage.lines).foldlM Names.add { names with
      messages := messages ++ [message] } = _
    rw [ih, List.append_assoc]
    rfl

theorem foldlM_namedTransmitters (todo : List (Nat × List String)) (names : Names) :
    ∀ done : List (Nat × List String),
      (todo.map fun line => NamedLine.transmitters line.1 line.2).foldlM Names.add { names with
        transmitters := done } = some { names with
        transmitters := done ++ todo } := by
  induction todo with
  | nil => intro done; simp
  | cons line todo ih =>
    intro done
    rw [List.map_cons, List.foldlM_cons]
    change ((todo.map fun line => NamedLine.transmitters line.1 line.2).foldlM Names.add { names with
      transmitters := done ++ [line] }) = _
    rw [ih, List.append_assoc]
    rfl

theorem foldlM_namedValues (todo : List (Nat × String)) (names : Names) :
    ∀ done : List (Nat × String),
      (todo.map fun line => NamedLine.values line.1 line.2).foldlM Names.add { names with
        values := done } = some { names with
        values := done ++ todo } := by
  induction todo with
  | nil => intro done; simp
  | cons line todo ih =>
    intro done
    rw [List.map_cons, List.foldlM_cons]
    change ((todo.map fun line => NamedLine.values line.1 line.2).foldlM Names.add { names with
      values := done ++ [line] }) = _
    rw [ih, List.append_assoc]
    rfl

theorem foldlM_otherLines (names : Names) {others : List NamedLine}
    (h : ∀ skipped ∈ others, skipped = .other) : others.foldlM Names.add names = some names := by
  induction others with
  | nil => rfl
  | cons skipped others ih =>
    obtain ⟨rfl, hrest⟩ := List.forall_mem_cons.mp h
    exact ih hrest

/-- The lines of names, an empty line after the nodes; `others` stand between the
transmitters and the value lines. -/
def Names.lines (names : Names) (others : List NamedLine) : List NamedLine :=
  .nodes names.nodes :: .other :: names.messages.flatMap NamedMessage.lines ++
    (names.transmitters.map fun line => .transmitters line.1 line.2) ++ others ++
    names.values.map fun line => .values line.1 line.2

/-- The lines of names give them back, whatever skipped lines stand in front. -/
theorem foldlM_names (names : Names) {front others : List NamedLine}
    (hfront : ∀ skipped ∈ front, skipped = .other) (hothers : ∀ skipped ∈ others, skipped = .other) :
    (front ++ names.lines others).foldlM Names.add {} = some names := by
  obtain ⟨nodes, messages, transmitters, values⟩ := names
  have hmessages := foldlM_namedMessages messages { nodes := nodes } []
  have htransmitters := foldlM_namedTransmitters transmitters
    { nodes := nodes, messages := messages } []
  have hvalues := foldlM_namedValues values
    { nodes := nodes, messages := messages, transmitters := transmitters } []
  rw [List.nil_append] at hmessages htransmitters hvalues
  have hnodes : Names.add {} (.nodes nodes) = some { nodes := nodes } := rfl
  have hblank : Names.add { nodes := nodes } .other = some { nodes := nodes } := rfl
  rw [List.foldlM_append, foldlM_otherLines _ hfront, Names.lines]
  simp only [List.foldlM_append, List.foldlM_cons, List.cons_append, hnodes, hblank,
    Option.bind_eq_bind, Option.bind_some, hmessages, htransmitters, foldlM_otherLines _ hothers,
    hvalues]

end ParseX.Dbc

import ParseX.Base.DbcTokens
import ParseX.Cpp.ToChars
import Mathlib.Data.List.ModifyLast

/-! # A reader of DBC texts

The network, message, signal, transmitter and value lines of a DBC file, as a
database. Lines with another keyword are read over. -/
namespace ParseX.Dbc
open Cpp

/-- The name that stands for no node. -/
def noNode : String := "Vector__XXX"

section
variable (D : Type)

structure Signal where
  name : String
  startBit : Nat
  bitLength : Nat
  littleEndian : Bool
  isSigned : Bool
  factor : D
  offset : D
  min : D
  max : D
  unit : String
  receivers : List String
  valueTable : List (Int × String) := []
  deriving DecidableEq, Repr

structure Message where
  id : Nat
  name : String
  length : Nat
  transmitters : List String
  signals : List (Signal D) := []
  deriving DecidableEq, Repr

structure Database where
  nodes : List String := []
  messages : List (Message D) := []
  deriving DecidableEq, Repr

/-- What a line states. -/
inductive Statement where
  | nodes (names : List String)
  | message (message : Message D)
  /-- A signal of the message before. -/
  | signal (signal : Signal D)
  | transmitters (id : Nat) (names : List String)
  | values (id : Nat) (signal : String) (table : List (Int × String))
  | other
  deriving DecidableEq, Repr

end

/-! ## Reading tokens -/

abbrev TokenReader := StateT (List Token) Option

def word : TokenReader String
  | .word letters :: rest => some (letters, rest)
  | _ => none

def text : TokenReader String
  | .text content :: rest => some (content, rest)
  | _ => none

def mark (symbol : Char) : TokenReader Unit
  | .mark c :: rest => if c = symbol then some ((), rest) else none
  | _ => none

/-- A value from a word, when it has one. -/
def wordAs {A : Type} (read : String → Option A) : TokenReader A
  | .word letters :: rest => (read letters).map fun value => (value, rest)
  | _ => none

/-- Words to the end of the line. -/
def words : TokenReader (List String)
  | .word letters :: rest => (words rest).map fun out => (letters :: out.1, out.2)
  | rest => some ([], rest)

/-- Words with commas between them. -/
def commaWords : TokenReader (List String)
  | .word letters :: .mark c :: rest =>
    if c = ',' then (commaWords rest).map fun out => (letters :: out.1, out.2)
    else some ([letters], .mark c :: rest)
  | .word letters :: rest => some ([letters], rest)
  | _ => none

def readNat (letters : String) : Option Nat :=
  match readLiteral 10 letters.toList with
  | some number =>
    if number.used = letters.length ∧ number.negative = false then some number.magnitude else none
  | none => none

def readInt (letters : String) : Option Int :=
  match readLiteral 10 letters.toList with
  | some number =>
    if number.used = letters.length then
      some (if number.negative then -(number.magnitude : Int) else number.magnitude)
    else none
  | none => none

/-- A number and its label, as often as they follow. -/
def valueEntries : TokenReader (List (Int × String))
  | .word letters :: .text label :: rest =>
    match readInt letters, valueEntries rest with
    | some value, some (entries, rest) => some ((value, label) :: entries, rest)
    | _, _ => none
  | rest => some ([], rest)

/-- Little endian with 1, signed with a minus. -/
def readOrder (letters : String) : Option (Bool × Bool) :=
  if letters = "1+" then some (true, false)
  else if letters = "1-" then some (true, true)
  else if letters = "0+" then some (false, false)
  else if letters = "0-" then some (false, true)
  else none

section
variable {A B : Type} {rest : List Token}

@[simp] theorem word_bind (letters : String) (next : String → TokenReader B) :
    (word >>= next) (.word letters :: rest) = next letters rest := rfl

@[simp] theorem text_bind (content : String) (next : String → TokenReader B) :
    (text >>= next) (.text content :: rest) = next content rest := rfl

@[simp] theorem mark_bind (symbol : Char) (next : Unit → TokenReader B) :
    (mark symbol >>= next) (.mark symbol :: rest) = next () rest := by
  have hmark : mark symbol (.mark symbol :: rest) = some ((), rest) := if_pos rfl
  change (mark symbol (.mark symbol :: rest) >>= fun out => next out.1 out.2) = _
  rw [hmark]
  rfl

theorem wordAs_bind {read : String → Option A} {letters : String} {value : A}
    (h : read letters = some value) (next : A → TokenReader B) :
    (wordAs read >>= next) (.word letters :: rest) = next value rest := by
  change ((read letters).map (fun value => (value, rest)) >>= fun out => next out.1 out.2) = _
  rw [h]
  rfl

/-- A reader whose result on the tokens is known. -/
theorem bind_of_eq {reader : TokenReader A} {tokens : List Token} {value : A}
    (h : reader tokens = some (value, rest)) (next : A → TokenReader B) :
    (reader >>= next) tokens = next value rest := by
  change (reader tokens >>= fun out => next out.1 out.2) = _
  rw [h]
  rfl

end

/-- The nodes a list names. -/
def nodesOf (names : List String) : List String := names.filter (· ≠ noNode)

/-! ## Reading lines -/

section
variable {D : Type}

def nodesLine : TokenReader (Statement D) := do
  mark ':'
  let names ← words
  pure (.nodes names)

def messageLine : TokenReader (Statement D) := do
  let id ← wordAs readNat
  let name ← word
  mark ':'
  let length ← wordAs readNat
  let transmitter ← word
  pure (.message ⟨id, name, length, nodesOf [transmitter], []⟩)

def transmittersLine : TokenReader (Statement D) := do
  let id ← wordAs readNat
  mark ':'
  let names ← commaWords
  mark ';'
  pure (.transmitters id (nodesOf names))

def valuesLine : TokenReader (Statement D) := do
  let id ← wordAs readNat
  let signal ← word
  let table ← valueEntries
  mark ';'
  pure (.values id signal table)

/-- The whole line must be read. -/
def whole (reader : TokenReader (Statement D)) (tokens : List Token) : Option (Statement D) :=
  match reader tokens with
  | some (statement, []) => some statement
  | _ => none

theorem whole_of_eq {reader : TokenReader (Statement D)} {tokens : List Token}
    {statement : Statement D} (h : reader tokens = some (statement, [])) :
    whole reader tokens = some statement := by
  rw [whole, h]

variable [CharsDouble D]

def signalLine : TokenReader (Statement D) := do
  let name ← word
  mark ':'
  let startBit ← wordAs readNat
  mark '|'
  let bitLength ← wordAs readNat
  mark '@'
  let order ← wordAs readOrder
  mark '('
  let factor ← wordAs CharsDouble.fromChars
  mark ','
  let offset ← wordAs CharsDouble.fromChars
  mark ')'
  mark '['
  let min ← wordAs CharsDouble.fromChars
  mark '|'
  let max ← wordAs CharsDouble.fromChars
  mark ']'
  let unit ← text
  let receivers ← commaWords
  pure (.signal ⟨name, startBit, bitLength, order.1, order.2, factor, offset, min, max, unit,
    nodesOf receivers, []⟩)

/-- The keyword decides how the rest of the line is read. -/
def statement : List Token → Option (Statement D)
  | .word keyword :: rest =>
    if keyword = "BU_" then whole nodesLine rest
    else if keyword = "BO_" then whole messageLine rest
    else if keyword = "SG_" then whole signalLine rest
    else if keyword = "BO_TX_BU_" then whole transmittersLine rest
    else if keyword = "VAL_" then whole valuesLine rest
    else some .other
  | _ => some .other

/-! ## Reading files -/

/-- The entries with the key, changed. -/
def updateAt {A K : Type} [DecidableEq K] (key : A → K) (k : K) (change : A → A)
    (entries : List A) : List A :=
  entries.map fun entry => if key entry = k then change entry else entry

omit [CharsDouble D] in
/-- The database with a statement; a signal needs a message before it. -/
def execute (database : Database D) : Statement D → Option (Database D)
  | .nodes names => some { database with
      nodes := names }
  | .message message => some { database with
      messages := database.messages ++ [message] }
  | .signal signal =>
    if database.messages = [] then none
    else some { database with
      messages := database.messages.modifyLast fun message => { message with
        signals := message.signals ++ [signal] } }
  | .transmitters id names => some { database with
      messages := updateAt Message.id id (fun message => { message with
        transmitters := names }) database.messages }
  | .values id signal table => some { database with
      messages := updateAt Message.id id (fun message => { message with
        signals := updateAt Signal.name signal (fun held => { held with
          valueTable := table }) message.signals }) database.messages }
  | .other => some database

/-- The line that starts the symbol list. -/
def symbolsLine : List Token := [.word "NS_", .mark ':']

/-- The lines without the symbol list, which an empty line ends. -/
def withoutSymbols (inSymbols : Bool) : List (List Token) → List (List Token)
  | [] => []
  | line :: rest =>
    if inSymbols then withoutSymbols (line ≠ []) rest
    else if line = symbolsLine then withoutSymbols true rest
    else line :: withoutSymbols false rest

/-- The database of a DBC text. -/
def read (text : String) : Option (Database D) := do
  let lines ← lex text
  let statements ← (withoutSymbols false lines).mapM statement
  statements.foldlM execute {}

end

end ParseX.Dbc

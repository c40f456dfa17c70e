import ParseX.Base.DbcReader

/-! # Lines of a DBC text

How the statements of a database are written, and that the reader finds them
again. -/
namespace ParseX.Dbc
open Cpp

/-! ## Words -/

instance (letters : String) : Decidable (IsWord letters) :=
  decidable_of_iff (letters ≠ "" ∧ letters.toList.all isWordChar = true)
    (and_congr_right' List.all_eq_true)

theorem isWordChar_of_digit {c : Char} (h : c.isDigit = true) : isWordChar c = true := by
  simp [isWordChar, Char.isAlphanum, h]

theorem isWordChar_of_number {c : Char} (h : isNumberChar c = true) : isWordChar c = true := by
  have hall : "0123456789+-.e".toList.all isWordChar = true := by decide
  exact List.all_eq_true.mp hall c (List.contains_iff_mem.mp h)

theorem isWordChar_toDigits {n : Nat} : ∀ c ∈ Nat.toDigits 10 n, isWordChar c = true :=
  fun _ hc => isWordChar_of_digit (Nat.isDigit_of_mem_toDigits (by omega) (by omega) hc)

theorem isWord_of_toList {letters : String} {c : Char} {cs : List Char}
    (hletters : letters.toList = c :: cs) (h : ∀ d ∈ c :: cs, isWordChar d = true) :
    IsWord letters := by
  refine ⟨fun hempty => ?_, by rwa [hletters]⟩
  rw [hempty] at hletters
  cases hletters

theorem isWord_nat (n : Nat) : IsWord (toString n) := by
  have hletters := toList_toString_nat n
  cases hdigits : Nat.toDigits 10 n with
  | nil => exact absurd hdigits Nat.toDigits_ne_nil
  | cons c cs =>
    rw [hdigits] at hletters
    exact isWord_of_toList hletters (hdigits ▸ isWordChar_toDigits)

theorem isWord_int (z : Int) : IsWord (toString z) := by
  cases z with
  | ofNat n => exact isWord_nat n
  | negSucc n =>
    refine isWord_of_toList (toList_toString_neg n) fun d hd => ?_
    rcases List.mem_cons.mp hd with rfl | hd
    · rfl
    · exact isWordChar_toDigits d hd

theorem isWord_toChars {D : Type} [CharsDouble D] [LawfulCharsDouble D] {d : D}
    (h : CharsDouble.isFinite d = true) : IsWord (CharsDouble.toChars d) :=
  ⟨LawfulCharsDouble.toChars_ne_empty d,
    fun c hc => isWordChar_of_number (LawfulCharsDouble.toChars_chars d h c hc)⟩

theorem readNat_toString (n : Nat) : readNat (toString n) = some n := by
  rw [readNat, toList_toString_nat, readLiteral_toDigits, length_toString_nat]
  simp

theorem readInt_toString (z : Int) : readInt (toString z) = some z := by
  cases z with
  | ofNat n =>
    have hstring : toString (Int.ofNat n) = toString n := rfl
    rw [hstring, readInt, toList_toString_nat, readLiteral_toDigits, length_toString_nat]
    simp
  | negSucc n =>
    rw [readInt, ← String.length_toList, toList_toString_neg, readLiteral_neg_toDigits]
    simp [Int.negSucc_eq]

/-! ## Statements as pieces -/

instance decidableWellSpaced : (pieces : List Piece) → Decidable (WellSpaced pieces)
  | [] => isTrue trivial
  | .word _ :: rest =>
    have := decidableWellSpaced rest
    inferInstanceAs (Decidable (_ ∧ _ ∧ _))
  | .mark _ :: rest =>
    have := decidableWellSpaced rest
    inferInstanceAs (Decidable (_ ∧ _))
  | .text _ :: rest => decidableWellSpaced rest
  | .gap :: rest => decidableWellSpaced rest
  | .tab :: rest => decidableWellSpaced rest

theorem wellSpaced_append {front back : List Piece} (hfront : WellSpaced front)
    (hback : WellSpaced back) (hnext : startsWord back = false) :
    WellSpaced (front ++ back) := by
  induction front with
  | nil => exact hback
  | cons piece front ih =>
    cases piece with
    | word letters =>
      obtain ⟨hword, hhead, hrest⟩ := hfront
      refine ⟨hword, ?_, ih hrest⟩
      cases front with
      | nil => exact hnext
      | cons other front => cases other <;> exact hhead
    | mark symbol => exact ⟨hfront.1, ih hfront.2⟩
    | text content => exact ih hfront
    | gap => exact ih hfront
    | tab => exact ih hfront

/-- Names with commas between them. -/
def commaPieces : List String → List Piece
  | [] => []
  | [name] => [.word name]
  | name :: rest => .word name :: .mark ',' :: commaPieces rest

theorem wellSpaced_commaPieces {names : List String} (h : ∀ name ∈ names, IsWord name) :
    WellSpaced (commaPieces names) := by
  induction names using commaPieces.induct with
  | case1 => trivial
  | case2 name => exact ⟨h name (List.mem_singleton_self name), rfl, trivial⟩
  | case3 name rest _ ih =>
    obtain ⟨hname, hrest⟩ := List.forall_mem_cons.mp h
    cases rest with
    | nil => contradiction
    | cons other rest => exact ⟨hname, rfl, rfl, ih hrest⟩

theorem commaWords_commaPieces {names : List String} (h : names ≠ []) {rest : List Token}
    (hrest : ∀ next ∈ rest.head?, next = .mark ';') :
    commaWords (tokensOf (commaPieces names) ++ rest) = some (names, rest) := by
  induction names using commaPieces.induct with
  | case1 => exact absurd rfl h
  | case2 name =>
    cases rest with
    | nil => rfl
    | cons next rest =>
      obtain rfl := hrest next rfl
      rfl
  | case3 name others hne ih =>
    cases others with
    | nil => contradiction
    | cons other others =>
      have hih := ih (List.cons_ne_nil _ _)
      simp only [commaPieces, tokensOf, List.filterMap_cons, Piece.token, List.cons_append,
        commaWords, if_true] at hih ⊢
      rw [hih]
      rfl

def orNoNode (names : List String) : List String := if names = [] then [noNode] else names

theorem orNoNode_ne_nil (names : List String) : orNoNode names ≠ [] := by
  unfold orNoNode
  split <;> simp_all

theorem nodesOf_orNoNode {names : List String} (h : ∀ name ∈ names, name ≠ noNode) :
    nodesOf (orNoNode names) = names := by
  unfold orNoNode
  split
  case isTrue hempty => rw [hempty]; rfl
  case isFalse => exact List.filter_eq_self.mpr fun name hname => decide_eq_true (h name hname)

def nodePieces (names : List String) : List Piece :=
  [.word "BU_", .mark ':'] ++ names.flatMap fun name => [.gap, .word name]

def orderWord (littleEndian isSigned : Bool) : String :=
  (if littleEndian then "1" else "0") ++ (if isSigned then "-" else "+")

def transmitterPieces (id : Nat) (names : List String) : List Piece :=
  [.word "BO_TX_BU_", .gap, .word (toString id), .gap, .mark ':', .gap] ++ commaPieces names ++
    [.mark ';']

def valuePieces (id : Nat) (signal : String) (table : List (Int × String)) : List Piece :=
  [.word "VAL_", .gap, .word (toString id), .gap, .word signal] ++
    (table.flatMap fun entry => [.gap, .word (toString entry.1), .gap, .text entry.2]) ++
    [.gap, .mark ';']

section
variable {D : Type}

/-- A message as its line states it. -/
def Message.bare (message : Message D) : Message D := { message with
  transmitters := message.transmitters.take 1
  signals := [] }

/-- A signal as its line states it. -/
def Signal.bare (signal : Signal D) : Signal D := { signal with
  valueTable := [] }

def messagePieces (message : Message D) : List Piece :=
  [.word "BO_", .gap, .word (toString message.id), .gap, .word message.name, .mark ':', .gap,
    .word (toString message.length), .gap, .word (message.transmitters.headD noNode)]

variable [CharsDouble D]

def signalPieces (signal : Signal D) : List Piece :=
  .gap :: .word "SG_" :: .gap :: .word signal.name :: .gap :: .mark ':' :: .gap ::
  .word (toString signal.startBit) :: .mark '|' :: .word (toString signal.bitLength) ::
  .mark '@' :: .word (orderWord signal.littleEndian signal.isSigned) :: .gap :: .mark '(' ::
  .word (CharsDouble.toChars signal.factor) :: .mark ',' ::
  .word (CharsDouble.toChars signal.offset) :: .mark ')' :: .gap :: .mark '[' ::
  .word (CharsDouble.toChars signal.min) :: .mark '|' ::
  .word (CharsDouble.toChars signal.max) :: .mark ']' :: .gap :: .text signal.unit :: .gap ::
  commaPieces (orNoNode signal.receivers)

end

/-! ## Reading them back -/

theorem words_nodes (names : List String) :
    words (tokensOf (names.flatMap fun name => [.gap, .word name])) = some (names, []) := by
  induction names with
  | nil => rfl
  | cons name names ih =>
    rw [List.flatMap_cons, tokensOf_append]
    change (words (tokensOf (names.flatMap fun name => [.gap, .word name]))).map _ = _
    rw [ih]
    rfl

theorem valueEntries_table (table : List (Int × String)) :
    valueEntries (tokensOf (table.flatMap fun entry =>
      [.gap, .word (toString entry.1), .gap, .text entry.2]) ++ [.mark ';']) =
      some (table, [.mark ';']) := by
  induction table with
  | nil => rfl
  | cons entry table ih =>
    rw [List.flatMap_cons, tokensOf_append, List.append_assoc]
    have hentry : tokensOf [.gap, .word (toString entry.1), .gap, .text entry.2] =
        [.word (toString entry.1), .text entry.2] := rfl
    rw [hentry, List.cons_append, List.cons_append, List.nil_append, valueEntries,
      readInt_toString, ih]

section
variable {D : Type} [CharsDouble D]

theorem statement_nodes (names : List String) :
    statement (tokensOf (nodePieces names)) = some (.nodes names : Statement D) := by
  have htokens : tokensOf (nodePieces names) = .word "BU_" :: .mark ':' ::
      tokensOf (names.flatMap fun name => [.gap, .word name]) := tokensOf_append _ _
  have hkeyword (rest : List Token) : statement (.word "BU_" :: rest) =
      whole (nodesLine : TokenReader (Statement D)) rest := by simp [statement]
  rw [htokens, hkeyword]
  refine whole_of_eq ?_
  rw [nodesLine, mark_bind, bind_of_eq (words_nodes names)]
  rfl

theorem statement_message (message : Message D)
    (h : ∀ name ∈ message.transmitters, name ≠ noNode) :
    statement (tokensOf (messagePieces message)) = some (.message message.bare) := by
  have htokens : tokensOf (messagePieces message) = [.word "BO_", .word (toString message.id),
      .word message.name, .mark ':', .word (toString message.length),
      .word (message.transmitters.headD noNode)] := rfl
  have hkeyword (rest : List Token) : statement (.word "BO_" :: rest) =
      whole (messageLine : TokenReader (Statement D)) rest := by simp [statement]
  have hnodes : nodesOf [message.transmitters.headD noNode] = message.transmitters.take 1 := by
    cases hlist : message.transmitters with
    | nil => rfl
    | cons first rest =>
      have hfirst := h first (by rw [hlist]; exact List.mem_cons_self)
      simp [nodesOf, hfirst]
  rw [htokens, hkeyword]
  refine whole_of_eq ?_
  rw [messageLine, wordAs_bind (readNat_toString _), word_bind, mark_bind,
    wordAs_bind (readNat_toString _), word_bind, hnodes]
  rfl

theorem statement_transmitters (id : Nat) {names : List String} (hne : names ≠ [])
    (h : ∀ name ∈ names, name ≠ noNode) :
    statement (tokensOf (transmitterPieces id names)) =
      some (.transmitters id names : Statement D) := by
  have htokens : tokensOf (transmitterPieces id names) = .word "BO_TX_BU_" ::
      .word (toString id) :: .mark ':' :: (tokensOf (commaPieces names) ++ [.mark ';']) := by
    rw [transmitterPieces, List.append_assoc, tokensOf_append, tokensOf_append]
    rfl
  have hkeyword (rest : List Token) : statement (.word "BO_TX_BU_" :: rest) =
      whole (transmittersLine : TokenReader (Statement D)) rest := by simp [statement]
  have hcomma : commaWords (tokensOf (commaPieces names) ++ [.mark ';']) =
      some (names, [.mark ';']) := commaWords_commaPieces hne (by simp)
  have hnodes : nodesOf names = names :=
    List.filter_eq_self.mpr fun name hname => decide_eq_true (h name hname)
  rw [htokens, hkeyword]
  refine whole_of_eq ?_
  rw [transmittersLine, wordAs_bind (readNat_toString _), mark_bind, bind_of_eq hcomma, mark_bind,
    hnodes]
  rfl

theorem statement_values (id : Nat) (signal : String) (table : List (Int × String)) :
    statement (tokensOf (valuePieces id signal table)) =
      some (.values id signal table : Statement D) := by
  have htokens : tokensOf (valuePieces id signal table) = .word "VAL_" :: .word (toString id) ::
      .word signal :: (tokensOf (table.flatMap fun entry =>
        [.gap, .word (toString entry.1), .gap, .text entry.2]) ++ [.mark ';']) := by
    rw [valuePieces, List.append_assoc, tokensOf_append, tokensOf_append]
    rfl
  have hkeyword (rest : List Token) : statement (.word "VAL_" :: rest) =
      whole (valuesLine : TokenReader (Statement D)) rest := by simp [statement]
  rw [htokens, hkeyword]
  refine whole_of_eq ?_
  rw [valuesLine, wordAs_bind (readNat_toString _), word_bind, bind_of_eq (valueEntries_table _),
    mark_bind]
  rfl

theorem readOrder_orderWord (littleEndian isSigned : Bool) :
    readOrder (orderWord littleEndian isSigned) = some (littleEndian, isSigned) := by
  cases littleEndian <;> cases isSigned <;> rfl

/-- What the lines of a signal rely on. -/
structure Signal.Printable (signal : Signal D) : Prop where
  name : IsWord signal.name
  factor : CharsDouble.isFinite signal.factor = true
  offset : CharsDouble.isFinite signal.offset = true
  min : CharsDouble.isFinite signal.min = true
  max : CharsDouble.isFinite signal.max = true
  receivers : ∀ name ∈ signal.receivers, IsWord name ∧ name ≠ noNode

theorem statement_signal [LawfulCharsDouble D] {signal : Signal D} (h : signal.Printable) :
    statement (tokensOf (signalPieces signal)) = some (.signal signal.bare) := by
  have htokens : tokensOf (signalPieces signal) = .word "SG_" :: .word signal.name ::
      .mark ':' :: .word (toString signal.startBit) :: .mark '|' ::
      .word (toString signal.bitLength) :: .mark '@' ::
      .word (orderWord signal.littleEndian signal.isSigned) :: .mark '(' ::
      .word (CharsDouble.toChars signal.factor) :: .mark ',' ::
      .word (CharsDouble.toChars signal.offset) :: .mark ')' :: .mark '[' ::
      .word (CharsDouble.toChars signal.min) :: .mark '|' ::
      .word (CharsDouble.toChars signal.max) :: .mark ']' :: .text signal.unit ::
      tokensOf (commaPieces (orNoNode signal.receivers)) := rfl
  have hkeyword (rest : List Token) : statement (.word "SG_" :: rest) =
      whole (signalLine : TokenReader (Statement D)) rest := by simp [statement]
  have hcomma : commaWords (tokensOf (commaPieces (orNoNode signal.receivers))) =
      some (orNoNode signal.receivers, []) := by
    rw [← List.append_nil (tokensOf _), commaWords_commaPieces (orNoNode_ne_nil _) (by simp)]
  have hnodes := nodesOf_orNoNode fun name hname => (h.receivers name hname).2
  rw [htokens, hkeyword]
  refine whole_of_eq ?_
  rw [signalLine, word_bind, mark_bind, wordAs_bind (readNat_toString _), mark_bind,
    wordAs_bind (readNat_toString _), mark_bind, wordAs_bind (readOrder_orderWord _ _), mark_bind,
    wordAs_bind (LawfulCharsDouble.fromChars_toChars _ h.factor), mark_bind,
    wordAs_bind (LawfulCharsDouble.fromChars_toChars _ h.offset), mark_bind, mark_bind,
    wordAs_bind (LawfulCharsDouble.fromChars_toChars _ h.min), mark_bind,
    wordAs_bind (LawfulCharsDouble.fromChars_toChars _ h.max), mark_bind, text_bind,
    bind_of_eq hcomma, hnodes]
  rfl

end

/-! ## Well spaced lines -/

theorem wellSpaced_nodePieces {names : List String} (h : ∀ name ∈ names, IsWord name) :
    WellSpaced (nodePieces names) := by
  have htail : WellSpaced (names.flatMap fun name => [.gap, .word name]) ∧
      startsWord (names.flatMap fun name => [.gap, .word name]) = false := by
    induction names with
    | nil => exact ⟨trivial, rfl⟩
    | cons name names ih =>
      obtain ⟨hname, hnames⟩ := List.forall_mem_cons.mp h
      obtain ⟨hspaced, hstart⟩ := ih hnames
      exact ⟨⟨hname, hstart, hspaced⟩, rfl⟩
  exact wellSpaced_append ⟨by decide, rfl, rfl, trivial⟩ htail.1 htail.2

theorem wellSpaced_transmitterPieces (id : Nat) {names : List String}
    (h : ∀ name ∈ names, IsWord name) : WellSpaced (transmitterPieces id names) := by
  have hcomma : WellSpaced (commaPieces names ++ [.mark ';']) :=
    wellSpaced_append (wellSpaced_commaPieces h) ⟨rfl, trivial⟩ rfl
  rw [transmitterPieces, List.append_assoc]
  exact ⟨by decide, rfl, isWord_nat id, rfl, rfl, hcomma⟩

theorem wellSpaced_valuePieces (id : Nat) {signal : String} (hname : IsWord signal)
    (table : List (Int × String)) : WellSpaced (valuePieces id signal table) := by
  have htail : WellSpaced ((table.flatMap fun entry =>
        [.gap, .word (toString entry.1), .gap, .text entry.2]) ++ [.gap, .mark ';']) ∧
      startsWord ((table.flatMap fun entry =>
        [.gap, .word (toString entry.1), .gap, .text entry.2]) ++ [.gap, .mark ';']) = false := by
    induction table with
    | nil => exact ⟨⟨rfl, trivial⟩, rfl⟩
    | cons entry table ih => exact ⟨⟨isWord_int _, rfl, ih.1⟩, rfl⟩
  rw [valuePieces, List.append_assoc]
  exact ⟨by decide, rfl, isWord_nat id, rfl, hname, htail.2, htail.1⟩

theorem wellSpaced_messagePieces {D : Type} {message : Message D} (hname : IsWord message.name)
    (h : ∀ name ∈ message.transmitters, IsWord name) : WellSpaced (messagePieces message) := by
  have hfirst : IsWord (message.transmitters.headD noNode) := by
    cases hlist : message.transmitters with
    | nil => exact (by decide : IsWord noNode)
    | cons first rest => exact h first (by rw [hlist]; exact List.mem_cons_self)
  exact ⟨by decide, rfl, isWord_nat _, rfl, hname, rfl, rfl, isWord_nat _, rfl, hfirst, rfl,
    trivial⟩

/-- What the line of a signal relies on to be read as its tokens. -/
structure Signal.Spelled {D : Type} [CharsDouble D] (signal : Signal D) : Prop where
  name : IsWord signal.name
  factor : IsWord (CharsDouble.toChars signal.factor)
  offset : IsWord (CharsDouble.toChars signal.offset)
  min : IsWord (CharsDouble.toChars signal.min)
  max : IsWord (CharsDouble.toChars signal.max)
  receivers : ∀ name ∈ signal.receivers, IsWord name

theorem Signal.Printable.spelled {D : Type} [CharsDouble D] [LawfulCharsDouble D]
    {signal : Signal D} (h : signal.Printable) : signal.Spelled where
  name := h.name
  factor := isWord_toChars h.factor
  offset := isWord_toChars h.offset
  min := isWord_toChars h.min
  max := isWord_toChars h.max
  receivers name hname := (h.receivers name hname).1

theorem wellSpaced_signalPieces {D : Type} [CharsDouble D] {signal : Signal D}
    (h : signal.Spelled) : WellSpaced (signalPieces signal) := by
  have horder : IsWord (orderWord signal.littleEndian signal.isSigned) := by
    cases signal.littleEndian <;> cases signal.isSigned <;> decide
  have hnames : ∀ name ∈ orNoNode signal.receivers, IsWord name := by
    unfold orNoNode
    split
    · exact List.forall_mem_singleton.mpr (by decide)
    · exact h.receivers
  exact ⟨by decide, rfl, h.name, rfl, rfl, isWord_nat _, rfl, rfl, isWord_nat _, rfl, rfl,
    horder, rfl, rfl, h.factor, rfl, rfl, h.offset, rfl, rfl, rfl, h.min, rfl, rfl, h.max, rfl,
    rfl, wellSpaced_commaPieces hnames⟩

end ParseX.Dbc

import ParseX.Base.JsonText
import ParseX.Cpp.Integer

/-! # The JSON-RPC envelope

The checks that transport and dispatch share: error replies, the depth guard, id
recovery from a line that is not parsed, and the envelope of a parsed message. -/
namespace ParseX.Mcp
open Cpp JsonText

/-! ## Error replies -/

def makeProtocolError (id : Json) (code : Int) (message : Bytes) : Json :=
  .ofMembers [("jsonrpc", .text "2.0"), ("id", id),
    ("error", .ofMembers [("code", .integer code), ("message", .string message)])]

def makeParseError (id : Json) : Json := makeProtocolError id (-32700) (utf8 "Parse error")

def makeInvalidRequest (id : Json) : Json := makeProtocolError id (-32600) (utf8 "Invalid Request")

def makeMethodNotFound (id : Json) : Json := makeProtocolError id (-32601) (utf8 "Method not found")

/-! ## The depth guard -/

def kMaxJsonDepth : Nat := 128

/-- The loop of `exceedsMaxDepth`, from the state that the bytes before have left. -/
def exceedsFrom (maxDepth : Nat) : Bytes → (depth : Nat) → (inString escaped : Bool) → Bool
  | [], _, _, _ => false
  | chr :: line, depth, inString, escaped =>
    if inString then
      if escaped then exceedsFrom maxDepth line depth inString false
      else if chr = backslash then exceedsFrom maxDepth line depth inString true
      else if chr = quote then exceedsFrom maxDepth line depth false escaped
      else exceedsFrom maxDepth line depth inString escaped
    else if chr = quote then exceedsFrom maxDepth line depth true escaped
    else if chr = openBracket ∨ chr = openBrace then
      if maxDepth < depth + 1 then true
      else exceedsFrom maxDepth line (depth + 1) inString escaped
    else if (chr = closeBracket ∨ chr = closeBrace) ∧ 0 < depth then
      exceedsFrom maxDepth line (depth - 1) inString escaped
    else exceedsFrom maxDepth line depth inString escaped

def exceedsMaxDepth (line : Bytes) (maxDepth : Nat) : Bool := exceedsFrom maxDepth line 0 false false

def tooDeepMessage : String :=
  "Invalid Request: JSON nesting exceeds the maximum depth of " ++ toString kMaxJsonDepth

def makeNestingTooDeep (id : Json) : Json :=
  let response := makeProtocolError id (-32600) (utf8 tooDeepMessage)
  response.set "error" (((response.member? "error").getD .null).set "data"
    (.ofMembers [("maxDepth", .integer kMaxJsonDepth)]))

/-! ## Id recovery -/

def isJsonSpace (chr : UInt8) : Bool :=
  chr == ' '.toUInt8 || chr == '\t'.toUInt8 || chr == '\n'.toUInt8 || chr == '\r'.toUInt8 ||
    chr == 12 || chr == 11

def isAsciiDigit (chr : UInt8) : Bool := decide ('0'.toUInt8 ≤ chr) && decide (chr ≤ '9'.toUInt8)

def skipJsonSpace (line : Bytes) : Bytes := line.dropWhile isJsonSpace

inductive IdScan where
  | found (out : Json)
  | giveUp
  | keepLooking

/-- The characters of ASCII bytes. -/
def asciiText (bytes : Bytes) : String := String.ofList (bytes.map fun byte => Char.ofNat byte.toNat)

/-- A number at the front: an optional minus and its digits. -/
def readIdNumber (line : Bytes) : IdScan :=
  let minusSign := if line.head? = some minus then [minus] else []
  let digitRun := (line.drop minusSign.length).takeWhile isAsciiDigit
  if digitRun = [] then .keepLooking
  else
    match stoll (asciiText (minusSign ++ digitRun)) with
    | some (out, _) => .found (.integer out)
    | none => .giveUp

/-- `readIdValue`: `line` is what stands after an `"id"` key. -/
def readIdValue (line : Bytes) : IdScan :=
  let line := skipJsonSpace line
  if line.head? ≠ some colon then .keepLooking
  else
    let line := skipJsonSpace line.tail
    if line = [] then .keepLooking
    else if (utf8 "null").isPrefixOf line then .found .null
    else if line.head? = some quote then
      if quote ∈ line.tail then .found (.string (line.tail.takeWhile (· ≠ quote)))
      else .keepLooking
    else readIdNumber line

def kKey : Bytes := utf8 "\"id\""

/-- `tryRecoverId`: the first occurrence of the key that does not keep looking. -/
def tryRecoverId : Bytes → Option Json
  | [] => none
  | chr :: line =>
    if kKey.isPrefixOf (chr :: line) then
      match readIdValue ((chr :: line).drop kKey.length) with
      | .found value => some value
      | .giveUp => none
      | .keepLooking => tryRecoverId line
    else tryRecoverId line

/-! ## The envelope -/

def isValidEnvelope (message : Json) : Bool :=
  match message.member? "jsonrpc" with
  | some (.string version) =>
    if version ≠ utf8 "2.0" then false
    else if (message.member? "id").isSome then true
    else
      match message.member? "method" with
      | some (.string method) => (utf8 "notifications/").isPrefixOf method
      | _ => false
  | _ => false

def idOrNull (message : Json) : Json := (message.member? "id").getD .null

/-! ## What the guard rejects -/

section
variable {maxDepth depth : Nat} {text rest : Bytes}

/-- Bytes outside strings that are neither quotes nor brackets leave the state. -/
theorem exceedsFrom_plain {plain : Bytes}
    (h : ∀ byte ∈ plain,
      byte ∉ [quote, openBracket, openBrace, closeBracket, closeBrace]) :
    exceedsFrom maxDepth (plain ++ rest) depth false false =
      exceedsFrom maxDepth rest depth false false := by
  induction plain with
  | nil => rfl
  | cons byte plain ih =>
    obtain ⟨hbyte, hplain⟩ := List.forall_mem_cons.mp h
    simp only [List.mem_cons, List.not_mem_nil, or_false, not_or] at hbyte
    obtain ⟨hquote, hopen, hopen', hclose, hclose'⟩ := hbyte
    rw [List.cons_append, exceedsFrom]
    simpa [hquote, hopen, hopen', hclose, hclose'] using ih hplain

theorem exceedsFrom_blank (h : Blank text rest) :
    exceedsFrom maxDepth text depth false false = exceedsFrom maxDepth rest depth false false := by
  obtain ⟨space, hspace, rfl⟩ := h
  have hplain : ∀ byte ∈ blanks, byte ∉ [quote, openBracket, openBrace, closeBracket, closeBrace] := by
    decide
  exact exceedsFrom_plain fun byte hbyte => hplain byte (hspace byte hbyte)

/-- A comma or a colon leaves the state. -/
theorem exceedsFrom_separator {separator : UInt8} (h : separator = comma ∨ separator = colon) :
    exceedsFrom maxDepth (separator :: rest) depth false false =
      exceedsFrom maxDepth rest depth false false := by
  have hplain := @exceedsFrom_plain maxDepth depth rest [separator] (by
    rcases h with rfl | rfl <;> decide)
  exact hplain

/-- Bytes inside a string that are neither quotes nor backslashes leave the state. -/
theorem exceedsFrom_inString {plain : Bytes} (h : ∀ byte ∈ plain, byte ≠ quote ∧ byte ≠ backslash) :
    exceedsFrom maxDepth (plain ++ rest) depth true false =
      exceedsFrom maxDepth rest depth true false := by
  induction plain with
  | nil => rfl
  | cons byte plain ih =>
    obtain ⟨⟨hquote, hbackslash⟩, hplain⟩ := List.forall_mem_cons.mp h
    rw [List.cons_append, exceedsFrom]
    simpa [hquote, hbackslash] using ih hplain

theorem exceedsFrom_escape (letter : UInt8) :
    exceedsFrom maxDepth (backslash :: letter :: rest) depth true false =
      exceedsFrom maxDepth rest depth true false := by
  simp [exceedsFrom]

theorem exceedsFrom_unicodeEscape {hex : Bytes} {unit : Nat} (h : codeUnit hex = some unit) :
    exceedsFrom maxDepth (unicodeEscape hex ++ rest) depth true false =
      exceedsFrom maxDepth rest depth true false := by
  rw [unicodeEscape, List.cons_append, List.cons_append, exceedsFrom_escape]
  exact exceedsFrom_inString (ne_of_codeUnit h)

/-- The rest of a string ends outside it. -/
theorem exceedsFrom_body {content : Bytes} (h : Body content text rest) :
    exceedsFrom maxDepth text depth true false = exceedsFrom maxDepth rest depth false false := by
  induction h with
  | close => simp [exceedsFrom, show quote ≠ backslash by decide]
  | @plain byte content text rest _ hquote hbackslash _ ih =>
    rw [← ih]
    exact @exceedsFrom_inString _ _ _ [byte] (by simp [hquote, hbackslash])
  | escape _ _ ih => rw [exceedsFrom_escape, ih]
  | unicode hunit _ _ ih => rw [exceedsFrom_unicodeEscape hunit, ih]
  | surrogates hhigh hlow _ _ _ _ _ ih =>
    rw [exceedsFrom_unicodeEscape hhigh, exceedsFrom_unicodeEscape hlow, ih]

theorem exceedsFrom_string {content : Bytes} (h : Body content text rest) :
    exceedsFrom maxDepth (quote :: text) depth false false =
      exceedsFrom maxDepth rest depth false false := by
  rw [exceedsFrom, if_neg Bool.false_ne_true, if_pos rfl]
  exact exceedsFrom_body h

theorem exceedsFrom_key {key : Bytes} (h : Key key text rest) :
    exceedsFrom maxDepth text depth false false = exceedsFrom maxDepth rest depth false false := by
  obtain ⟨hquote, hbody, hcolon, hblank⟩ := h
  rw [exceedsFrom_blank hquote, exceedsFrom_string hbody, exceedsFrom_blank hcolon,
    exceedsFrom_separator (.inr rfl), exceedsFrom_blank hblank]

/-- What stands between two brackets is one level deeper. -/
theorem exceedsFrom_brackets {opening closing : UInt8} {inner : Nat}
    (hopening : opening = openBracket ∨ opening = openBrace)
    (hclosing : closing = closeBracket ∨ closing = closeBrace) (hdepth : depth ≤ maxDepth)
    (h : depth + 1 ≤ maxDepth → exceedsFrom maxDepth text (depth + 1) false false =
      (decide (maxDepth < depth + 1 + inner) ||
        exceedsFrom maxDepth (closing :: rest) (depth + 1) false false)) :
    exceedsFrom maxDepth (opening :: text) depth false false =
      (decide (maxDepth < depth + (inner + 1)) || exceedsFrom maxDepth rest depth false false) := by
  have hquote : opening ≠ quote := by
    rcases hopening with rfl | rfl <;> decide
  have hclose : exceedsFrom maxDepth (closing :: rest) (depth + 1) false false =
      exceedsFrom maxDepth rest depth false false := by
    rw [exceedsFrom]
    rcases hclosing with rfl | rfl <;> simp [show closeBracket ≠ quote by decide,
      show closeBracket ≠ openBracket by decide, show closeBracket ≠ openBrace by decide,
      show closeBrace ≠ quote by decide, show closeBrace ≠ openBracket by decide,
      show closeBrace ≠ openBrace by decide]
  rw [exceedsFrom, if_neg Bool.false_ne_true, if_neg hquote, if_pos hopening]
  split
  · rename_i hlt
    rw [decide_eq_true (by omega), Bool.true_or]
  · rename_i hle
    rw [h (by omega), hclose]
    congr 2
    exact propext (by omega)

/-- **The guard measures the nesting of a phrase.** -/
theorem exceedsFrom_derives {phrase : Phrase} (h : Derives phrase text rest) :
    ∀ {depth : Nat}, depth ≤ maxDepth → exceedsFrom maxDepth text depth false false =
      (decide (maxDepth < depth + phrase.depth) || exceedsFrom maxDepth rest depth false false) := by
  have hflat {depth : Nat} (hdepth : depth ≤ maxDepth) (rest : Bytes) :
      exceedsFrom maxDepth rest depth false false =
        (decide (maxDepth < depth + 0) || exceedsFrom maxDepth rest depth false false) := by
    rw [decide_eq_false (by omega), Bool.false_or]
  have hnext {depth inner others : Nat} {rest : Bytes} :
      (decide (maxDepth < depth + inner) || (decide (maxDepth < depth + others) ||
          exceedsFrom maxDepth rest depth false false)) =
        (decide (maxDepth < depth + max inner others) ||
          exceedsFrom maxDepth rest depth false false) := by
    rw [← Bool.or_assoc, ← Bool.decide_or]
    congr 2
    exact propext (by omega)
  induction h with
  | null => exact fun hdepth => (exceedsFrom_plain (by decide)).trans (hflat hdepth _)
  | true => exact fun hdepth => (exceedsFrom_plain (by decide)).trans (hflat hdepth _)
  | false => exact fun hdepth => (exceedsFrom_plain (by decide)).trans (hflat hdepth _)
  | @number value text rest hnumber =>
    intro depth hdepth
    have hbytes : ∀ byte ∈ numberBytes,
        byte ∉ [quote, openBracket, openBrace, closeBracket, closeBrace] := by
      decide
    rw [exceedsFrom_plain fun byte hbyte => hbytes byte (hnumber.numberBytes byte hbyte)]
    cases hnumber <;> exact hflat hdepth _
  | string hbody => exact fun hdepth => (exceedsFrom_string hbody).trans (hflat hdepth _)
  | emptyArray hblank =>
    exact fun hdepth => exceedsFrom_brackets (.inl rfl) (.inl rfl) hdepth fun hinner =>
      (exceedsFrom_blank hblank).trans (hflat hinner _)
  | array _ ih =>
    exact fun hdepth => exceedsFrom_brackets (.inl rfl) (.inl rfl) hdepth ih
  | emptyObject hblank =>
    exact fun hdepth => exceedsFrom_brackets (.inr rfl) (.inr rfl) hdepth fun hinner =>
      (exceedsFrom_blank hblank).trans (hflat hinner _)
  | object _ ih =>
    exact fun hdepth => exceedsFrom_brackets (.inr rfl) (.inr rfl) hdepth ih
  | lastItem hbefore _ hafter ih =>
    intro depth hdepth
    rw [exceedsFrom_blank hbefore, ih hdepth, exceedsFrom_blank hafter]
    show _ = (decide (maxDepth < depth + max _ 0) || _)
    rw [Nat.max_zero]
    rfl
  | item hbefore _ hafter _ ih ih' =>
    intro depth hdepth
    rw [exceedsFrom_blank hbefore, ih hdepth, exceedsFrom_blank hafter,
      exceedsFrom_separator (.inl rfl), ih' hdepth]
    exact hnext
  | lastMember hkey _ hafter ih =>
    intro depth hdepth
    rw [exceedsFrom_key hkey, ih hdepth, exceedsFrom_blank hafter]
    show _ = (decide (maxDepth < depth + max _ 0) || _)
    rw [Nat.max_zero]
    rfl
  | member hkey _ hafter _ ih ih' =>
    intro depth hdepth
    rw [exceedsFrom_key hkey, ih hdepth, exceedsFrom_blank hafter,
      exceedsFrom_separator (.inl rfl), ih' hdepth]
    exact hnext

/-- The guard rejects a document exactly when it nests too deep. -/
theorem exceedsMaxDepth_document {value : Json} (h : Document value text) :
    exceedsMaxDepth text maxDepth = decide (maxDepth < value.depth) := by
  obtain ⟨mark, t, t₁, t₂, hmark, rfl, hbefore, hvalue, hafter⟩ := h
  have hplain : ∀ byte ∈ mark, byte ∉ [quote, openBracket, openBrace, closeBracket, closeBrace] := by
    rcases hmark with rfl | rfl <;> decide
  rw [exceedsMaxDepth, exceedsFrom_plain hplain, exceedsFrom_blank hbefore,
    exceedsFrom_derives hvalue (Nat.zero_le _), exceedsFrom_blank hafter, Nat.zero_add]
  exact Bool.or_false _

end

/-- **The guard measures the nesting of a value in every text of it.** -/
theorem guard_measures_depth (value : Json) (text : Bytes) (maxDepth : Nat)
    (h : Document value text) : exceedsMaxDepth text maxDepth = true ↔ maxDepth < value.depth := by
  rw [exceedsMaxDepth_document h, decide_eq_true_iff]

/-- A bracket inside a string is not counted, nor one after an escaped quote. -/
theorem guard_measures_depth_array : exceedsMaxDepth (utf8 "[\"\\\"[\" ]") 0 = true := by
  have hnil : ∀ byte ∈ ([] : Bytes), byte ∈ JsonText.blanks := List.forall_mem_nil _
  have hdocument : Document (.array [.text "\"["]) (utf8 "[\"\\\"[\" ]") := by
    refine ⟨[], _, _, [], .inl rfl, rfl, ⟨[], hnil, rfl⟩, ?_, [], hnil, rfl⟩
    refine .array (.lastItem ⟨[], hnil, rfl⟩ (.string (.escape rfl ?_)) ⟨[' '.toUInt8], by decide, rfl⟩)
    exact .plain (by decide) (by decide) (by decide) .close
  exact (guard_measures_depth _ _ 0 hdocument).mpr (by decide)

end ParseX.Mcp

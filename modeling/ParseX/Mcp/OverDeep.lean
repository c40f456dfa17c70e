import ParseX.Mcp.IdRecovery
import ParseX.Mcp.Server
import ParseX.Base.JsonPrint

/-! # Errors about nesting

The id of a line that is not parsed is read from its text: the leftmost `"id"` that
a colon and a value follow, whatever stands around it. -/
namespace ParseX.Mcp
open Cpp JsonText

/-! ## The request's own id -/

/-- The last member `"id"` of an object in a document: what stands before its key,
and its text with what follows. -/
inductive OwnId : (members : List (Bytes × Json)) → (id : Json) → (line front text after : Bytes) →
    Prop where
  | mk {mark t₀ body t t₁ t₂ front text after rest : Bytes} {earlier later : List (Bytes × Json)}
      {id : Json} : (mark = [] ∨ mark = byteOrderMark) → Blank t₀ (openBrace :: body) →
      Leads earlier body t → Blank t (kKey ++ t₁) → Blank t₁ (colon :: t₂) → Blank t₂ text →
      Derives (.value id) text after → Ends later after rest → Blank rest [] →
      (∀ member ∈ later, member.1 ≠ utf8 "id") → mark ++ t₀ = front ++ (kKey ++ t₁) →
      OwnId (earlier ++ (utf8 "id", id) :: later) id (mark ++ t₀) front text after

theorem OwnId.document {members : List (Bytes × Json)} {id : Json} {line front text after : Bytes}
    (h : OwnId members id line front text after) : Document (.object members) line := by
  cases h with
  | @mk mark t₀ body t t₁ t₂ _ _ _ rest _ _ _ hmark hopen hearlier hkey hcolon htext hid hlater
      hrest _ _ =>
    have hbody : Body (utf8 "id") (utf8 "id\"" ++ t₁) t₁ :=
      .plain (by decide) (by decide) (by decide) (.plain (by decide) (by decide) (by decide) .close)
    exact ⟨mark, t₀, _, rest, hmark, rfl, hopen,
      derives_object hearlier (.mk hkey hbody hcolon htext) hid hlater, hrest⟩

/-- A JSON-RPC id: null, an integer or a string. -/
def IsId : Json → Prop
  | .null | .integer _ | .string _ => True
  | _ => False

/-- A string is spelled without a backslash. -/
def SpelledPlainly (id : Json) (text after : Bytes) : Prop :=
  ∀ content, id = .string content →
    ∃ raw, text = quote :: (raw ++ quote :: after) ∧ backslash ∉ raw

/-! ## Reading the value -/

/-- A string without backslashes ends at its first quote and stands for its bytes. -/
theorem raw_of_body {content text rest : Bytes} (h : Body content text rest) :
    ∀ {raw : Bytes}, text = raw ++ quote :: rest → backslash ∉ raw →
      content = raw ∧ quote ∉ raw := by
  induction h with
  | close =>
    intro raw htext _
    have hlength := congrArg List.length htext
    rw [List.length_append, List.length_cons] at hlength
    obtain rfl := List.eq_nil_of_length_eq_zero (l := raw) (by omega)
    exact ⟨rfl, nofun⟩
  | @plain byte content text rest _ hquote _ _ ih =>
    intro raw htext hraw
    cases raw with
    | nil => exact absurd (List.cons.inj htext).1 hquote
    | cons first raw =>
      obtain ⟨rfl, hrest⟩ := List.cons.inj htext
      obtain ⟨hcontent, hnone⟩ := ih hrest fun h => hraw (List.mem_cons_of_mem _ h)
      exact ⟨by rw [hcontent], by simp [hnone, Ne.symm hquote]⟩
  | _ =>
    intro raw htext hraw
    cases raw with
    | nil => exact absurd (List.cons.inj htext).1 (by decide)
    | cons first raw =>
      obtain ⟨rfl, -⟩ := List.cons.inj htext
      exact absurd (List.mem_cons_self ..) hraw

/-- The white space of a document is white space to the scan. -/
theorem spaced_of_blank {text rest : Bytes} (h : Blank text rest) : Spaced text rest := by
  obtain ⟨space, hspace, htext⟩ := h
  have hblanks : ∀ byte ∈ blanks, isJsonSpace byte = true := by decide
  exact ⟨space, fun byte hbyte => hblanks byte (hspace byte hbyte), htext⟩

/-- No digit follows the value of a member. -/
theorem not_digit_of_ends {later : List (Bytes × Json)} {after rest : Bytes} (h : Ends later after rest) :
    ∀ byte, after.head? = some byte → byte ∉ digits := by
  have hblank {byte : UInt8} {rest : Bytes} (hbyte : byte ∉ digits)
      (hafter : Blank after (byte :: rest)) :
      ∀ byte, after.head? = some byte → byte ∉ digits := by
    obtain ⟨space, hspace, rfl⟩ := hafter
    have hblanks : ∀ byte ∈ blanks, byte ∉ digits := by decide
    intro first hfirst
    cases space with
    | nil => rwa [← Option.some.inj hfirst]
    | cons blank space =>
      rw [← Option.some.inj hfirst]
      exact hblanks blank (hspace blank (by simp))
  cases h with
  | nil hclose => exact hblank (by decide) hclose
  | cons hcomma => exact hblank (by decide) hcomma

/-! ## The error's id -/

/-- The pattern matches at the request's own id. -/
theorem afterKey_own {id : Json} {rest t text after : Bytes} (hid : IsId id)
    (hcolon : Blank rest (colon :: t)) (htext : Blank t text) (hvalue : Derives (.value id) text after)
    (hplain : SpelledPlainly id text after)
    (hafter : ∀ byte, after.head? = some byte → byte ∉ digits) :
    AfterKey (some id) rest ∨ AfterKey none rest := by
  have hmatch {value : Option Json} (hvalue : IdText value text) : AfterKey value rest :=
    ⟨t, text, spaced_of_blank hcolon, spaced_of_blank htext, hvalue⟩
  cases hvalue with
  | null => exact .inl (hmatch .null)
  | @string content body _ hbody =>
    obtain ⟨raw, hraw, hbackslash⟩ := hplain content rfl
    obtain rfl := (List.cons.inj hraw).2
    obtain ⟨rfl, hquote⟩ := raw_of_body hbody rfl hbackslash
    exact .inl (hmatch (.string hquote))
  | number hnumber =>
    cases hnumber with
    | double => exact hid.elim
    | @integer negative text hnumeral hrange =>
      have hnumber := @IdText.number negative text after hnumeral.1 hafter
      rw [List.append_assoc] at hmatch
      split at hnumber
      · exact .inl (hmatch hnumber)
      · exact .inr (hmatch hnumber)
  | _ => exact hid.elim

theorem OwnId.recovered {members : List (Bytes × Json)} {id : Json} {line front text after : Bytes}
    (h : OwnId members id line front text after) (hid : IsId id)
    (hfirst : ∀ place < front.length, ∀ value, ¬ IdMatch value (line.drop place))
    (hplain : SpelledPlainly id text after) {recovered : Json}
    (hrecovered : tryRecoverId line = some recovered) : recovered = id := by
  cases h with
  | mk _ _ _ _ hcolon htext hvalue hlater _ _ hline =>
    rw [hline] at hfirst hrecovered
    rw [tryRecoverId_front (keepsLooking_of_no_match hfirst)] at hrecovered
    rcases afterKey_own hid hcolon htext hvalue hplain (not_digit_of_ends hlater) with hown | hown
    · rw [tryRecoverId_afterKey hown] at hrecovered
      exact (Option.some.inj hrecovered).symm
    · rw [tryRecoverId_afterKey hown] at hrecovered
      cases hrecovered

/-- The error that a line gets when it nests too deep. -/
def tooDeepReply (line : Bytes) : Option Json := (tryRecoverId line).map makeNestingTooDeep

/-- A document that nests too deep is answered by its error, or not at all. -/
theorem serveLine_tooDeep {value : Json} {line : Bytes} (h : Document value line)
    (hdeep : kMaxJsonDepth < value.depth) (library : JsonLibrary) (registry : ToolRegistry) :
    serveLine library registry line =
      (match tooDeepReply line with
        | some reply => catching (writeMessage library reply) skip
        | none => skip) := by
  rw [serveLine, if_neg h.ne_nil, if_pos (by
    rw [exceedsMaxDepth_document h]
    exact decide_eq_true hdeep), rejectOverDeepLine, tooDeepReply]
  cases tryRecoverId line with
  | none => rfl
  | some recovered => rfl

/-- **An id that comes first and is spelled plainly is the one answered.** -/
theorem nestingTooDeep_id (members : List (Bytes × Json)) (id : Json) (line front text after : Bytes)
    (hown : OwnId members id line front text after) (hid : IsId id)
    (hdeep : kMaxJsonDepth < (Json.object members).depth)
    (hfirst : ∀ place < front.length, ∀ value, ¬ IdMatch value (line.drop place))
    (hplain : SpelledPlainly id text after) :
    (∀ library registry, serveLine library registry line =
      (match tooDeepReply line with
        | some reply => catching (writeMessage library reply) skip
        | none => skip)) ∧
      ∀ reply, tooDeepReply line = some reply → IsReply id reply := by
  refine ⟨serveLine_tooDeep hown.document hdeep, fun reply hreply => ?_⟩
  obtain ⟨recovered, hrecovered, rfl⟩ := Option.map_eq_some_iff.mp hreply
  rw [← hown.recovered hid hfirst hplain hrecovered]
  exact isReply_makeNestingTooDeep recovered

/-! ## Two requests -/

/-- Null in so many arrays. -/
def nest : Nat → Json
  | 0 => .null
  | n + 1 => .array [nest n]

def zero (_ : UInt64) : Bytes := utf8 "0.0"

/-- The id stands in front. -/
def idFirst : List (Bytes × Json) :=
  [(utf8 "id", .integer 1), (utf8 "jsonrpc", .text "2.0"), (utf8 "params", nest 128)]

/-- An `"id"` among the parameters stands in front of the request's own. -/
def idLast : List (Bytes × Json) :=
  [(utf8 "jsonrpc", .text "2.0"),
    (utf8 "params", .object [(utf8 "id", .integer 7), (utf8 "value", nest 127)]),
    (utf8 "id", .integer 1)]

/-- The id of a printed object whose first member it is. -/
theorem ownId_print {id : Json} {later : List (Bytes × Json)} (hid : isExact id = true)
    (hne : later ≠ []) (hlater : isExactMembers later = true)
    (hother : ∀ member ∈ later, member.1 ≠ utf8 "id") :
    OwnId ((utf8 "id", id) :: later) id (print zero (.object ((utf8 "id", id) :: later)))
      [openBrace] (print zero id ++ comma :: (printMembers zero later ++ [closeBrace]))
      (comma :: (printMembers zero later ++ [closeBrace])) := by
  have hline : print zero (.object ((utf8 "id", id) :: later)) = openBrace :: (kKey ++ colon ::
      (print zero id ++ comma :: (printMembers zero later ++ [closeBrace]))) := by
    obtain ⟨member, later, rfl⟩ := List.exists_cons_of_ne_nil hne
    simp [print, printMembers, show printString (utf8 "id") = kKey by decide]
  rw [hline]
  exact @OwnId.mk [] _ _ _ _ _ [openBrace] _ _ _ [] later id (.inl rfl) (blank_nil _) .nil
    (blank_nil _) (blank_nil _) (blank_nil _) (derives_print id hid _)
    (.cons (blank_nil _) (derives_printMembers later hne hlater [closeBrace])) (blank_nil _) hother
    rfl

theorem nestingTooDeep_id_idFirst :
    (∀ library registry, serveLine library registry (print zero (.object idFirst)) =
      (match tooDeepReply (print zero (.object idFirst)) with
        | some reply => catching (writeMessage library reply) skip
        | none => skip)) ∧
      ∃ reply, tooDeepReply (print zero (.object idFirst)) = some reply ∧
        IsReply (.integer 1) reply := by
  have hown := @ownId_print (.integer 1) [(utf8 "jsonrpc", .text "2.0"), (utf8 "params", nest 128)]
    (by decide) nofun (by decide +kernel) (by
      show ∀ member ∈ [(utf8 "jsonrpc", _), (utf8 "params", _)], member.1 ≠ utf8 "id"
      simp [utf8_inj])
  have hfirst : ∀ place < [openBrace].length, ∀ value,
      ¬ IdMatch value ((print zero (.object idFirst)).drop place) := by
    rintro place hplace value ⟨rest, hrest, -⟩
    obtain rfl : place = 0 := Nat.lt_one_iff.mp hplace
    exact absurd (List.cons.inj hrest).1 (by decide)
  obtain ⟨hserved, hanswered⟩ := nestingTooDeep_id idFirst (.integer 1) _ _ _ _ hown trivial
    (by decide +kernel) hfirst nofun
  have hsome : (tooDeepReply (print zero (.object idFirst))).isSome = true := by decide +kernel
  obtain ⟨reply, hreply⟩ := Option.isSome_iff_exists.mp hsome
  exact ⟨hserved, reply, hreply, hanswered reply hreply⟩

/-- What is recovered is the `"id"` among the parameters. -/
def isSeven : Option Json → Bool
  | some (.integer value) => value == 7
  | _ => false

theorem idLast_answered : ¬ ∀ (line : Bytes) (members : List (Bytes × Json)) (id : Json),
    Document (.object members) line → (utf8 "jsonrpc", .text "2.0") ∈ members →
    (members.reverse.find? fun member => member.1 = utf8 "id") = some (utf8 "id", id) → IsId id →
    kMaxJsonDepth < (Json.object members).depth →
    ∀ reply, tooDeepReply line = some reply → reply.member? "id" = some id := by
  intro h
  have hrecovered : isSeven (tryRecoverId (print zero (.object idLast))) = true := by decide +kernel
  cases hread : tryRecoverId (print zero (.object idLast)) with
  | none => rw [hread] at hrecovered; cases hrecovered
  | some recovered =>
    have hid := h (print zero (.object idLast)) idLast (.integer 1)
      (document_print (by decide +kernel)) (by simp [idLast]) rfl trivial (by decide +kernel) _
      (by rw [tooDeepReply, hread]; rfl)
    rw [(isReply_makeNestingTooDeep recovered).id] at hid
    obtain rfl := Option.some.inj hid
    rw [hread] at hrecovered
    exact absurd hrecovered (by decide)

end ParseX.Mcp

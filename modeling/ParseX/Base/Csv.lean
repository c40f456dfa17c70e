import Mathlib.Data.List.Basic
import Mathlib.Data.String.Basic

/-! # RFC 4180 tables

A reader for tables of comma-separated records that end in CRLF. A field is
plain or stands between double quotes, where a doubled quote is one quote. The
reader is strict: a quote inside a plain field, a lone CR or LF outside quotes
and anything but a separator after a closing quote are errors. -/
namespace ParseX.Csv

/-- Where the reader is; the characters of the field so far. -/
inductive Place where
  | start
  | plain (field : List Char)
  | quoted (field : List Char)
  /-- After a quote between quotes: the field ends or the quote doubles. -/
  | closing (field : List Char)
  /-- After the CR of a record. -/
  | lineEnd
  deriving DecidableEq, Repr

abbrev Record := List String

structure Reader where
  place : Place := .start
  /-- The fields of the record so far. -/
  record : Record := []
  /-- The records that ended. -/
  records : List Record := []
  deriving DecidableEq, Repr

/-- A character that ends a field. -/
def endField (reader : Reader) (field : List Char) (c : Char) : Option Reader :=
  if c = ',' then some ⟨.start, reader.record ++ [String.ofList field], reader.records⟩
  else if c = '\r' then some ⟨.lineEnd, reader.record ++ [String.ofList field], reader.records⟩
  else none

/-- A character of a plain field, or one that ends it. -/
def plainChar (reader : Reader) (field : List Char) (c : Char) : Option Reader :=
  if c = ',' ∨ c = '\r' then endField reader field c
  else if c = '"' ∨ c = '\n' then none
  else some { reader with
    place := .plain (field ++ [c]) }

def step (reader : Reader) (c : Char) : Option Reader :=
  match reader.place with
  | .start =>
    if c = '"' then some { reader with
      place := .quoted [] }
    else plainChar reader [] c
  | .plain field => plainChar reader field c
  | .quoted field => some { reader with
      place := if c = '"' then .closing field else .quoted (field ++ [c]) }
  | .closing field =>
    if c = '"' then some { reader with
      place := .quoted (field ++ ['"']) }
    else endField reader field c
  | .lineEnd =>
    if c = '\n' then some ⟨.start, [], reader.records ++ [reader.record]⟩ else none

/-- The records at the end of the text; the last one may lack its CRLF. -/
def finish (reader : Reader) : Option (List Record) :=
  match reader.place with
  | .start => some (if reader.record = [] then reader.records
      else reader.records ++ [reader.record ++ [""]])
  | .plain field => some (reader.records ++ [reader.record ++ [String.ofList field]])
  | .closing field => some (reader.records ++ [reader.record ++ [String.ofList field]])
  | .quoted _ => none
  | .lineEnd => none

/-- The records of a text; `none` when it is no table. -/
def parse (text : String) : Option (List Record) := do
  let reader ← text.toList.foldlM step {}
  finish reader

/-! ## Reading what is written -/

/-- The characters a plain field cannot hold. -/
def isSpecial (c : Char) : Bool := c == ',' || c == '"' || c == '\r' || c == '\n'

/-- The characters of a field between quotes. -/
def doubleQuotes (field : List Char) : List Char :=
  field.flatMap fun c => if c = '"' then ['"', '"'] else [c]

/-- A text that stands for a field. -/
inductive Renders (field : String) : List Char → Prop
  | plain : (∀ c ∈ field.toList, isSpecial c = false) → Renders field field.toList
  | quoted : Renders field ('"' :: doubleQuotes field.toList ++ ['"'])

theorem plainChar_of_plain {c : Char} (hc : isSpecial c = false) (reader : Reader)
    (field : List Char) : plainChar reader field c = some { reader with
      place := .plain (field ++ [c]) } := by
  simp only [isSpecial, Bool.or_eq_false_iff, beq_eq_false_iff_ne] at hc
  obtain ⟨⟨⟨h1, h2⟩, h3⟩, h4⟩ := hc
  simp [plainChar, h1, h2, h3, h4]

theorem foldlM_plain (cs : List Char) (record : Record) (records : List Record) :
    ∀ field : List Char, (∀ c ∈ cs, isSpecial c = false) →
      cs.foldlM step ⟨.plain field, record, records⟩ =
        some ⟨.plain (field ++ cs), record, records⟩ := by
  induction cs with
  | nil => intro field _; simp
  | cons c cs ih =>
    intro field h
    obtain ⟨hc, hcs⟩ := List.forall_mem_cons.mp h
    have hstep : step ⟨.plain field, record, records⟩ c =
        some ⟨.plain (field ++ [c]), record, records⟩ := plainChar_of_plain hc _ _
    rw [List.foldlM_cons, hstep]
    simp [ih _ hcs]

theorem foldlM_quoted (cs : List Char) (record : Record) (records : List Record) :
    ∀ field : List Char, (doubleQuotes cs).foldlM step ⟨.quoted field, record, records⟩ =
      some ⟨.quoted (field ++ cs), record, records⟩ := by
  induction cs with
  | nil => intro field; simp [doubleQuotes]
  | cons c cs ih =>
    intro field
    rw [doubleQuotes, List.flatMap_cons, List.foldlM_append, ← doubleQuotes]
    by_cases hc : c = '"'
    · subst hc
      simp [step, ih]
    · simp [step, hc, ih]

/-- A field and the separator after it. -/
theorem foldlM_field {field : String} {text : List Char} (h : Renders field text) {c : Char}
    (hc : c = ',' ∨ c = '\r') (record : Record) (records : List Record) :
    (text ++ [c]).foldlM step ⟨.start, record, records⟩ =
      endField ⟨.start, record, records⟩ field.toList c := by
  have hq : c ≠ '"' := by rcases hc with rfl | rfl <;> decide
  rw [List.foldlM_append]
  cases h with
  | plain hplain =>
    cases hl : field.toList with
    | nil => simp [step, hq, plainChar, hc]
    | cons d ds =>
      rw [hl] at hplain
      obtain ⟨hd, hds⟩ := List.forall_mem_cons.mp hplain
      have hdq : d ≠ '"' := by rintro rfl; cases hd
      have hstep : step ⟨.start, record, records⟩ d =
          some ⟨.plain [d], record, records⟩ := by
        simp only [step, hdq, if_false]
        exact plainChar_of_plain hd _ _
      rw [List.foldlM_cons, hstep]
      simp [foldlM_plain ds record records [d] hds, step, plainChar, hc, endField]
  | quoted =>
    have hstep : step ⟨.start, record, records⟩ '"' = some ⟨.quoted [], record, records⟩ := rfl
    rw [List.cons_append, List.foldlM_cons, hstep]
    simp [List.foldlM_append, foldlM_quoted, step, hq, endField]

/-- The text of a record: rendered fields, commas between them and a CRLF. -/
inductive Row : Record → List Char → Prop
  | last {field : String} {text : List Char} : Renders field text →
      Row [field] (text ++ ['\r', '\n'])
  | cons {field : String} {fields : Record} {text rest : List Char} : Renders field text →
      Row fields rest → Row (field :: fields) (text ++ ',' :: rest)

theorem foldlM_row {fields : Record} {text : List Char} (h : Row fields text) :
    ∀ (record : Record) (records : List Record),
      text.foldlM step ⟨.start, record, records⟩ =
        some ⟨.start, [], records ++ [record ++ fields]⟩ := by
  induction h with
  | @last field text hfield =>
    intro record records
    rw [List.append_cons, List.foldlM_append, foldlM_field hfield (Or.inr rfl)]
    simp [endField, step]
  | @cons field fields text rest hfield _ ih =>
    intro record records
    rw [List.append_cons, List.foldlM_append, foldlM_field hfield (Or.inl rfl)]
    simp [endField, ih]

/-- The text of a table. -/
inductive Table : List Record → List Char → Prop
  | nil : Table [] []
  | cons {record : Record} {records : List Record} {row rest : List Char} : Row record row →
      Table records rest → Table (record :: records) (row ++ rest)

theorem Table.append {records records' : List Record} {text text' : List Char}
    (h : Table records text) (h' : Table records' text') :
    Table (records ++ records') (text ++ text') := by
  induction h with
  | nil => exact h'
  | cons hrow _ ih =>
    rw [List.cons_append, List.append_assoc]
    exact .cons hrow ih

theorem foldlM_table {records : List Record} {text : List Char} (h : Table records text) :
    ∀ done : List Record, text.foldlM step ⟨.start, [], done⟩ =
      some ⟨.start, [], done ++ records⟩ := by
  induction h with
  | nil => intro done; simp
  | cons hrow _ ih =>
    intro done
    rw [List.foldlM_append, foldlM_row hrow]
    simp [ih]

/-- The text of a table reads as its records. -/
theorem parse_table {records : List Record} {text : String} (h : Table records text.toList) :
    parse text = some records := by
  rw [parse, foldlM_table h []]
  simp [finish]

end ParseX.Csv

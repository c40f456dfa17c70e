import ParseX.JsonContract.Schemas
import ParseX.Telemetry.Threads

/-! # The trace as JSON

What `Trace::toJson` writes of a run meets the schema of telemetry reports. -/
namespace ParseX.Telemetry
open Cpp JsonSchema

/-! ## Writing -/

def SpanStatus.toText : SpanStatus → String
  | .unset => "unset"
  | .ok => "ok"
  | .error => "error"

def attributeValueToJson : AttributeValue → Json
  | .text value => .text value
  | .integer value => .integer value
  | .double bits => .double bits
  | .boolean value => .boolean value

/-- Root spans have no member for a parent; of two attributes with one key the later one stays. -/
def spanToJson (span : Span) : Json :=
  .ofPresent [("spanId", some (.integer span.id)),
    ("parentSpanId", span.parentId.map fun parent => Json.integer parent),
    ("name", some (.text span.name)), ("startNanos", some (.integer span.startNanos)),
    ("endNanos", some (.integer span.endNanos)),
    ("durationNanos", some (.integer (if span.startNanos ≤ span.endNanos
      then ((span.endNanos - span.startNanos : Nat) : Int) else 0))),
    ("status", some (.text span.status.toText)),
    ("attributes", some (.ofMembers (span.attributes.map fun attr =>
      (attr.key, attributeValueToJson attr.value))))]

/-- `Trace::toJson`. -/
def traceToJson (spans : List Span) : Json :=
  wrapEnvelope "telemetryReport" (.ofPresent [("spans", some (.array (spans.map spanToJson)))])

/-! ## One span -/

/-- What the schema asks of a span's names and ids. -/
structure Reportable (name : String) (id : SpanId) (parentId : Option SpanId) : Prop where
  name : name ≠ ""
  id : 1 ≤ id
  parent : ∀ parent, parentId = some parent → 1 ≤ parent

/-- The values of an object are those of the members it was made of. -/
theorem values_ofMembers {schema : Schema} {list : List (String × Json)}
    (h : ∀ entry ∈ list, schema entry.2 = true) : ∃ members, Json.ofMembers list = .object members ∧
      ∀ member ∈ members, schema member.2 = true := by
  have hfold : ∀ start : List (Bytes × Json), (∀ member ∈ start, schema member.2 = true) → ∃ members,
      list.foldl (fun (value : Json) member => value.set member.1 member.2) (.object start) =
        Json.object members ∧ ∀ member ∈ members, schema member.2 = true := by
    induction list with
    | nil => exact fun start hstart => ⟨start, rfl, hstart⟩
    | cons entry list ih =>
      obtain ⟨hentry, hlist⟩ := List.forall_mem_cons.mp h
      intro start hstart
      refine ih hlist (Json.insertMember (utf8 entry.1) entry.2 start) fun member hmember => ?_
      rcases Json.mem_insertMember hmember with rfl | hold
      · exact hentry
      · exact hstart member hold
  exact hfold [] fun member hmember => by cases hmember

theorem attributesSchema_ofMembers (attributes : List Attribute) :
    attributesSchema (.ofMembers (attributes.map fun attr => (attr.key, attributeValueToJson attr.value))) =
      true := by
  have hvalue (value : AttributeValue) :
      type [.string, .integer, .number, .boolean] (attributeValueToJson value) = true := by
    cases value <;> simp [attributeValueToJson, type, hasType, Json.text]
  obtain ⟨members, hmembers, hall⟩ := @values_ofMembers (type [.string, .integer, .number, .boolean])
    (attributes.map fun attr => (attr.key, attributeValueToJson attr.value)) fun entry hentry => by
      obtain ⟨attr, -, rfl⟩ := List.mem_map.mp hentry
      exact hvalue attr.value
  rw [hmembers]
  simp only [attributesSchema, allOf, List.all_cons, List.all_nil, Bool.and_true, Bool.and_eq_true]
  refine ⟨rfl, List.all_eq_true.mpr fun member hmember => ?_⟩
  rw [hall member hmember, Bool.or_true]

theorem spanSchema_spanToJson {span : Span} (h : Reportable span.name span.id span.parentId) :
    spanSchema (spanToJson span) = true := by
  have hdistinct : (["spanId", "parentSpanId", "name", "startNanos", "endNanos", "durationNanos", "status",
      "attributes"].map utf8).Nodup := by
    decide
  have hstatus : span.status.toText ∈ ["unset", "ok", "error"] := by
    cases span.status <;> decide
  have hparent : (span.parentId.map fun parent => Json.integer parent).all (integerFrom 1) = true := by
    cases hid : span.parentId with
    | none => rfl
    | some parent => exact integerFrom_natCast parent (Int.ofNat_le.mpr (h.parent parent hid))
  have hduration : integerFrom 0 (.integer (if span.startNanos ≤ span.endNanos
      then ((span.endNanos - span.startNanos : Nat) : Int) else 0)) = true := by
    split
    · exact integerFrom_natCast _ (Int.natCast_nonneg _)
    · rfl
  exact closedObject_ofPresent (by exact hdistinct) (by simp) rfl
    ⟨⟨_, rfl, integerFrom_natCast span.id (Int.ofNat_le.mpr h.id)⟩, ⟨_, rfl, hparent⟩,
      ⟨_, rfl, textOf_one h.name⟩, ⟨_, rfl, integerFrom_natCast span.startNanos (Int.natCast_nonneg _)⟩,
      ⟨_, rfl, integerFrom_natCast span.endNanos (Int.natCast_nonneg _)⟩, ⟨_, rfl, hduration⟩,
      ⟨_, rfl, typed_text (enum_text hstatus)⟩, ⟨_, rfl, attributesSchema_ofMembers span.attributes⟩, trivial⟩

theorem telemetryReportSchema_payload {spans : List Span}
    (h : ∀ span ∈ spans, Reportable span.name span.id span.parentId) :
    telemetryReportSchema (.ofPresent [("spans", some (.array (spans.map spanToJson)))]) = true := by
  have hdistinct : (["spans"].map utf8).Nodup := by decide
  exact closedObject_ofPresent (by exact hdistinct) (by simp) rfl
    ⟨⟨_, rfl, arrayOf_map fun span hspan => spanSchema_spanToJson (h span hspan)⟩, trivial⟩

/-! ## Every run -/

/-- A span that is constructed has a name. -/
def Act.Named : Act → Prop
  | .construct name _ _ => name ≠ ""
  | _ => True

instance decidableNamed : DecidablePred Act.Named
  | .construct name _ _ => inferInstanceAs (Decidable (name ≠ ""))
  | .destroy .. | .setAttribute .. | .setStatus .. | .setEnabled _ | .reset => isTrue trivial

/-- Everything recorded or still live can be reported. -/
structure Reporting (state : State) : Prop where
  next : 1 ≤ state.nextSpanId
  stack : ∀ id ∈ state.activeSpanStack, 1 ≤ id
  live : ∀ span ∈ state.live, span.active = true → Reportable span.name span.id span.parentId
  trace : ∀ span ∈ state.currentTrace, Reportable span.name span.id span.parentId

variable {origin : Int} {state later : State} {act : Act}

theorem mem_of_mem_popSpan {stack : List SpanId} {id other : SpanId} (h : other ∈ popSpan stack id) :
    other ∈ stack := by
  rw [popSpan] at h
  split at h
  · exact List.dropLast_subset _ h
  · exact List.mem_reverse.mp (List.mem_of_mem_erase (List.mem_reverse.mp h))

/-- A change of one item that keeps a property. -/
theorem forall_mem_modify {α : Type} {P : α → Prop} {f : α → α} (hkept : ∀ item, P item → P (f item))
    {items : List α} (h : ∀ item ∈ items, P item) (place : Nat) : ∀ item ∈ items.modify place f, P item := by
  induction items generalizing place with
  | nil =>
    rw [List.modify_nil]
    exact h
  | cons first items ih =>
    obtain ⟨hfirst, hitems⟩ := List.forall_mem_cons.mp h
    cases place with
    | zero =>
      rw [List.modify_zero_cons]
      exact List.forall_mem_cons.mpr ⟨hkept first hfirst, hitems⟩
    | succ place =>
      rw [List.modify_succ_cons]
      exact List.forall_mem_cons.mpr ⟨hfirst, ih hitems place⟩

/-- An active span can be reported. -/
def ScopedSpan.Reportable (span : ScopedSpan) : Prop :=
  span.active = true → Telemetry.Reportable span.name span.id span.parentId

theorem reportable_setAttribute (key : String) (value : AttributeValue) (span : ScopedSpan)
    (h : span.Reportable) : (span.setAttribute key value).Reportable := by
  rw [ScopedSpan.setAttribute]
  split
  · exact h
  · exact h

theorem reportable_setStatus (status : SpanStatus) (span : ScopedSpan) (h : span.Reportable) :
    (span.setStatus status).Reportable := by
  rw [ScopedSpan.setStatus]
  split
  · exact h
  · exact h

theorem Reporting.construct (h : Reporting state) {name : String} (hname : name ≠ "") (now : Int)
    (uncaught : Nat) : Reporting (construct state name now uncaught) := by
  rw [Telemetry.construct]
  split
  · have hopened : Telemetry.Reportable name state.nextSpanId state.activeSpanStack.getLast? :=
      ⟨hname, h.next, fun parent hparent => h.stack parent (List.mem_of_getLast? hparent)⟩
    refine ⟨Nat.le_succ_of_le h.next, ?_, ?_, h.trace⟩
    · exact List.forall_mem_append.mpr ⟨h.stack, fun id hid => List.mem_singleton.mp hid ▸ h.next⟩
    · refine List.forall_mem_append.mpr ⟨h.live, fun span hspan _ => ?_⟩
      rw [List.mem_singleton.mp hspan]
      exact hopened
  · refine ⟨h.next, h.stack, List.forall_mem_append.mpr ⟨h.live, fun span hspan hactive => ?_⟩, h.trace⟩
    rw [List.mem_singleton.mp hspan] at hactive
    cases hactive

theorem Reporting.destroy (h : Reporting state) {place : Nat} {span : ScopedSpan}
    (hspan : state.live[place]? = some span) (now : Int) (uncaught : Nat) :
    Reporting (destroy origin state place span now uncaught) := by
  have hlive : ∀ span ∈ state.live.eraseIdx place, span.active = true →
      Telemetry.Reportable span.name span.id span.parentId :=
    fun span hmem => h.live span (List.eraseIdx_subset hmem)
  rw [Telemetry.destroy]
  split
  · rename_i hactive
    refine ⟨h.next, fun id hid => h.stack id (mem_of_mem_popSpan hid), hlive,
      List.forall_mem_append.mpr ⟨h.trace, fun recorded hrecorded => ?_⟩⟩
    rw [List.mem_singleton.mp hrecorded]
    exact h.live span (List.mem_of_getElem? hspan) hactive
  · exact ⟨h.next, h.stack, hlive, h.trace⟩

theorem Reporting.step (h : Reporting state) (hnamed : act.Named)
    (hstep : step origin state act = some later) : Reporting later := by
  cases act with
  | construct name now uncaught =>
    rw [← Option.some.inj hstep]
    exact h.construct hnamed now uncaught
  | destroy place now uncaught =>
    obtain ⟨span, hspan, rfl⟩ := Option.map_eq_some_iff.mp hstep
    exact h.destroy hspan now uncaught
  | setAttribute place key value =>
    obtain ⟨-, hlater⟩ := Option.ite_none_right_eq_some.mp hstep
    rw [← Option.some.inj hlater]
    exact ⟨h.next, h.stack, forall_mem_modify (reportable_setAttribute key value) h.live place, h.trace⟩
  | setStatus place status =>
    obtain ⟨-, hlater⟩ := Option.ite_none_right_eq_some.mp hstep
    rw [← Option.some.inj hlater]
    exact ⟨h.next, h.stack, forall_mem_modify (reportable_setStatus status) h.live place, h.trace⟩
  | setEnabled enabled =>
    rw [← Option.some.inj hstep]
    exact ⟨h.next, h.stack, h.live, h.trace⟩
  | reset =>
    rw [← Option.some.inj hstep]
    exact ⟨h.next, h.stack, h.live, fun span hspan => by cases hspan⟩

theorem reporting_run {T : Type} [DecidableEq T] {start process : Process T} {opened : List (T × Link)}
    {recorded : List (T × Span)} (h : ∀ thread, Reporting (start.seenBy thread))
    (htrace : ∀ span ∈ start.currentTrace, Reportable span.name span.id span.parentId)
    (hrun : Process.Run origin Act.Named start opened recorded process) :
    (∀ thread, Reporting (process.seenBy thread)) ∧
      ∀ span ∈ process.currentTrace, Reportable span.name span.id span.parentId := by
  induction hrun with
  | nil => exact ⟨h, htrace⟩
  | snoc thread _ hnamed hstep ih =>
    obtain ⟨state, hstate, rfl⟩ := Option.map_eq_some_iff.mp hstep
    have hnext := (ih.1 thread).step hnamed hstate
    refine ⟨fun other => ?_, hnext.trace⟩
    by_cases hother : other = thread
    · rw [hother, Process.seenBy_after]
      exact hnext
    · rw [Process.seenBy_after_of_ne _ hother]
      exact ⟨hnext.next, (ih.1 other).stack, (ih.1 other).live, hnext.trace⟩

/-- **The trace of any run meets the contract**: whatever threads construct and end spans with names in
whatever order, and whenever the trace is reset, the report is an envelope that meets its schema. -/
theorem telemetry_report_conforms {T : Type} [DecidableEq T] (origin : Int) (opened : List (T × Link))
    (recorded : List (T × Span)) (process : Process T)
    (hrun : Process.Run origin Act.Named {} opened recorded process) :
    envelopeSchema (traceToJson process.currentTrace) = true := by
  have hstart (thread : T) : Reporting (Process.seenBy {} thread) :=
    ⟨Nat.le_refl 1, List.forall_mem_nil _, List.forall_mem_nil _, List.forall_mem_nil _⟩
  obtain ⟨-, htrace⟩ := reporting_run hstart (List.forall_mem_nil _) hrun
  exact envelopeSchema_wrapEnvelope (by decide) (telemetryReportSchema_payload htrace)

theorem telemetry_report_conforms_overlapping : ∃ opened recorded, ∃ process : Process Bool,
    Process.Run 0 Act.Named {} opened recorded process ∧
      process.currentTrace.map Span.name = ["diff", "load", "parse"] ∧
      envelopeSchema (traceToJson process.currentTrace) = true := by
  have hnamed : ∀ entry ∈ overlapping, entry.2.Named := by decide
  obtain ⟨opened, recorded, hrun⟩ : ∃ opened recorded,
      @Process.Run Bool _ 0 Act.Named {} opened recorded _ := run_of_acts hnamed rfl
  exact ⟨opened, recorded, _, hrun, rfl, telemetry_report_conforms 0 opened recorded _ hrun⟩

end ParseX.Telemetry

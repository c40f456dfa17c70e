import Mathlib.Algebra.Group.Int.Defs
import Mathlib.Data.List.Basic

/-! # Scoped spans

The spans of one thread: what their constructor and destructor do to the stack of the
active ones and to the trace. The span counter has 64 bits, which no process uses up. -/
namespace ParseX.Telemetry

abbrev SpanId := Nat

inductive AttributeValue where
  | text (value : String)
  | integer (value : Int)
  /-- The bits of a double. -/
  | double (bits : UInt64)
  | boolean (value : Bool)
  deriving DecidableEq, Repr

structure Attribute where
  key : String
  value : AttributeValue
  deriving DecidableEq, Repr

inductive SpanStatus where
  | unset
  | ok
  | error
  deriving DecidableEq, Repr

/-- A recorded span. -/
structure Span where
  name : String
  id : SpanId
  parentId : Option SpanId
  startNanos : Nat
  endNanos : Nat
  attributes : List Attribute
  status : SpanStatus
  deriving DecidableEq, Repr

/-- A span object; one constructed while telemetry is disabled stays as it is here. -/
structure ScopedSpan where
  name : String := ""
  id : SpanId := 0
  parentId : Option SpanId := none
  startPoint : Int := 0
  attributes : List Attribute := []
  status : SpanStatus := .unset
  statusExplicit : Bool := false
  uncaughtAtConstruct : Nat := 0
  active : Bool := false
  deriving DecidableEq, Repr

/-- What the spans share, and the live ones in the order of their construction. -/
structure State where
  enabled : Bool := false
  nextSpanId : SpanId := 1
  /-- The innermost comes last. -/
  activeSpanStack : List SpanId := []
  currentTrace : List Span := []
  live : List ScopedSpan := []
  deriving DecidableEq, Repr

/-! ## Spans -/

/-- The constructor, at a time and with the exceptions in flight. -/
def construct (state : State) (name : String) (now : Int) (uncaught : Nat) : State :=
  if state.enabled then
    let span : ScopedSpan :=
      { active := true, name, id := state.nextSpanId, parentId := state.activeSpanStack.getLast?,
        startPoint := now, uncaughtAtConstruct := uncaught }
    { state with
      nextSpanId := state.nextSpanId + 1
      activeSpanStack := state.activeSpanStack ++ [span.id]
      live := state.live ++ [span] }
  else { state with live := state.live ++ [{}] }

/-- The 64 bits of the nanoseconds between two points. -/
def nanosSince (point origin : Int) : Nat := ((point - origin) % 2 ^ 64).toNat

def finalStatus (span : ScopedSpan) (uncaught : Nat) : SpanStatus :=
  if span.statusExplicit then span.status
  else if span.uncaughtAtConstruct < uncaught then .error
  else .ok

/-- The span that `finalize` records. -/
def finished (origin : Int) (span : ScopedSpan) (now : Int) (uncaught : Nat) : Span where
  name := span.name
  id := span.id
  parentId := span.parentId
  startNanos := nanosSince span.startPoint origin
  endNanos := nanosSince now origin
  attributes := span.attributes
  status := finalStatus span uncaught

/-- How `finalize` takes an id off the stack: from the top, or the last one below it. -/
def popSpan (stack : List SpanId) (id : SpanId) : List SpanId :=
  if stack.getLast? = some id then stack.dropLast else (stack.reverse.erase id).reverse

/-- The destructor of a live span. -/
def destroy (origin : Int) (state : State) (place : Nat) (span : ScopedSpan) (now : Int)
    (uncaught : Nat) : State :=
  if span.active then
    { state with
      activeSpanStack := popSpan state.activeSpanStack span.id
      currentTrace := state.currentTrace ++ [finished origin span now uncaught]
      live := state.live.eraseIdx place }
  else { state with live := state.live.eraseIdx place }

def ScopedSpan.setAttribute (key : String) (value : AttributeValue) (span : ScopedSpan) :
    ScopedSpan :=
  if span.active then { span with attributes := span.attributes ++ [⟨key, value⟩] } else span

def ScopedSpan.setStatus (status : SpanStatus) (span : ScopedSpan) : ScopedSpan :=
  if span.active then { span with status, statusExplicit := true } else span

/-! ## Runs -/

/-- What a thread does; a live span is named by its place among the live ones. -/
inductive Act where
  | construct (name : String) (now : Int) (uncaught : Nat)
  | destroy (place : Nat) (now : Int) (uncaught : Nat)
  | setAttribute (place : Nat) (key : String) (value : AttributeValue)
  | setStatus (place : Nat) (status : SpanStatus)
  | setEnabled (enabled : Bool)
  | reset
  deriving DecidableEq, Repr

/-- One step; none where there is no such span. -/
def step (origin : Int) (state : State) : Act → Option State
  | .construct name now uncaught => some (construct state name now uncaught)
  | .destroy place now uncaught =>
    (state.live[place]?).map fun span => destroy origin state place span now uncaught
  | .setAttribute place key value =>
    if place < state.live.length then
      some { state with live := state.live.modify place (·.setAttribute key value) }
    else none
  | .setStatus place status =>
    if place < state.live.length then
      some { state with live := state.live.modify place (·.setStatus status) }
    else none
  | .setEnabled enabled => some { state with enabled }
  | .reset => some { state with currentTrace := [] }

/-- The ids of the live spans constructed while enabled, in construction order. -/
def State.liveIds (state : State) : List SpanId :=
  (state.live.filter ScopedSpan.active).map ScopedSpan.id

/-- A span's id and its parent's. -/
abbrev Link := SpanId × Option SpanId

def ScopedSpan.link (span : ScopedSpan) : Link := (span.id, span.parentId)

def Span.link (span : Span) : Link := (span.id, span.parentId)

def State.liveLinks (state : State) : List Link :=
  (state.live.filter ScopedSpan.active).map ScopedSpan.link

/-- The span that an act constructs while enabled, below the innermost live one. -/
def openedBy (state : State) : Act → List Link
  | .construct .. => if state.enabled then [(state.nextSpanId, state.liveIds.getLast?)] else []
  | _ => []

/-- The span that an act records. -/
def recordedBy (origin : Int) (state : State) : Act → List Span
  | .destroy place now uncaught =>
    match state.live[place]? with
    | some span => if span.active then [finished origin span now uncaught] else []
    | none => []
  | _ => []

/-- A run of allowed acts, with the spans that it constructs while enabled and those
that it records. -/
inductive Run (origin : Int) (allowed : Act → Prop) (start : State) :
    List Link → List Span → State → Prop where
  | nil : Run origin allowed start [] [] start
  | snoc {opened : List Link} {recorded : List Span} {state next : State} {act : Act} :
      Run origin allowed start opened recorded state → allowed act →
      step origin state act = some next →
      Run origin allowed start (opened ++ openedBy state act)
        (recorded ++ recordedBy origin state act) next

end ParseX.Telemetry

import Mathlib.Logic.Function.Basic
import ParseX.Telemetry.Forest

/-! # Spans of several threads

Each thread has a stack of its own; the switch, the span counter and the trace are shared. A thread's
acts are whole: the counter is atomic, and a trace that two threads extend at the same instant is
outside the model. -/
namespace ParseX.Telemetry

structure Thread where
  /-- The innermost comes last. -/
  activeSpanStack : List SpanId := []
  live : List ScopedSpan := []

structure Process (T : Type) where
  enabled : Bool := false
  nextSpanId : SpanId := 1
  currentTrace : List Span := []
  threads : T → Thread := fun _ => {}

variable {T : Type} [DecidableEq T]

/-- What a thread sees of the process. -/
def Process.seenBy (process : Process T) (thread : T) : State where
  enabled := process.enabled
  nextSpanId := process.nextSpanId
  activeSpanStack := (process.threads thread).activeSpanStack
  currentTrace := process.currentTrace
  live := (process.threads thread).live

/-- The process when a thread has come to a state. -/
def Process.after (process : Process T) (thread : T) (state : State) : Process T where
  enabled := state.enabled
  nextSpanId := state.nextSpanId
  currentTrace := state.currentTrace
  threads := Function.update process.threads thread ⟨state.activeSpanStack, state.live⟩

def Process.step (origin : Int) (process : Process T) (thread : T) (act : Act) : Option (Process T) :=
  (Telemetry.step origin (process.seenBy thread) act).map (process.after thread)

theorem Process.seenBy_after (process : Process T) (thread : T) (state : State) :
    (process.after thread state).seenBy thread = state := by
  simp [seenBy, after]

theorem Process.seenBy_after_of_ne (process : Process T) {thread other : T} (hne : other ≠ thread)
    (state : State) :
    (process.after thread state).seenBy other =
      { process.seenBy other with
        enabled := state.enabled
        nextSpanId := state.nextSpanId
        currentTrace := state.currentTrace } := by
  simp [seenBy, after, hne]

/-! ## Runs -/

/-- A run of allowed acts of any threads in any order, with the spans that each thread constructs while
enabled and those that it records. -/
inductive Process.Run (origin : Int) (allowed : Act → Prop) (start : Process T) :
    List (T × Link) → List (T × Span) → Process T → Prop where
  | nil : Process.Run origin allowed start [] [] start
  | snoc {opened : List (T × Link)} {recorded : List (T × Span)} {process next : Process T} {act : Act}
      (thread : T) : Process.Run origin allowed start opened recorded process → allowed act →
      process.step origin thread act = some next →
      Process.Run origin allowed start
        (opened ++ (openedBy (process.seenBy thread) act).map (Prod.mk thread))
        (recorded ++ (recordedBy origin (process.seenBy thread) act).map (Prod.mk thread)) next

/-- What a list holds of one thread. -/
def ofThread {α : Type} (thread : T) (items : List (T × α)) : List α :=
  (items.filter (·.1 = thread)).map Prod.snd

theorem ofThread_append {α : Type} (thread : T) (items more : List (T × α)) :
    ofThread thread (items ++ more) = ofThread thread items ++ ofThread thread more := by
  rw [ofThread, List.filter_append, List.map_append]
  rfl

theorem ofThread_same {α : Type} (thread : T) (items : List α) :
    ofThread thread (items.map (Prod.mk thread)) = items := by
  rw [ofThread, List.filter_eq_self.mpr (by simp), List.map_map]
  exact List.map_id _

theorem ofThread_other {α : Type} {thread other : T} (hne : other ≠ thread) (items : List α) :
    ofThread other (items.map (Prod.mk thread)) = [] := by
  rw [ofThread, List.filter_eq_nil_iff.mpr, List.map_nil]
  intro item hitem
  obtain ⟨value, -, rfl⟩ := List.mem_map.mp hitem
  simpa using hne.symm

theorem mem_ofThread {α : Type} {thread : T} {items : List (T × α)} {item : α} :
    item ∈ ofThread thread items ↔ (thread, item) ∈ items := by
  simp [ofThread]

/-! ## Every run -/

/-- Ids grow for the others too while a thread works. -/
theorem Nested.frame {opened : List Link} {recorded : List Span} {state later : State}
    (h : Nested opened recorded state) (hstack : later.activeSpanStack = state.activeSpanStack)
    (hlive : later.live = state.live) (hnext : state.nextSpanId ≤ later.nextSpanId) :
    Nested opened recorded later := by
  have hlinks : later.liveLinks = state.liveLinks := by rw [State.liveLinks, hlive, State.liveLinks]
  have hids : later.liveIds = state.liveIds := by rw [State.liveIds, hlive, State.liveIds]
  exact ⟨by rw [hstack, hids, h.stack], hlinks ▸ h.accounted, h.distinct,
    fun link hlink => Nat.lt_of_lt_of_le (h.numbered link hlink) hnext, h.parents⟩

/-- What holds after every run of the threads. -/
structure ThreadsNested (opened : List (T × Link)) (recorded : List (T × Span)) (process : Process T) :
    Prop where
  each : ∀ thread, Nested (ofThread thread opened) (ofThread thread recorded) (process.seenBy thread)
  distinct : (opened.map (·.2.1)).Nodup
  /-- A parent was constructed by the thread of its child. -/
  kin : ∀ entry ∈ opened, ∀ parent, entry.2.2 = some parent →
    ∃ link ∈ ofThread entry.1 opened, link.1 = parent

theorem threadsNested_initial : ThreadsNested [] [] ({} : Process T) :=
  ⟨fun _ => nested_initial, .nil, fun _ hentry => by cases hentry⟩

variable {origin : Int} {allowed : Act → Prop} {process next start : Process T} {thread : T} {act : Act}
  {opened opened' : List (T × Link)} {recorded recorded' : List (T × Span)}

theorem step_nextSpanId {state later : State} (h : Telemetry.step origin state act = some later) :
    state.nextSpanId ≤ later.nextSpanId := by
  cases step_effect h with
  | opens _ _ _ _ hnext => exact hnext ▸ Nat.le_succ _
  | records _ _ _ _ _ _ _ _ hnext => exact Nat.le_of_eq hnext.symm
  | quiet _ _ _ _ hnext => exact Nat.le_of_eq hnext.symm

/-- Every act of every thread keeps it. -/
theorem ThreadsNested.step (h : ThreadsNested opened recorded process)
    (hstep : process.step origin thread act = some next) :
    ThreadsNested (opened ++ (openedBy (process.seenBy thread) act).map (Prod.mk thread))
      (recorded ++ (recordedBy origin (process.seenBy thread) act).map (Prod.mk thread)) next := by
  obtain ⟨state, hstate, rfl⟩ := Option.map_eq_some_iff.mp hstep
  have hown := (h.each thread).step hstate
  have hnumbered : ∀ entry ∈ opened, entry.2.1 < process.nextSpanId := fun entry hentry =>
    (h.each entry.1).numbered entry.2 (mem_ofThread.mpr hentry)
  refine ⟨fun other => ?_, ?_, ?_⟩
  · rw [ofThread_append, ofThread_append]
    by_cases hother : other = thread
    · rw [hother, ofThread_same, ofThread_same, process.seenBy_after]
      exact hown
    · rw [ofThread_other hother, ofThread_other hother, List.append_nil, List.append_nil]
      rw [process.seenBy_after_of_ne hother]
      have hle := step_nextSpanId hstate
      exact (h.each other).frame rfl rfl hle
  · rw [List.map_append, List.nodup_append]
    refine ⟨h.distinct, ?_, fun id hid other hother => ?_⟩
    · rw [List.map_map]
      have hopened := (hown.distinct)
      rw [List.map_append, List.nodup_append] at hopened
      exact hopened.2.1
    · obtain ⟨entry, hentry, rfl⟩ := List.mem_map.mp hid
      rw [List.map_map, List.mem_map] at hother
      obtain ⟨link, hlink, rfl⟩ := hother
      have hlt := hnumbered entry hentry
      cases step_effect hstate with
      | opens hopened =>
        rw [hopened, List.mem_singleton] at hlink
        rw [hlink]
        exact Nat.ne_of_lt hlt
      | records _ _ _ hopened =>
        rw [hopened] at hlink
        cases hlink
      | quiet hopened =>
        rw [hopened] at hlink
        cases hlink
  · rw [List.forall_mem_append]
    have hsub {other : T} {link : Link} (hlink : link ∈ ofThread other opened) :
        link ∈ ofThread other (opened ++ (openedBy (process.seenBy thread) act).map (Prod.mk thread)) := by
      rw [ofThread_append]
      exact List.mem_append_left _ hlink
    refine ⟨fun entry hentry parent hparent => ?_, fun entry hentry parent hparent => ?_⟩
    · obtain ⟨link, hlink, hid⟩ := h.kin entry hentry parent hparent
      exact ⟨link, hsub hlink, hid⟩
    · obtain ⟨link, hlink, rfl⟩ := List.mem_map.mp hentry
      cases step_effect hstate with
      | opens hopened =>
        rw [hopened, List.mem_singleton] at hlink
        rw [hlink] at hparent
        have hmem := List.mem_of_getLast? hparent
        rw [State.liveIds_eq] at hmem
        obtain ⟨above, habove, hid⟩ := List.mem_map.mp hmem
        exact ⟨above, hsub ((h.each thread).mem_of_live habove), hid⟩
      | records _ _ _ hopened =>
        rw [hopened] at hlink
        cases hlink
      | quiet hopened =>
        rw [hopened] at hlink
        cases hlink

theorem ThreadsNested.run (h : ThreadsNested opened recorded start)
    (hrun : Process.Run origin allowed start opened' recorded' process) :
    ThreadsNested (opened ++ opened') (recorded ++ recorded') process := by
  induction hrun with
  | nil => rwa [List.append_nil, List.append_nil]
  | snoc thread _ _ hstep ih =>
    rw [← List.append_assoc, ← List.append_assoc]
    exact ih.step hstep

/-- Without a reset the trace is what the threads recorded, in that order. -/
theorem Process.currentTrace_run
    (hrun : Process.Run origin (· ≠ .reset) start opened recorded process) :
    process.currentTrace = start.currentTrace ++ recorded.map Prod.snd := by
  induction hrun with
  | nil => simp
  | snoc thread _ hact hstep ih =>
    obtain ⟨state, hstate, rfl⟩ := Option.map_eq_some_iff.mp hstep
    have hsame {α : Type} (items : List α) : (items.map (Prod.mk thread)).map Prod.snd = items := by
      rw [List.map_map]
      exact List.map_id _
    rw [List.map_append, hsame, ← List.append_assoc, ← ih]
    exact currentTrace_step hact hstate

/-- **Threads do not take each other's spans for their own.** In every order of whole acts each thread's stack
is its own live spans, each span constructed while enabled is live or recorded once by its thread, no two
threads share an id, a span's parent is an earlier span of the same thread, and the trace holds what the
threads recorded. -/
theorem threads_form_forests (origin : Int) (opened : List (T × Link)) (recorded : List (T × Span))
    (process : Process T) (hrun : Process.Run origin (· ≠ .reset) {} opened recorded process) :
    (∀ thread, (process.threads thread).activeSpanStack = (process.seenBy thread).liveIds ∧
      (ofThread thread opened).Perm
        ((ofThread thread recorded).map Span.link ++ (process.seenBy thread).liveLinks)) ∧
      (opened.map (·.2.1)).Nodup ∧
      (∀ entry ∈ opened, ∀ parent, entry.2.2 = some parent →
        parent < entry.2.1 ∧ ∃ link ∈ ofThread entry.1 opened, link.1 = parent) ∧
      process.currentTrace = recorded.map Prod.snd := by
  have h := threadsNested_initial.run hrun
  rw [List.nil_append, List.nil_append] at h
  refine ⟨fun thread => ⟨(h.each thread).stack, (h.each thread).accounted⟩, h.distinct,
    fun entry hentry parent hparent => ⟨?_, h.kin entry hentry parent hparent⟩, ?_⟩
  · exact (h.each entry.1).parents entry.2 (mem_ofThread.mpr hentry) parent hparent
  · exact Process.currentTrace_run hrun

/-- The spans of two threads whose times overlap. -/
def overlapping : List (Bool × Act) :=
  [(true, .setEnabled true), (true, .construct "parse" 1 0), (false, .construct "diff" 2 0),
    (true, .construct "load" 3 0), (false, .destroy 0 4 0), (true, .destroy 1 5 0), (true, .destroy 0 6 0)]

theorem run_of_acts {acts : List (T × Act)} (hallowed : ∀ entry ∈ acts, allowed entry.2)
    (h : acts.foldlM (fun process entry => process.step origin entry.1 entry.2) start = some process) :
    ∃ opened recorded, Process.Run origin allowed start opened recorded process := by
  induction acts using List.reverseRecOn generalizing process with
  | nil => exact ⟨[], [], (Option.some.inj h) ▸ .nil⟩
  | append_singleton acts entry ih =>
    obtain ⟨hbefore, hlast⟩ := List.forall_mem_append.mp hallowed
    rw [List.foldlM_append] at h
    obtain ⟨before, hsteps, hstep⟩ := Option.bind_eq_some_iff.mp h
    obtain ⟨opened, recorded, hrun⟩ := ih hbefore hsteps
    exact ⟨_, _, hrun.snoc entry.1 (hlast entry (List.mem_singleton_self _)) (by simpa using hstep)⟩

theorem threads_form_forests_overlapping : ∃ opened recorded process,
    Process.Run 0 (· ≠ .reset) {} opened recorded process ∧
      process.currentTrace.map Span.link = [(2, none), (3, some 1), (1, none)] ∧
      (opened.map fun entry : Bool × Link => entry.2.1).Nodup ∧
      process.currentTrace = recorded.map Prod.snd := by
  obtain ⟨opened, recorded, hrun⟩ : ∃ opened recorded,
      Process.Run 0 (· ≠ .reset) {} opened recorded _ :=
    run_of_acts (by decide : ∀ entry ∈ overlapping, entry.2 ≠ .reset) rfl
  obtain ⟨-, hdistinct, -, htrace⟩ := threads_form_forests 0 opened recorded _ hrun
  exact ⟨opened, recorded, _, hrun, rfl, hdistinct, htrace⟩

end ParseX.Telemetry

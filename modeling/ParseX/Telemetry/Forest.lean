import Mathlib.Data.List.Induction
import Mathlib.Data.List.Nodup
import Mathlib.Data.List.Perm.Basic
import ParseX.Telemetry.ScopedSpan

/-! # Spans form a forest

Whatever order the spans of a thread end in, and whenever telemetry is switched: every
span is recorded once, below the span that was innermost when it was constructed. -/
namespace ParseX.Telemetry

variable {origin : Int} {allowed : Act → Prop} {start state next : State} {act : Act}
  {opened opened' : List Link} {recorded recorded' : List Span}

/-! ## The stack -/

theorem popSpan_middle {before after : List SpanId} {id : SpanId}
    (h : (before ++ id :: after).Nodup) : popSpan (before ++ id :: after) id = before ++ after := by
  rw [popSpan]
  have hafter : id ∉ after := (List.nodup_cons.mp (List.nodup_append.mp h).2.1).1
  rcases List.eq_nil_or_concat after with rfl | ⟨inner, last, rfl⟩
  · rw [if_pos (List.getLast?_concat ..), List.dropLast_concat, List.append_nil]
  · rw [List.concat_eq_append] at hafter ⊢
    have hlast : (before ++ id :: (inner ++ [last])).getLast? = some last := by
      rw [← List.cons_append, ← List.append_assoc, List.getLast?_concat]
    have hne : last ≠ id := by
      rintro rfl
      exact hafter (List.mem_append_right _ (List.mem_singleton_self _))
    rw [hlast, if_neg fun heq => hne (Option.some.inj heq), List.reverse_append, List.reverse_cons,
      List.append_assoc, List.erase_append_right _ (fun hmem => hafter (List.mem_reverse.mp hmem))]
    simp

/-! ## Live spans -/

theorem State.liveIds_eq (state : State) : state.liveIds = state.liveLinks.map Prod.fst := by
  rw [liveIds, liveLinks, List.map_map]
  rfl

/-- Attributes and statuses change no link. -/
theorem liveLinks_modify {f : ScopedSpan → ScopedSpan} (hactive : ∀ span, (f span).active = span.active)
    (hlink : ∀ span, (f span).link = span.link) (live : List ScopedSpan) (place : Nat) :
    ((live.modify place f).filter ScopedSpan.active).map ScopedSpan.link =
      (live.filter ScopedSpan.active).map ScopedSpan.link := by
  induction live generalizing place with
  | nil => rw [List.modify_nil]
  | cons span live ih =>
    cases place with
    | zero =>
      rw [List.modify_zero_cons, List.filter_cons, List.filter_cons, hactive]
      split
      · rw [List.map_cons, List.map_cons, hlink]
      · rfl
    | succ place =>
      rw [List.modify_succ_cons, List.filter_cons, List.filter_cons]
      split
      · rw [List.map_cons, List.map_cons, ih]
      · exact ih place

theorem setAttribute_link (key : String) (value : AttributeValue) (span : ScopedSpan) :
    (span.setAttribute key value).active = span.active ∧
      (span.setAttribute key value).link = span.link := by
  rw [ScopedSpan.setAttribute]
  split <;> exact ⟨rfl, rfl⟩

theorem setStatus_link (status : SpanStatus) (span : ScopedSpan) :
    (span.setStatus status).active = span.active ∧ (span.setStatus status).link = span.link := by
  rw [ScopedSpan.setStatus]
  split <;> exact ⟨rfl, rfl⟩

/-! ## One step -/

/-- What a step can do: open a span, record one, or neither. -/
inductive Effect (origin : Int) (state : State) (act : Act) (next : State) : Prop where
  | opens : openedBy state act = [(state.nextSpanId, state.liveIds.getLast?)] →
      recordedBy origin state act = [] →
      next.liveLinks = state.liveLinks ++ [(state.nextSpanId, state.activeSpanStack.getLast?)] →
      next.activeSpanStack = state.activeSpanStack ++ [state.nextSpanId] →
      next.nextSpanId = state.nextSpanId + 1 → next.currentTrace = state.currentTrace →
      Effect origin state act next
  | records (before after : List Link) (span : Span) : openedBy state act = [] →
      recordedBy origin state act = [span] → state.liveLinks = before ++ span.link :: after →
      next.liveLinks = before ++ after →
      next.activeSpanStack = popSpan state.activeSpanStack span.id →
      next.nextSpanId = state.nextSpanId → next.currentTrace = state.currentTrace ++ [span] →
      Effect origin state act next
  | quiet : openedBy state act = [] → recordedBy origin state act = [] →
      next.liveLinks = state.liveLinks → next.activeSpanStack = state.activeSpanStack →
      next.nextSpanId = state.nextSpanId →
      (next.currentTrace = state.currentTrace ∨ act = .reset) → Effect origin state act next

theorem effect_construct (name : String) (now : Int) (uncaught : Nat) :
    Effect origin state (.construct name now uncaught) (construct state name now uncaught) := by
  cases henabled : state.enabled with
  | true =>
    refine .opens ?_ rfl ?_ ?_ ?_ ?_
    · simp [openedBy, henabled]
    all_goals simp [construct, henabled, State.liveLinks, ScopedSpan.link]
  | false =>
    refine .quiet ?_ rfl ?_ ?_ ?_ (.inl ?_)
    · simp [openedBy, henabled]
    all_goals simp [construct, henabled, State.liveLinks]

theorem effect_destroy {place : Nat} {span : ScopedSpan} (h : state.live[place]? = some span)
    (now : Int) (uncaught : Nat) : Effect origin state (.destroy place now uncaught)
      (destroy origin state place span now uncaught) := by
  obtain ⟨hplace, hspan⟩ := List.getElem?_eq_some_iff.mp h
  have hsplit : state.live = state.live.take place ++ span :: state.live.drop (place + 1) := by
    rw [← hspan, List.getElem_cons_drop, List.take_append_drop]
  have herase : state.live.eraseIdx place = state.live.take place ++ state.live.drop (place + 1) :=
    List.eraseIdx_eq_take_drop_succ ..
  cases hactive : span.active with
  | true =>
    refine .records (((state.live.take place).filter ScopedSpan.active).map ScopedSpan.link)
      (((state.live.drop (place + 1)).filter ScopedSpan.active).map ScopedSpan.link)
      (finished origin span now uncaught) rfl ?_ ?_ ?_ ?_ ?_ ?_
    · simp [recordedBy, h, hactive]
    · rw [State.liveLinks]
      conv_lhs => rw [hsplit]
      simp [hactive]
      rfl
    · simp [destroy, hactive, State.liveLinks, herase]
    all_goals simp [destroy, hactive, finished]
  | false =>
    refine .quiet rfl ?_ ?_ ?_ ?_ (.inl ?_)
    · simp [recordedBy, h, hactive]
    · rw [State.liveLinks, State.liveLinks]
      conv_rhs => rw [hsplit]
      simp [destroy, hactive, herase]
    all_goals simp [destroy, hactive]

theorem step_effect (h : step origin state act = some next) : Effect origin state act next := by
  cases act with
  | construct name now uncaught =>
    rw [← Option.some.inj h]
    exact effect_construct name now uncaught
  | destroy place now uncaught =>
    obtain ⟨span, hspan, rfl⟩ := Option.map_eq_some_iff.mp h
    exact effect_destroy hspan now uncaught
  | setAttribute place key value =>
    rw [step] at h
    split at h
    · rw [← Option.some.inj h]
      exact .quiet rfl rfl (liveLinks_modify (fun span => (setAttribute_link key value span).1)
        (fun span => (setAttribute_link key value span).2) ..) rfl rfl (.inl rfl)
    · cases h
  | setStatus place status =>
    rw [step] at h
    split at h
    · rw [← Option.some.inj h]
      exact .quiet rfl rfl (liveLinks_modify (fun span => (setStatus_link status span).1)
        (fun span => (setStatus_link status span).2) ..) rfl rfl (.inl rfl)
    · cases h
  | setEnabled enabled =>
    rw [← Option.some.inj h]
    exact .quiet rfl rfl rfl rfl rfl (.inl rfl)
  | reset =>
    rw [← Option.some.inj h]
    exact .quiet rfl rfl rfl rfl rfl (.inr rfl)

/-! ## Every run -/

/-- What holds after every run, of the spans constructed while enabled and of those recorded. -/
structure Nested (opened : List Link) (recorded : List Span) (state : State) : Prop where
  stack : state.activeSpanStack = state.liveIds
  accounted : opened.Perm (recorded.map Span.link ++ state.liveLinks)
  distinct : (opened.map Prod.fst).Nodup
  numbered : ∀ link ∈ opened, link.1 < state.nextSpanId
  parents : ∀ link ∈ opened, ∀ parent, link.2 = some parent → parent < link.1

theorem nested_initial : Nested [] [] {} := ⟨rfl, .nil, .nil, nofun, nofun⟩

theorem Nested.mem_of_live {opened : List Link} {recorded : List Span} {state : State}
    (h : Nested opened recorded state) {link : Link} (hlink : link ∈ state.liveLinks) :
    link ∈ opened :=
  h.accounted.mem_iff.mpr (List.mem_append_right _ hlink)

theorem Nested.nodup_live (h : Nested opened recorded state) :
    (state.liveLinks.map Prod.fst).Nodup := by
  have hall := (h.accounted.map Prod.fst).nodup_iff.mp h.distinct
  rw [List.map_append] at hall
  exact (List.nodup_append.mp hall).2.1

/-- Every step keeps it. -/
theorem Nested.step (h : Nested opened recorded state) (hstep : step origin state act = some next) :
    Nested (opened ++ openedBy state act) (recorded ++ recordedBy origin state act) next := by
  cases step_effect hstep with
  | opens hopened hrecorded hlive hstack hnext htrace =>
    rw [hopened, hrecorded, List.append_nil]
    have hparent : ∀ parent, state.liveIds.getLast? = some parent → parent < state.nextSpanId := by
      intro parent hlast
      have hmem := List.mem_of_getLast? hlast
      rw [State.liveIds_eq] at hmem
      obtain ⟨link, hlink, rfl⟩ := List.mem_map.mp hmem
      exact h.numbered link (h.mem_of_live hlink)
    refine ⟨?_, ?_, ?_, ?_, ?_⟩
    · rw [hstack, State.liveIds_eq, hlive, List.map_append, h.stack, State.liveIds_eq]
      rfl
    · rw [hlive, h.stack, ← List.append_assoc]
      exact h.accounted.append_right _
    · rw [List.map_append, List.nodup_append]
      refine ⟨h.distinct, List.nodup_singleton _, fun id hid other hother heq => ?_⟩
      obtain ⟨link, hlink, rfl⟩ := List.mem_map.mp hid
      rw [List.map_singleton, List.mem_singleton] at hother
      exact absurd (heq.trans hother) (Nat.ne_of_lt (h.numbered link hlink))
    · rw [hnext, List.forall_mem_append]
      refine ⟨fun link hlink => Nat.lt_succ_of_lt (h.numbered link hlink), fun link hlink => ?_⟩
      rw [List.mem_singleton.mp hlink]
      exact Nat.lt_succ_self _
    · rw [List.forall_mem_append]
      refine ⟨h.parents, fun link hlink => ?_⟩
      rw [List.mem_singleton.mp hlink]
      exact hparent
  | records before after span hopened hrecorded hbefore hlive hstack hnext htrace =>
    rw [hopened, hrecorded, List.append_nil]
    refine ⟨?_, ?_, h.distinct, hnext ▸ h.numbered, h.parents⟩
    · have hnodup := h.nodup_live
      rw [hbefore, List.map_append, List.map_cons] at hnodup
      rw [hstack, h.stack, State.liveIds_eq, State.liveIds_eq, hbefore, hlive, List.map_append,
        List.map_cons, List.map_append]
      exact popSpan_middle hnodup
    · refine h.accounted.trans ?_
      rw [hbefore, hlive, List.map_append, List.append_assoc]
      exact List.perm_middle.append_left _
  | quiet hopened hrecorded hlive hstack hnext htrace =>
    rw [hopened, hrecorded, List.append_nil, List.append_nil]
    refine ⟨?_, hlive ▸ h.accounted, h.distinct, hnext ▸ h.numbered, h.parents⟩
    rw [hstack, h.stack, State.liveIds_eq, State.liveIds_eq, hlive]

theorem Nested.run (h : Nested opened recorded start)
    (hrun : Run origin allowed start opened' recorded' state) :
    Nested (opened ++ opened') (recorded ++ recorded') state := by
  induction hrun with
  | nil => rwa [List.append_nil, List.append_nil]
  | snoc _ _ hstep ih =>
    rw [← List.append_assoc, ← List.append_assoc]
    exact ih.step hstep

/-! ## The trace -/

/-- An act other than a reset adds to the trace what it records. -/
theorem currentTrace_step (hact : act ≠ .reset) (hstep : step origin state act = some next) :
    next.currentTrace = state.currentTrace ++ recordedBy origin state act := by
  cases step_effect hstep with
  | opens _ hrecorded _ _ _ htrace => rw [hrecorded, List.append_nil, htrace]
  | records _ _ _ _ hrecorded _ _ _ _ htrace => rw [hrecorded, htrace]
  | quiet _ hrecorded _ _ _ htrace =>
    rw [hrecorded, List.append_nil]
    exact htrace.resolve_right hact

/-- Without a reset the trace is what was recorded, in that order. -/
theorem currentTrace_run (hrun : Run origin (· ≠ .reset) start opened recorded state) :
    state.currentTrace = start.currentTrace ++ recorded := by
  induction hrun with
  | nil => rw [List.append_nil]
  | snoc _ hact hstep ih => rw [currentTrace_step hact hstep, ih, List.append_assoc]

/-! ## No parent is missing -/

/-- Every parent of a recorded or a live span is recorded or live itself. -/
def ParentsKept (state : State) : Prop :=
  ∀ link ∈ state.currentTrace.map Span.link ++ state.liveLinks, ∀ parent, link.2 = some parent →
    parent ∈ (state.currentTrace.map Span.link ++ state.liveLinks).map Prod.fst

theorem ParentsKept.step (h : ParentsKept state) (hstack : state.activeSpanStack = state.liveIds)
    (hact : act ≠ .reset) (hstep : step origin state act = some next) : ParentsKept next := by
  cases step_effect hstep with
  | opens hopened hrecorded hlive hstack' hnext htrace =>
    rw [ParentsKept, htrace, hlive, ← List.append_assoc, List.forall_mem_append]
    refine ⟨fun link hlink parent hparent => ?_, fun link hlink parent hparent => ?_⟩
    · rw [List.map_append]
      exact List.mem_append_left _ (h link hlink parent hparent)
    · rw [List.mem_singleton.mp hlink, hstack] at hparent
      have hlast := List.mem_of_getLast? hparent
      rw [State.liveIds_eq] at hlast
      rw [List.map_append, List.map_append]
      exact List.mem_append_left _ (List.mem_append_right _ hlast)
  | records before after span hopened hrecorded hbefore hlive hstack' hnext htrace =>
    have hperm : (next.currentTrace.map Span.link ++ next.liveLinks).Perm
        (state.currentTrace.map Span.link ++ state.liveLinks) := by
      rw [htrace, hlive, hbefore, List.map_append, List.map_singleton, List.append_assoc,
        List.singleton_append]
      exact List.perm_middle.symm.append_left _
    intro link hlink parent hparent
    exact (hperm.map Prod.fst).mem_iff.mpr (h link (hperm.mem_iff.mp hlink) parent hparent)
  | quiet hopened hrecorded hlive hstack' hnext htrace =>
    rw [ParentsKept, htrace.resolve_right hact, hlive]
    exact h

theorem ParentsKept.run (h : ParentsKept start) (hnested : Nested opened recorded start)
    (hrun : Run origin (· ≠ .reset) start opened' recorded' state) : ParentsKept state := by
  induction hrun with
  | nil => exact h
  | snoc hrun hact hstep ih => exact ih.step (hnested.run hrun).stack hact hstep

/-- **The spans of a thread form a forest.** In every run the stack is the live spans
constructed while enabled; each of these is live or recorded once, below the one that was
innermost; and while the trace is not reset, it grows by what is recorded, and no parent is
missing when the stack is empty. -/
theorem spans_form_forest (origin : Int) (opened : List Link) (recorded : List Span)
    (state : State) (hrun : Run origin (fun _ => True) {} opened recorded state) :
    state.activeSpanStack = state.liveIds ∧
      opened.Perm (recorded.map Span.link ++ state.liveLinks) ∧ (opened.map Prod.fst).Nodup ∧
      (∀ link ∈ opened, ∀ parent, link.2 = some parent → parent < link.1) ∧
      ∀ opened' recorded' later, Run origin (· ≠ .reset) state opened' recorded' later →
        later.currentTrace = state.currentTrace ++ recorded' ∧
        (state.activeSpanStack = [] → state.currentTrace = [] → later.activeSpanStack = [] →
          ∀ span ∈ later.currentTrace, ∀ parent, span.parentId = some parent →
            ∃ other ∈ later.currentTrace, other.id = parent) := by
  have hnested := nested_initial.run hrun
  rw [List.nil_append, List.nil_append] at hnested
  refine ⟨hnested.stack, hnested.accounted, hnested.distinct, hnested.parents, ?_⟩
  intro opened' recorded' later hlater
  refine ⟨currentTrace_run hlater, fun hstack htrace hempty span hspan parent hparent => ?_⟩
  have hnone {state : State} (hids : state.liveIds = []) : state.liveLinks = [] := by
    rw [State.liveIds_eq] at hids
    exact List.map_eq_nil_iff.mp hids
  have hstart : ParentsKept state := by
    rw [ParentsKept, htrace, hnone (hnested.stack ▸ hstack)]
    nofun
  have hkept := hstart.run hnested hlater
  rw [ParentsKept, hnone ((hnested.run hlater).stack ▸ hempty), List.append_nil] at hkept
  have hmem := hkept span.link (List.mem_map_of_mem hspan) parent hparent
  rw [List.map_map] at hmem
  obtain ⟨other, hother, rfl⟩ := List.mem_map.mp hmem
  exact ⟨other, hother, rfl⟩

/-- A run of two spans below each other whose outer one ends first, with one between them
that was constructed while telemetry was disabled. -/
def outOfOrder : List Act :=
  [.setEnabled true, .construct "outer" 1 0, .setEnabled false, .construct "off" 2 0,
    .setEnabled true, .construct "inner" 3 0, .destroy 0 4 0, .destroy 1 5 0]

theorem run_of_foldlM {acts : List Act} (h : acts.foldlM (step origin) start = some state) :
    ∃ opened recorded, Run origin (fun _ => True) start opened recorded state := by
  induction acts using List.reverseRecOn generalizing state with
  | nil => exact ⟨[], [], (Option.some.inj h) ▸ .nil⟩
  | append_singleton acts act ih =>
    rw [List.foldlM_append] at h
    obtain ⟨before, hbefore, hstep⟩ := Option.bind_eq_some_iff.mp h
    obtain ⟨opened, recorded, hrun⟩ := ih hbefore
    exact ⟨_, _, hrun.snoc trivial (by simpa using hstep)⟩

theorem spans_form_forest_out_of_order :
    ∃ state, outOfOrder.foldlM (step 0) {} = some state ∧ state.currentTrace.map Span.link =
      [(1, none), (2, some 1)] ∧ state.activeSpanStack = state.liveIds := by
  refine ⟨_, rfl, rfl, ?_⟩
  obtain ⟨opened, recorded, hrun⟩ := @run_of_foldlM 0 {} _ outOfOrder rfl
  exact (spans_form_forest 0 opened recorded _ hrun).1

end ParseX.Telemetry

import Mathlib.Logic.Relation
import ParseX.Base.Disk

/-! # Files replaced by rename

Calls write their data to a temporary path and rename it to one target. When no
call opens a temporary path that another one holds open, the target always holds
what it held before, or all the data of one call. -/
namespace ParseX.Replace

/-- The calls: their temporary paths, none of them the target, and their data. -/
structure Calls (W P B : Type) where
  target : P
  temp : W → P
  data : W → List B
  temp_ne : ∀ w, temp w ≠ target

/-- Where a call stands. -/
inductive Turn where
  | waiting
  /-- The temporary file is open, with so many bytes written. -/
  | holding (inode done : Nat)
  | moved
  | failed
  deriving DecidableEq, Repr

structure State (W P B : Type) where
  disk : Disk P B
  turn : W → Turn

variable {W P B : Type}

/-- The call has a temporary file that it has not renamed. -/
def State.Holds (s : State W P B) (w : W) : Prop := ∃ inode done, s.turn w = .holding inode done

/-- One step of one call. -/
inductive Step [DecidableEq W] [DecidableEq P] [Inhabited B] (calls : Calls W P B)
    (s : State W P B) : State W P B → Prop where
  /-- The temporary path is opened while no other call holds it. -/
  | opens (w : W) : s.turn w = .waiting →
      (∀ v, s.Holds v → calls.temp v ≠ calls.temp w) →
      Step calls s ⟨s.disk.truncate (calls.temp w),
        Function.update s.turn w (.holding (s.disk.inodeFor (calls.temp w)) 0)⟩
  /-- Some of the remaining bytes are written. -/
  | writes (w : W) {inode done : Nat} (count : Nat) : s.turn w = .holding inode done →
      done + count ≤ (calls.data w).length →
      Step calls s ⟨s.disk.write inode done (((calls.data w).drop done).take count),
        Function.update s.turn w (.holding inode (done + count))⟩
  /-- The temporary path is renamed once all the data is written. -/
  | moves (w : W) {inode : Nat} : s.turn w = .holding inode (calls.data w).length →
      s.disk.entry (calls.temp w) ≠ none →
      Step calls s ⟨s.disk.rename (calls.temp w) calls.target, Function.update s.turn w .moved⟩
  | fails (w : W) : s.turn w = .waiting ∨ s.Holds w →
      Step calls s ⟨s.disk, Function.update s.turn w .failed⟩
  /-- A call that failed removes its temporary path. -/
  | drops (w : W) : s.turn w = .failed → Step calls s ⟨s.disk.remove (calls.temp w), s.turn⟩

variable {calls : Calls W P B} {s t : State W P B}

/-! ## What the holders keep -/

/-- The file of a call that holds one. -/
structure Held (calls : Calls W P B) (s : State W P B) (w : W) (inode done : Nat) : Prop where
  le : done ≤ (calls.data w).length
  lt : inode < s.disk.used
  bytes : s.disk.bytes inode = (calls.data w).take done
  /-- Only the temporary path can lead to it, and to no other file. -/
  path : ∀ path, s.disk.entry path = some inode → path = calls.temp w
  linked : s.disk.entry (calls.temp w) = some inode ∨ s.disk.entry (calls.temp w) = none

structure Sound (calls : Calls W P B) (s : State W P B) : Prop where
  held : ∀ w inode done, s.turn w = .holding inode done → Held calls s w inode done
  apart : ∀ v w inode done done', s.turn v = .holding inode done →
    s.turn w = .holding inode done' → v = w
  exclusive : ∀ v w, s.Holds v → s.Holds w → calls.temp v = calls.temp w → v = w

/-- A file that no call holds and no temporary path leads to. -/
structure Settled (calls : Calls W P B) (s : State W P B) (inode : Nat) : Prop where
  lt : inode < s.disk.used
  free : ∀ w done, s.turn w ≠ .holding inode done
  path : ∀ w, s.disk.entry (calls.temp w) ≠ some inode

/-- The file at the target is settled. -/
theorem Sound.settled (h : Sound calls s) {inode : Nat}
    (htarget : s.disk.entry calls.target = some inode) : Settled calls s inode where
  lt := s.disk.entry_lt _ _ htarget
  free w done hturn := calls.temp_ne w ((h.held w inode done hturn).path _ htarget).symm
  path w hentry := calls.temp_ne w (s.disk.entry_inj _ _ _ hentry htarget)

theorem Held.holds {w : W} {inode done : Nat} (h : s.turn w = .holding inode done) : s.Holds w :=
  ⟨inode, done, h⟩

/-- A step of another call that leaves the file alone. -/
theorem Held.transfer {w : W} {inode done : Nat} (h : Held calls s w inode done)
    (hused : s.disk.used ≤ t.disk.used) (hbytes : t.disk.bytes inode = s.disk.bytes inode)
    (hpath : ∀ path, t.disk.entry path = some inode → s.disk.entry path = some inode)
    (hlinked : t.disk.entry (calls.temp w) = s.disk.entry (calls.temp w) ∨
      t.disk.entry (calls.temp w) = none) :
    Held calls t w inode done where
  le := h.le
  lt := Nat.lt_of_lt_of_le h.lt hused
  bytes := hbytes.trans h.bytes
  path path hentry := h.path path (hpath path hentry)
  linked := hlinked.elim (fun hsame => hsame ▸ h.linked) .inr

variable [DecidableEq W]

theorem eq_of_update {turn : W → Turn} {v w : W} {new : Turn} {inode done : Nat}
    (h : Function.update turn w new v = .holding inode done) :
    v = w ∧ new = .holding inode done ∨ v ≠ w ∧ turn v = .holding inode done := by
  by_cases hvw : v = w
  · subst hvw
    rw [Function.update_self] at h
    exact .inl ⟨rfl, h⟩
  · rw [Function.update_of_ne hvw] at h
    exact .inr ⟨hvw, h⟩

/-- A call lets go of its file, or had none. -/
theorem Sound.release (h : Sound calls s) {w : W} {new : Turn} {disk : Disk P B}
    (hnew : ∀ inode done, new ≠ .holding inode done)
    (hkeep : ∀ v inode done, v ≠ w → s.turn v = .holding inode done → Held calls s v inode done →
      Held calls ⟨disk, Function.update s.turn w new⟩ v inode done) :
    Sound calls ⟨disk, Function.update s.turn w new⟩ := by
  have hold {v : W} {inode done : Nat}
      (hv : Function.update s.turn w new v = .holding inode done) :
      v ≠ w ∧ s.turn v = .holding inode done := by
    rcases eq_of_update hv with ⟨-, hheld⟩ | hv
    · exact absurd hheld (hnew _ _)
    · exact hv
  refine ⟨fun v inode done hv => ?_, fun v v' inode done done' hv hv' => ?_,
    fun v v' ⟨_, _, hv⟩ ⟨_, _, hv'⟩ => ?_⟩
  · exact hkeep v inode done (hold hv).1 (hold hv).2 (h.held v inode done (hold hv).2)
  · exact h.apart v v' inode done done' (hold hv).2 (hold hv').2
  · exact h.exclusive v v' (Held.holds (hold hv).2) (Held.holds (hold hv').2)

variable [DecidableEq P]

omit [DecidableEq W] [DecidableEq P] in
/-- The file that an open gives is nobody else's. -/
theorem Sound.ne_inodeFor (h : Sound calls s) {v w : W} {inode done : Nat}
    (hv : s.turn v = .holding inode done) (hne : calls.temp v ≠ calls.temp w) :
    inode ≠ s.disk.inodeFor (calls.temp w) := by
  have hheld := h.held v inode done hv
  rintro rfl
  cases hentry : s.disk.entry (calls.temp w) with
  | none =>
    have hlt := hheld.lt
    rw [Disk.inodeFor, hentry] at hlt
    exact Nat.lt_irrefl _ hlt
  | some inode =>
    refine hne (hheld.path (calls.temp w) ?_).symm
    rw [Disk.inodeFor, hentry]
    rfl

theorem Sound.opens (h : Sound calls s) {w : W} (hturn : s.turn w = .waiting)
    (hfree : ∀ v, s.Holds v → calls.temp v ≠ calls.temp w) :
    Sound calls ⟨s.disk.truncate (calls.temp w),
      Function.update s.turn w (.holding (s.disk.inodeFor (calls.temp w)) 0)⟩ := by
  have hother {v : W} {inode done : Nat} (hv : s.turn v = .holding inode done) :
      inode ≠ s.disk.inodeFor (calls.temp w) := h.ne_inodeFor hv (hfree v (Held.holds hv))
  constructor
  · intro v inode done hv
    rcases eq_of_update hv with ⟨rfl, hnew⟩ | ⟨-, hold⟩
    · obtain ⟨rfl, rfl⟩ := Turn.holding.inj hnew
      refine ⟨Nat.zero_le _, s.disk.inodeFor_lt_truncate, by simp, fun path hentry => ?_,
        .inl (s.disk.truncate_entry_self)⟩
      by_contra hne
      rw [Disk.truncate_entry_of_ne _ hne] at hentry
      exact s.disk.entry_ne_inodeFor hne hentry
    · refine (h.held v inode done hold).transfer s.disk.used_le_truncate
        (s.disk.truncate_bytes_of_ne (hother hold)) (fun path hentry => ?_)
        (.inl (s.disk.truncate_entry_of_ne (hfree v (Held.holds hold))))
      by_cases hpath : path = calls.temp w
      · rw [hpath, Disk.truncate_entry_self] at hentry
        exact absurd (Option.some.inj hentry).symm (hother hold)
      · rwa [Disk.truncate_entry_of_ne _ hpath] at hentry
  · intro v v' inode done done' hv hv'
    rcases eq_of_update hv with ⟨rfl, hnew⟩ | ⟨-, hold⟩
    · rcases eq_of_update hv' with ⟨rfl, -⟩ | ⟨-, hold'⟩
      · rfl
      · exact absurd (Turn.holding.inj hnew).1.symm (hother hold')
    · rcases eq_of_update hv' with ⟨rfl, hnew⟩ | ⟨-, hold'⟩
      · exact absurd (Turn.holding.inj hnew).1.symm (hother hold)
      · exact h.apart v v' inode done done' hold hold'
  · rintro v v' ⟨_, _, hv⟩ ⟨_, _, hv'⟩ htemp
    rcases eq_of_update hv with ⟨rfl, -⟩ | ⟨-, hold⟩
    · rcases eq_of_update hv' with ⟨rfl, -⟩ | ⟨-, hold'⟩
      · rfl
      · exact absurd htemp.symm (hfree v' (Held.holds hold'))
    · rcases eq_of_update hv' with ⟨rfl, -⟩ | ⟨-, hold'⟩
      · exact absurd htemp (hfree v (Held.holds hold))
      · exact h.exclusive v v' (Held.holds hold) (Held.holds hold') htemp

variable [Inhabited B]

omit [DecidableEq P] in
theorem Sound.writes (h : Sound calls s) {w : W} {inode done count : Nat}
    (hturn : s.turn w = .holding inode done) (hle : done + count ≤ (calls.data w).length) :
    Sound calls ⟨s.disk.write inode done (((calls.data w).drop done).take count),
      Function.update s.turn w (.holding inode (done + count))⟩ := by
  -- the call keeps its file, the others theirs
  have hbefore {v : W} {other before : Nat}
      (hv : Function.update s.turn w (.holding inode (done + count)) v = .holding other before) :
      ∃ before, s.turn v = .holding other before := by
    rcases eq_of_update hv with ⟨rfl, hnew⟩ | ⟨-, hv⟩
    · exact ⟨done, (Turn.holding.inj hnew).1 ▸ hturn⟩
    · exact ⟨_, hv⟩
  constructor
  · intro v other before hv
    rcases eq_of_update hv with ⟨rfl, hnew⟩ | ⟨hne, hold⟩
    · obtain ⟨rfl, rfl⟩ := Turn.holding.inj hnew
      have hheld := h.held v inode done hturn
      refine ⟨hle, hheld.lt, ?_, hheld.path, hheld.linked⟩
      show (s.disk.write inode done _).bytes inode = _
      rw [Disk.write_bytes_self, hheld.bytes, Disk.overwrite_take _ hle]
    · refine (h.held v other before hold).transfer (Nat.le_refl _)
        (s.disk.write_bytes_of_ne ?_) (fun _ => id) (.inl rfl)
      rintro rfl
      exact hne (h.apart v w other before done hold hturn)
  · intro v v' other before before' hv hv'
    obtain ⟨_, hv⟩ := hbefore hv
    obtain ⟨_, hv'⟩ := hbefore hv'
    exact h.apart v v' other _ _ hv hv'
  · rintro v v' ⟨_, _, hv⟩ ⟨_, _, hv'⟩
    obtain ⟨_, hv⟩ := hbefore hv
    obtain ⟨_, hv'⟩ := hbefore hv'
    exact h.exclusive v v' (Held.holds hv) (Held.holds hv')

/-- Every step keeps the holders apart. -/
theorem Sound.step (h : Sound calls s) (hstep : Step calls s t) : Sound calls t := by
  cases hstep with
  | opens w hturn hfree => exact h.opens hturn hfree
  | writes w count hturn hle => exact h.writes hturn hle
  | moves w hturn hentry =>
    refine h.release (fun _ _ => nofun) fun v inode done hne hv hheld => ?_
    have htemp : calls.temp v ≠ calls.temp w := fun htemp =>
      hne (h.exclusive v w (Held.holds hv) (Held.holds hturn) htemp)
    refine hheld.transfer (Nat.le_refl _) rfl (fun path hpath => ?_)
      (.inl (s.disk.rename_entry_of_ne (calls.temp_ne v) htemp))
    by_cases htarget : path = calls.target
    · rw [htarget, Disk.rename_entry_target] at hpath
      exact absurd (hheld.path _ hpath).symm htemp
    · by_cases hsource : path = calls.temp w
      · rw [hsource, Disk.rename_entry_source _ (calls.temp_ne w)] at hpath
        cases hpath
      · rwa [Disk.rename_entry_of_ne _ htarget hsource] at hpath
  | fails w hturn =>
    exact h.release (fun _ _ => nofun) fun v inode done _ hv hheld =>
      hheld.transfer (Nat.le_refl _) rfl (fun _ => id) (.inl rfl)
  | drops w hturn =>
    refine ⟨fun v inode done hv => ?_, h.apart, h.exclusive⟩
    refine (h.held v inode done hv).transfer (Nat.le_refl _) rfl
      (fun path => s.disk.entry_of_remove) ?_
    by_cases htemp : calls.temp v = calls.temp w
    · exact .inr (htemp ▸ s.disk.remove_entry_self)
    · exact .inl (s.disk.remove_entry_of_ne htemp)

/-- A settled file stays settled, and keeps its bytes. -/
theorem Settled.step {inode : Nat} (h : Settled calls s inode) (hstep : Step calls s t) :
    Settled calls t inode ∧ t.disk.bytes inode = s.disk.bytes inode := by
  cases hstep with
  | opens w hturn hfree =>
    have hne : inode ≠ s.disk.inodeFor (calls.temp w) := by
      rintro rfl
      cases hentry : s.disk.entry (calls.temp w) with
      | none =>
        have hlt := h.lt
        rw [Disk.inodeFor, hentry] at hlt
        exact Nat.lt_irrefl _ hlt
      | some inode =>
        refine h.path w ?_
        rw [Disk.inodeFor, hentry]
        rfl
    refine ⟨⟨Nat.lt_of_lt_of_le h.lt s.disk.used_le_truncate, fun v done hv => ?_,
      fun v hentry => ?_⟩, s.disk.truncate_bytes_of_ne hne⟩
    · rcases eq_of_update hv with ⟨-, hnew⟩ | ⟨-, hold⟩
      · exact hne (Turn.holding.inj hnew).1.symm
      · exact h.free v done hold
    · by_cases htemp : calls.temp v = calls.temp w
      · rw [htemp, Disk.truncate_entry_self] at hentry
        exact hne (Option.some.inj hentry).symm
      · rw [Disk.truncate_entry_of_ne _ htemp] at hentry
        exact h.path v hentry
  | @writes w other done count hturn hle =>
    have hne : inode ≠ other := by
      rintro rfl
      exact h.free w done hturn
    refine ⟨⟨h.lt, fun v before hv => ?_, h.path⟩, s.disk.write_bytes_of_ne hne⟩
    rcases eq_of_update hv with ⟨-, hnew⟩ | ⟨-, hold⟩
    · exact hne (Turn.holding.inj hnew).1.symm
    · exact h.free v before hold
  | moves w hturn hentry =>
    refine ⟨⟨h.lt, fun v done hv => ?_, fun v hpath => ?_⟩, rfl⟩
    · rcases eq_of_update hv with ⟨-, hnew⟩ | ⟨-, hold⟩
      · cases hnew
      · exact h.free v done hold
    · by_cases htemp : calls.temp v = calls.temp w
      · rw [htemp, Disk.rename_entry_source _ (calls.temp_ne w)] at hpath
        cases hpath
      · rw [Disk.rename_entry_of_ne _ (calls.temp_ne v) htemp] at hpath
        exact h.path v hpath
  | fails w hturn =>
    refine ⟨⟨h.lt, fun v done hv => ?_, h.path⟩, rfl⟩
    rcases eq_of_update hv with ⟨-, hnew⟩ | ⟨-, hold⟩
    · cases hnew
    · exact h.free v done hold
  | drops w hturn =>
    exact ⟨⟨h.lt, h.free, fun v hentry => h.path v (s.disk.entry_of_remove hentry)⟩, rfl⟩

/-! ## The target -/

omit [DecidableEq W] [Inhabited B] in
theorem Sound.content_rename (h : Sound calls s) {w : W} {inode : Nat}
    (hturn : s.turn w = .holding inode (calls.data w).length)
    (hentry : s.disk.entry (calls.temp w) ≠ none) :
    (s.disk.rename (calls.temp w) calls.target).content calls.target = some (calls.data w) := by
  have hheld := h.held w inode _ hturn
  rw [Disk.content, Disk.rename_entry_target, Disk.rename_bytes,
    hheld.linked.resolve_right hentry, Option.map_some, hheld.bytes, List.take_length]

/-- The target changes only when a call renames all its data to it. -/
theorem Sound.target (h : Sound calls s) (hstep : Step calls s t) :
    t.disk.content calls.target = s.disk.content calls.target ∨
      ∃ w, s.turn w ≠ .moved ∧ t.turn w = .moved ∧
        t.disk.content calls.target = some (calls.data w) := by
  cases hstep with
  | opens w hturn hfree =>
    refine .inl ?_
    have hentry : (s.disk.truncate (calls.temp w)).entry calls.target =
        s.disk.entry calls.target := s.disk.truncate_entry_of_ne (calls.temp_ne w).symm
    show Option.map _ _ = Option.map _ _
    rw [hentry]
    cases htarget : s.disk.entry calls.target with
    | none => rfl
    | some inode =>
      exact congrArg some ((h.settled htarget).step (.opens w hturn hfree)).2
  | writes w count hturn hle =>
    refine .inl ?_
    show Option.map _ (s.disk.entry calls.target) = Option.map _ _
    cases htarget : s.disk.entry calls.target with
    | none => rfl
    | some inode =>
      exact congrArg some ((h.settled htarget).step (.writes w count hturn hle)).2
  | moves w hturn hentry =>
    exact .inr ⟨w, by rw [hturn]; nofun, Function.update_self .., h.content_rename hturn hentry⟩
  | fails w hturn => exact .inl rfl
  | drops w hturn =>
    refine .inl ?_
    show Option.map _ ((s.disk.remove _).entry calls.target) = _
    rw [Disk.remove_entry_of_ne _ (calls.temp_ne w).symm]
    rfl

/-- A call that renamed has done so. -/
theorem Step.moved {w : W} (hstep : Step calls s t) (hmoved : s.turn w = .moved) :
    t.turn w = .moved := by
  have hkeep {v : W} {new : Turn} (hv : s.turn v ≠ .moved) :
      Function.update s.turn v new w = .moved := by
    rw [Function.update_of_ne, hmoved]
    rintro rfl
    exact hv hmoved
  cases hstep with
  | opens v hturn => exact hkeep (by rw [hturn]; nofun)
  | writes v count hturn => exact hkeep (by rw [hturn]; nofun)
  | moves v hturn => exact hkeep (by rw [hturn]; nofun)
  | fails v hturn =>
    refine hkeep ?_
    rcases hturn with hturn | ⟨inode, done, hturn⟩
    · rw [hturn]; nofun
    · rw [hturn]; nofun
  | drops v hturn => exact hmoved

/-- A call renames with all its data. -/
theorem Sound.moves (h : Sound calls s) (hstep : Step calls s t) {w : W}
    (hbefore : s.turn w ≠ .moved) (hmoved : t.turn w = .moved) :
    t.disk.content calls.target = some (calls.data w) := by
  have hother {v : W} {new : Turn} (hupdate : Function.update s.turn v new w = .moved)
      (hnew : new ≠ .moved) : False := by
    by_cases hwv : w = v
    · rw [hwv, Function.update_self] at hupdate
      exact hnew hupdate
    · rw [Function.update_of_ne hwv] at hupdate
      exact hbefore hupdate
  cases hstep with
  | opens v => exact (hother hmoved nofun).elim
  | writes v => exact (hother hmoved nofun).elim
  | moves v hturn hentry =>
    by_cases hwv : w = v
    · subst hwv
      exact h.content_rename hturn hentry
    · exact absurd ((Function.update_of_ne hwv ..).symm.trans hmoved) hbefore
  | fails v => exact (hother hmoved nofun).elim
  | drops v => exact absurd hmoved hbefore

/-! ## Runs -/

abbrev Run (calls : Calls W P B) : State W P B → State W P B → Prop :=
  Relation.ReflTransGen (Step calls)

/-- No call has started. -/
def State.Fresh (s : State W P B) : Prop := ∀ w, s.turn w = .waiting

omit [DecidableEq W] [DecidableEq P] [Inhabited B] in
theorem State.Fresh.sound (h : s.Fresh) : Sound calls s where
  held w inode done hw := by rw [h w] at hw; cases hw
  apart v w inode done done' hv := by rw [h v] at hv; cases hv
  exclusive v w := fun ⟨inode, done, hv⟩ => by rw [h v] at hv; cases hv

theorem Run.sound {start : State W P B} (hrun : Run calls start s) (h : Sound calls start) :
    Sound calls s := by
  induction hrun with
  | refl => exact h
  | tail _ hstep ih => exact ih.step hstep

/-- **The target holds what it held, or all the data of a call that renamed.** -/
theorem Run.target {start : State W P B} (hrun : Run calls start s) (hstart : start.Fresh) :
    s.disk.content calls.target = start.disk.content calls.target ∨
      ∃ w, s.turn w = .moved ∧ s.disk.content calls.target = some (calls.data w) := by
  induction hrun with
  | refl => exact .inl rfl
  | tail hbefore hstep ih =>
    rcases (Run.sound hbefore hstart.sound).target hstep with hsame | hmoved
    · rw [hsame]
      exact ih.imp_right fun ⟨w, hw, hcontent⟩ => ⟨w, hstep.moved hw, hcontent⟩
    · exact .inr (hmoved.imp fun _ => And.right)

/-- **A file once found at the target never changes.** -/
theorem Run.bytes (hrun : Run calls s t) (h : Sound calls s) {inode : Nat}
    (htarget : s.disk.entry calls.target = some inode) :
    t.disk.bytes inode = s.disk.bytes inode := by
  have hsettled := h.settled htarget
  have hkeep : Settled calls t inode ∧ t.disk.bytes inode = s.disk.bytes inode := by
    induction hrun with
    | refl => exact ⟨hsettled, rfl⟩
    | tail _ hstep ih =>
      obtain ⟨hlast, hbytes⟩ := ih.1.step hstep
      exact ⟨hlast, hbytes.trans ih.2⟩
  exact hkeep.2

/-! ## Systems that replace a file -/

section
variable {C : Type} {R : C → C → Prop} {view : C → State W P B}

/-- Every step of the system is one of the replacement, or does not show in it. -/
def Refines (calls : Calls W P B) (R : C → C → Prop) (view : C → State W P B) : Prop :=
  ∀ c c', Sound calls (view c) → R c c' →
    view c' = view c ∨ Step calls (view c) (view c')

variable {start c : C}

theorem Refines.run (h : Refines calls R view) (hrun : Relation.ReflTransGen R start c)
    (hsound : Sound calls (view start)) : Run calls (view start) (view c) := by
  induction hrun with
  | refl => exact .refl
  | tail _ hstep ih =>
    rcases h _ _ (ih.sound hsound) hstep with hsame | hnext
    · rw [hsame]
      exact ih
    · exact ih.tail hnext

theorem Refines.sound (h : Refines calls R view) (hrun : Relation.ReflTransGen R start c)
    (hsound : Sound calls (view start)) : Sound calls (view c) := (h.run hrun hsound).sound hsound

/-- A call that renamed has done so for the rest of the run. -/
theorem Refines.moved (h : Refines calls R view) (hrun : Relation.ReflTransGen R start c)
    (hsound : Sound calls (view start)) {w : W} (hmoved : (view start).turn w = .moved) :
    (view c).turn w = .moved := by
  have hreplace := h.run hrun hsound
  generalize view c = last at hreplace
  induction hreplace with
  | refl => exact hmoved
  | tail _ hstep ih => exact hstep.moved ih

/-- **A call that renamed had all its data at the target at some moment.** -/
theorem Refines.moment (h : Refines calls R view) (hrun : Relation.ReflTransGen R start c)
    (hfresh : (view start).Fresh) {w : W} (hmoved : (view c).turn w = .moved) :
    ∃ moment, Relation.ReflTransGen R start moment ∧ Relation.ReflTransGen R moment c ∧
      (view moment).disk.content calls.target = some (calls.data w) := by
  induction hrun with
  | refl => rw [hfresh w] at hmoved; cases hmoved
  | @tail middle last hbefore hstep ih =>
    by_cases hmiddle : (view middle).turn w = .moved
    · obtain ⟨moment, hfirst, hrest, hcontent⟩ := ih hmiddle
      exact ⟨moment, hfirst, hrest.tail hstep, hcontent⟩
    · have hsound := h.sound hbefore hfresh.sound
      rcases h _ _ hsound hstep with hsame | hnext
      · rw [hsame] at hmoved
        exact absurd hmoved hmiddle
      · exact ⟨last, hbefore.tail hstep, .refl, hsound.moves hnext hmiddle hmoved⟩

end

end ParseX.Replace

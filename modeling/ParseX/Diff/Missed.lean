import ParseX.Diff.DiffEmpty

/-! # Changes an empty report hides

A pair that looks alike to the comparison may still differ: an absent text
reads like the text `nullopt`, lists of one joined text may be split in
different ways, the number of equal items is not compared, and of several items
of one key only the first is. An empty report misses a change exactly when all
pairs look alike and one of them hides such a difference. -/
namespace ParseX
open Cpp

/-! ## Agreement -/

def Cluster.Agrees (x y : Cluster) : Prop :=
  x.common.category = y.common.category ∧ x.baudrate = y.baudrate ∧
    x.physicalChannels.Perm y.physicalChannels

def EcuInstance.Agrees (x y : EcuInstance) : Prop :=
  x.common.category = y.common.category ∧ x.connectedChannels.Perm y.connectedChannels ∧
    x.controllers.Perm y.controllers

def Frame.Agrees (x y : Frame) : Prop :=
  x.common.category = y.common.category ∧ x.length = y.length ∧
    x.transmitters.Perm y.transmitters ∧ x.pdus.Perm y.pdus

def Pdu.Agrees (x y : Pdu) : Prop :=
  x.common.category = y.common.category ∧ x.length = y.length ∧
    x.signalMappings.Perm y.signalMappings

/-- An absent value table agrees with an empty one. -/
def Signal.Agrees {D : Type} [Double D] (x y : Signal D) : Prop :=
  x.common.category = y.common.category ∧ x.SameScalars y ∧ x.unit = y.unit ∧
    x.receivers.Perm y.receivers ∧ (x.valueTable.getD []).Perm (y.valueTable.getD [])

def SignalGroup.Agrees (x y : SignalGroup) : Prop :=
  x.common.category = y.common.category ∧ x.members.Perm y.members

/-! ## Hidden differences -/

/-- One text is absent and the other reads `nullopt`. -/
def TextHides (x y : Option String) : Prop :=
  (x = none ∧ y = some "nullopt") ∨ (x = some "nullopt" ∧ y = none)

/-- Different lists with one joined text. -/
def JoinHides (x y : List String) : Prop := ¬ x.Perm y ∧ joined x = joined y

/-- Lists of the same strings in different numbers. -/
def CountHides (x y : List String) : Prop := ¬ x.Perm y ∧ SameSet x y

/-- Different lists with the same first item of every key. -/
def FirstHides {T : Type} (keyOf : T → String) (x y : List T) : Prop :=
  ¬ x.Perm y ∧ SameFirst keyOf x y

def Cluster.Hides (x y : Cluster) : Prop :=
  TextHides x.common.category y.common.category ∨ JoinHides x.physicalChannels y.physicalChannels

def EcuInstance.Hides (x y : EcuInstance) : Prop :=
  TextHides x.common.category y.common.category ∨
    JoinHides x.connectedChannels y.connectedChannels ∨ JoinHides x.controllers y.controllers

def Frame.Hides (x y : Frame) : Prop :=
  TextHides x.common.category y.common.category ∨ JoinHides x.transmitters y.transmitters ∨
    CountHides x.transmitters y.transmitters ∨ FirstHides framePduMappingKey x.pdus y.pdus

def Pdu.Hides (x y : Pdu) : Prop :=
  TextHides x.common.category y.common.category ∨
    FirstHides pduSignalMappingKey x.signalMappings y.signalMappings

def Signal.Hides {D : Type} [Double D] (x y : Signal D) : Prop :=
  TextHides x.common.category y.common.category ∨ TextHides x.unit y.unit ∨
    CountHides x.receivers y.receivers ∨
    FirstHides valueTableEntryKey (x.valueTable.getD []) (y.valueTable.getD [])

def SignalGroup.Hides (x y : SignalGroup) : Prop :=
  TextHides x.common.category y.common.category ∨ CountHides x.members y.members

section
variable {D : Type} [Double D]

def agrees : TypeRelations D where
  cluster := Cluster.Agrees
  ecuInstance := EcuInstance.Agrees
  frame := Frame.Agrees
  pdu := Pdu.Agrees
  signal := Signal.Agrees
  signalGroup := SignalGroup.Agrees

/-- No field of the pair hides a difference. -/
def hidesNothing : TypeRelations D where
  cluster x y := ¬ x.Hides y
  ecuInstance x y := ¬ x.Hides y
  frame x y := ¬ x.Hides y
  pdu x y := ¬ x.Hides y
  signal x y := ¬ x.Hides y
  signalGroup x y := ¬ x.Hides y

end

theorem text_agrees_iff {x y : Option String} (h : optionText x = optionText y) :
    x = y ↔ ¬ TextHides x y := by
  cases x with
  | none => cases y with
    | none => simp [TextHides]
    | some y => simp_all [TextHides, optionText, eq_comm]
  | some x => cases y with
    | none => simp_all [TextHides, optionText]
    | some y => simp_all [TextHides, optionText]

section
variable {x y : List String}

theorem join_agrees_iff (h : joined x = joined y) : x.Perm y ↔ ¬ JoinHides x y := by
  simp [JoinHides, h]

theorem count_agrees_iff (h : SameSet x y) : x.Perm y ↔ ¬ CountHides x y := by
  simp [CountHides, h]

theorem first_agrees_iff {T : Type} {keyOf : T → String} {x y : List T}
    (h : SameFirst keyOf x y) : x.Perm y ↔ ¬ FirstHides keyOf x y := by
  simp [FirstHides, h]

end

/-! ## Pairs that look alike agree unless they hide a difference -/

theorem Cluster.LooksAlike.agrees_iff {x y : Cluster} (h : x.LooksAlike y) :
    x.Agrees y ↔ ¬ x.Hides y := by
  obtain ⟨hcat, hbaud, hchannels⟩ := h
  simp [Cluster.Agrees, Cluster.Hides, text_agrees_iff hcat, hbaud, join_agrees_iff hchannels]

theorem EcuInstance.LooksAlike.agrees_iff {x y : EcuInstance} (h : x.LooksAlike y) :
    x.Agrees y ↔ ¬ x.Hides y := by
  obtain ⟨hcat, hchannels, hcontrollers⟩ := h
  simp [EcuInstance.Agrees, EcuInstance.Hides, text_agrees_iff hcat, join_agrees_iff hchannels,
    join_agrees_iff hcontrollers]

theorem Frame.LooksAlike.agrees_iff {x y : Frame} (h : x.LooksAlike y) :
    x.Agrees y ↔ ¬ x.Hides y := by
  obtain ⟨hcat, hlength, htx, hpdus⟩ := h
  have htransmitters : x.transmitters.Perm y.transmitters ↔
      ¬ JoinHides x.transmitters y.transmitters ∧ ¬ CountHides x.transmitters y.transmitters := by
    simp only [JoinHides, CountHides]
    tauto
  simp [Frame.Agrees, Frame.Hides, text_agrees_iff hcat, hlength, htransmitters,
    first_agrees_iff hpdus, and_assoc]

theorem Pdu.LooksAlike.agrees_iff {x y : Pdu} (h : x.LooksAlike y) :
    x.Agrees y ↔ ¬ x.Hides y := by
  obtain ⟨hcat, hlength, hmappings⟩ := h
  simp [Pdu.Agrees, Pdu.Hides, text_agrees_iff hcat, hlength, first_agrees_iff hmappings]

theorem Signal.LooksAlike.agrees_iff {D : Type} [Double D] {x y : Signal D}
    (h : x.LooksAlike y) : x.Agrees y ↔ ¬ x.Hides y := by
  obtain ⟨hcat, hscalars, hunit, hreceivers, htable⟩ := h
  simp [Signal.Agrees, Signal.Hides, text_agrees_iff hcat, hscalars, text_agrees_iff hunit,
    count_agrees_iff hreceivers, first_agrees_iff htable]

theorem SignalGroup.LooksAlike.agrees_iff {x y : SignalGroup} (h : x.LooksAlike y) :
    x.Agrees y ↔ ¬ x.Hides y := by
  obtain ⟨hcat, hmembers⟩ := h
  simp [SignalGroup.Agrees, SignalGroup.Hides, text_agrees_iff hcat, count_agrees_iff hmembers]

/-! ## Missed changes -/

section
variable {D : Type} [Double D]

/-- Short names are unique and present. -/
def NamedUniquely (project : ParsedProject D) : Prop :=
  UniqueShortNames project ∧ EachType project fun _ _ elements _ => ∀ e ∈ elements, shortName e ≠ ""

variable [LawfulDouble D]

/-- An empty report misses no change exactly when, in case the names agree and
all same-named pairs look alike, no such pair hides a difference. -/
theorem no_missed_change_iff {a b : ParsedProject D} (ha : NamedUniquely a)
    (hb : NamedUniquely b) :
    ((diff a b).entries = [] → SameShortNames a b ∧ AllPairs agrees a b) ↔
      (SameShortNames a b → AllPairs looksAlike a b → AllPairs hidesNothing a b) := by
  rw [diff_entries_nil_iff ha.1 hb.1, silent_eq_looksAlike]
  have hpairs (h : AllPairs looksAlike a b) : AllPairs agrees a b ↔ AllPairs hidesNothing a b := by
    obtain ⟨h1, h2, h3, h4, h5, h6⟩ := h
    simp only [AllPairs, agrees, hidesNothing, h1.congr fun _ _ h => h.agrees_iff,
      h2.congr fun _ _ h => h.agrees_iff, h3.congr fun _ _ h => h.agrees_iff,
      h4.congr fun _ _ h => h.agrees_iff, h5.congr fun _ _ h => h.agrees_iff,
      h6.congr fun _ _ h => h.agrees_iff]
  constructor
  · intro h hnames hlook
    exact (hpairs hlook).mp (h ⟨hnames, hlook⟩).2
  · rintro h ⟨hnames, hlook⟩
    exact ⟨hnames, (hpairs hlook).mpr (h hnames hlook)⟩

end

/-- A project of one PDU that maps one signal to bit 0 and again further on. -/
def projectMappingTwice (position : UInt32) : ParsedProject WholeDouble :=
  { files := [{ pdus := [{
    common := { shortName := "Status" }
    length := 8
    signalMappings := [{ signalShortNameRef := "Speed" },
      { signalShortNameRef := "Speed", startPosition := position }] }] }] }

theorem projectMappingTwice_named (position : UInt32) :
    NamedUniquely (projectMappingTwice position) := by
  constructor <;> simp [UniqueShortNames, EachType, projectMappingTwice, collectAll, shortName,
    DomainElement.common]

/-- Moving the second mapping leaves the report empty. -/
theorem second_mapping_missed :
    NamedUniquely (projectMappingTwice 8) ∧ NamedUniquely (projectMappingTwice 16) ∧
      ¬ ((diff (projectMappingTwice 8) (projectMappingTwice 16)).entries = [] →
        SameShortNames (projectMappingTwice 8) (projectMappingTwice 16) ∧
          AllPairs agrees (projectMappingTwice 8) (projectMappingTwice 16)) := by
  refine ⟨projectMappingTwice_named 8, projectMappingTwice_named 16, fun h => ?_⟩
  have hempty : (diff (projectMappingTwice 8) (projectMappingTwice 16)).entries = [] := by
    decide +kernel
  obtain ⟨_, -, -, -, hpdus, -, -⟩ := h hempty
  have hpair := (hpdus _ (List.mem_singleton.mpr rfl) _ (List.mem_singleton.mpr rfl) rfl
    (by decide)).2.2
  exact absurd hpair (by decide)

/-- An empty report over equal projects misses nothing. -/
theorem no_missed_change_mappings :
    (diff (projectMappingTwice 8) (projectMappingTwice 8)).entries = [] ∧
      AllPairs agrees (projectMappingTwice 8) (projectMappingTwice 8) := by
  have hempty : (diff (projectMappingTwice 8) (projectMappingTwice 8)).entries = [] := by
    decide +kernel
  have hnothing : AllPairs hidesNothing (projectMappingTwice 8) (projectMappingTwice 8) := by
    simp [AllPairs, SameNamed, projectMappingTwice, collectAll, hidesNothing, Pdu.Hides, TextHides,
      FirstHides]
  have hnamed := projectMappingTwice_named 8
  exact ⟨hempty, ((no_missed_change_iff hnamed hnamed).mpr fun _ _ => hnothing) hempty |>.2⟩

end ParseX

import ParseX.Diff.DiffEmpty

/-! # Reordered projects

Permuting files, elements and nested collections. The nested collections of
frames, PDUs, signals and signal groups are compared by key, so their order
leaves no trace. The lists of clusters and ECU instances are compared as joined
texts, so the report is empty exactly when these texts are the same. -/
namespace ParseX
open Cpp

structure Cluster.Reordered (x y : Cluster) : Prop where
  common : x.common = y.common
  baudrate : x.baudrate = y.baudrate
  physicalChannels : x.physicalChannels.Perm y.physicalChannels

structure EcuInstance.Reordered (x y : EcuInstance) : Prop where
  common : x.common = y.common
  connectedChannels : x.connectedChannels.Perm y.connectedChannels
  controllers : x.controllers.Perm y.controllers

structure Frame.Reordered (x y : Frame) : Prop where
  common : x.common = y.common
  length : x.length = y.length
  transmitters : x.transmitters.Perm y.transmitters
  pdus : x.pdus.Perm y.pdus

structure Pdu.Reordered (x y : Pdu) : Prop where
  common : x.common = y.common
  length : x.length = y.length
  signalMappings : x.signalMappings.Perm y.signalMappings

structure Signal.Reordered {D : Type} [Double D] (x y : Signal D) : Prop where
  common : x.common = y.common
  scalars : x.SameScalars y
  unit : x.unit = y.unit
  receivers : x.receivers.Perm y.receivers
  valueTable : Option.Rel List.Perm x.valueTable y.valueTable

structure SignalGroup.Reordered (x y : SignalGroup) : Prop where
  common : x.common = y.common
  members : x.members.Perm y.members

/-- The new list is the old one in another order, each element reordered. -/
def ReorderedList {T : Type} (R : T → T → Prop) (old new : List T) : Prop :=
  ∃ permuted, permuted.Perm old ∧ List.Forall₂ R permuted new

section
variable {D : Type} [Double D]

/-- The second project is the first with its files, elements and nested
collections in another order. -/
structure Reordered (a b : ParsedProject D) : Prop where
  clusters : ReorderedList Cluster.Reordered (collectAll a ParsedFile.clusters)
    (collectAll b ParsedFile.clusters)
  ecuInstances : ReorderedList EcuInstance.Reordered (collectAll a ParsedFile.ecuInstances)
    (collectAll b ParsedFile.ecuInstances)
  frames : ReorderedList Frame.Reordered (collectAll a ParsedFile.frames)
    (collectAll b ParsedFile.frames)
  pdus : ReorderedList Pdu.Reordered (collectAll a ParsedFile.pdus) (collectAll b ParsedFile.pdus)
  signals : ReorderedList Signal.Reordered (collectAll a ParsedFile.signals)
    (collectAll b ParsedFile.signals)
  signalGroups : ReorderedList SignalGroup.Reordered (collectAll a ParsedFile.signalGroups)
    (collectAll b ParsedFile.signalGroups)

/-- The keys of every nested collection are pairwise distinct. -/
structure DistinctNestedKeys (project : ParsedProject D) : Prop where
  clusters : ∀ x ∈ collectAll project ParsedFile.clusters, x.physicalChannels.Nodup
  ecuInstances : ∀ x ∈ collectAll project ParsedFile.ecuInstances,
    x.connectedChannels.Nodup ∧ x.controllers.Nodup
  frames : ∀ x ∈ collectAll project ParsedFile.frames,
    x.transmitters.Nodup ∧ (x.pdus.map framePduMappingKey).Nodup
  pdus : ∀ x ∈ collectAll project ParsedFile.pdus,
    (x.signalMappings.map pduSignalMappingKey).Nodup
  signals : ∀ x ∈ collectAll project ParsedFile.signals,
    x.receivers.Nodup ∧ ((x.valueTable.getD []).map valueTableEntryKey).Nodup
  signalGroups : ∀ x ∈ collectAll project ParsedFile.signalGroups, x.members.Nodup

/-- The lists of clusters and ECU instances read the same when joined. -/
def SameJoinedLists (a b : ParsedProject D) : Prop :=
  SameNamed (fun x y : Cluster => joined x.physicalChannels = joined y.physicalChannels)
      (collectAll a ParsedFile.clusters) (collectAll b ParsedFile.clusters) ∧
    SameNamed (fun x y : EcuInstance =>
        joined x.connectedChannels = joined y.connectedChannels ∧
          joined x.controllers = joined y.controllers)
      (collectAll a ParsedFile.ecuInstances) (collectAll b ParsedFile.ecuInstances)

end

/-! ## Collections compared by key -/

theorem sameSet_of_perm {old new : List String} (h : old.Perm new) : SameSet old new :=
  fun _ => h.mem_iff

theorem sameFirst_of_perm {T : Type} {keyOf : T → String} {old new : List T} (h : old.Perm new)
    (hn : (old.map keyOf).Nodup) : SameFirst keyOf old new := by
  intro key
  have hmap : firstByKey keyOf old = firstByKey keyOf new := by
    refine ofFirst_perm (h.map _) ?_
    rw [List.map_map]
    exact hn
  rw [← getElem?_firstByKey, hmap, getElem?_firstByKey]

theorem Frame.Reordered.looksAlike {x y : Frame} (h : x.Reordered y)
    (hn : (x.pdus.map framePduMappingKey).Nodup) : x.LooksAlike y :=
  ⟨by rw [h.common], h.length, Or.inr (sameSet_of_perm h.transmitters),
    sameFirst_of_perm h.pdus hn⟩

theorem Pdu.Reordered.looksAlike {x y : Pdu} (h : x.Reordered y)
    (hn : (x.signalMappings.map pduSignalMappingKey).Nodup) : x.LooksAlike y :=
  ⟨by rw [h.common], h.length, sameFirst_of_perm h.signalMappings hn⟩

theorem Signal.Reordered.looksAlike {D : Type} [Double D] {x y : Signal D} (h : x.Reordered y)
    (hn : ((x.valueTable.getD []).map valueTableEntryKey).Nodup) : x.LooksAlike y := by
  refine ⟨by rw [h.common], h.scalars, by rw [h.unit], sameSet_of_perm h.receivers,
    sameFirst_of_perm ?_ hn⟩
  have htable := h.valueTable
  generalize x.valueTable = old at htable ⊢
  generalize y.valueTable = new at htable ⊢
  cases htable with
  | none => exact .refl _
  | some hperm => exact hperm

theorem SignalGroup.Reordered.looksAlike {x y : SignalGroup} (h : x.Reordered y) :
    x.LooksAlike y :=
  ⟨by rw [h.common], sameSet_of_perm h.members⟩

theorem Cluster.Reordered.looksAlike_iff {x y : Cluster} (h : x.Reordered y) :
    x.LooksAlike y ↔ joined x.physicalChannels = joined y.physicalChannels := by
  simp [Cluster.LooksAlike, h.common, h.baudrate]

theorem EcuInstance.Reordered.looksAlike_iff {x y : EcuInstance} (h : x.Reordered y) :
    x.LooksAlike y ↔ joined x.connectedChannels = joined y.connectedChannels ∧
      joined x.controllers = joined y.controllers := by
  simp [EcuInstance.LooksAlike, h.common]

/-! ## Reordered lists -/

section
variable {T : Type} [DomainElement T] {R : T → T → Prop} {old new : List T}

omit [DomainElement T] in
theorem exists_related {l : List T} (h : List.Forall₂ R l new) {y : T} (hy : y ∈ new) :
    ∃ x ∈ l, R x y := by
  induction h with
  | nil => cases hy
  | cons hxy _ ih =>
    rcases List.mem_cons.mp hy with rfl | hy
    · exact ⟨_, List.mem_cons_self, hxy⟩
    · obtain ⟨x, hx, hr⟩ := ih hy
      exact ⟨x, List.mem_cons_of_mem _ hx, hr⟩

theorem ReorderedList.names_perm (h : ReorderedList R old new)
    (hR : ∀ x y, R x y → DomainElement.common x = DomainElement.common y) :
    (old.map shortName).Perm (new.map shortName) := by
  obtain ⟨permuted, hperm, hall⟩ := h
  have hnames : permuted.map shortName = new.map shortName := by
    clear hperm
    induction hall with
    | nil => rfl
    | cons hxy _ ih => rw [List.map_cons, List.map_cons, ih, shortName, hR _ _ hxy, shortName]
  exact hnames ▸ (hperm.map shortName).symm

/-- Same-named elements of reordered lists are related, when names are unique. -/
theorem ReorderedList.sameNamed (h : ReorderedList R old new)
    (hR : ∀ x y, R x y → DomainElement.common x = DomainElement.common y)
    (hn : (old.map shortName).Nodup) : SameNamed R old new := by
  intro x hx y hy hname _
  obtain ⟨permuted, hperm, hall⟩ := h
  obtain ⟨x', hx', hr⟩ := exists_related hall hy
  have hsame : shortName x' = shortName x := by rw [hname, shortName, hR _ _ hr, shortName]
  rwa [List.inj_on_of_nodup_map hn (hperm.mem_iff.mp hx') hx hsame] at hr

end

section
variable {D : Type} [Double D]

theorem sameNames_of_perm {T : Type} [DomainElement T] {old new : List T}
    (h : (old.map shortName).Perm (new.map shortName)) : SameNames old new :=
  fun _ _ => h.mem_iff

/-- A reordered project has an empty report exactly when the joined lists of its
clusters and ECU instances read the same. -/
theorem diff_reordered_iff {a b : ParsedProject D} (ha : UniqueShortNames a)
    (hkeys : DistinctNestedKeys a) (hr : Reordered a b) :
    ((diff a b).entries = [] ∧ (diff a b).diagnostics = []) ↔ SameJoinedLists a b := by
  have n1 := hr.clusters.names_perm fun _ _ h => h.common
  have n2 := hr.ecuInstances.names_perm fun _ _ h => h.common
  have n3 := hr.frames.names_perm fun _ _ h => h.common
  have n4 := hr.pdus.names_perm fun _ _ h => h.common
  have n5 := hr.signals.names_perm fun _ _ h => h.common
  have n6 := hr.signalGroups.names_perm fun _ _ h => h.common
  obtain ⟨a1, a2, a3, a4, a5, a6⟩ := ha
  have hb : UniqueShortNames b := ⟨n1.nodup_iff.mp a1, n2.nodup_iff.mp a2, n3.nodup_iff.mp a3,
    n4.nodup_iff.mp a4, n5.nodup_iff.mp a5, n6.nodup_iff.mp a6⟩
  have hnames : SameShortNames a b := ⟨sameNames_of_perm n1, sameNames_of_perm n2,
    sameNames_of_perm n3, sameNames_of_perm n4, sameNames_of_perm n5, sameNames_of_perm n6⟩
  have hdiagnostics := diff_diagnostics_nil (samePaths_passes.mpr hnames)
  have hclusters := (hr.clusters.sameNamed (fun _ _ h => h.common) a1).congr fun x y h =>
    diffCluster_eq_nil.trans h.looksAlike_iff
  have hecus := (hr.ecuInstances.sameNamed (fun _ _ h => h.common) a2).congr fun x y h =>
    diffEcuInstance_eq_nil.trans h.looksAlike_iff
  have hframes := (hr.frames.sameNamed (fun _ _ h => h.common) a3).imp fun x hx y h =>
    diffFrame_eq_nil.mpr (h.looksAlike (hkeys.frames x hx).2)
  have hpdus := (hr.pdus.sameNamed (fun _ _ h => h.common) a4).imp fun x hx y h =>
    diffPdu_eq_nil.mpr (h.looksAlike (hkeys.pdus x hx))
  have hsignals := (hr.signals.sameNamed (fun _ _ h => h.common) a5).imp fun x hx y h =>
    diffSignal_nil_of_looksAlike (h.looksAlike (hkeys.signals x hx).2)
  have hgroups := (hr.signalGroups.sameNamed (fun _ _ h => h.common) a6).imp fun x _ y h =>
    diffSignalGroup_eq_nil.mpr h.looksAlike
  rw [diff_entries_nil_iff ⟨a1, a2, a3, a4, a5, a6⟩ hb]
  simp only [hnames, hdiagnostics, true_and, and_true, AllPairs, silent, SameJoinedLists,
    hclusters, hecus, hframes, hpdus, hsignals, hgroups]

end

/-- A project of one file with one cluster on the channels. -/
def projectOfChannels (channels : List String) : ParsedProject WholeDouble :=
  { files := [{ clusters := [{ common := { shortName := "Can" }, physicalChannels := channels }] }] }

theorem channels_reordered : Reordered (projectOfChannels ["A", "B"]) (projectOfChannels ["B", "A"]) :=
  ⟨⟨_, .refl _, .cons ⟨rfl, rfl, .swap _ _ _⟩ .nil⟩, ⟨_, .refl _, .nil⟩, ⟨_, .refl _, .nil⟩,
    ⟨_, .refl _, .nil⟩, ⟨_, .refl _, .nil⟩, ⟨_, .refl _, .nil⟩⟩

theorem channels_unique : UniqueShortNames (projectOfChannels ["A", "B"]) := by
  unfold UniqueShortNames EachType; decide

theorem channels_distinct : DistinctNestedKeys (projectOfChannels ["A", "B"]) := by
  constructor <;> decide

/-- Swapping the channels of a cluster is reported as a change. -/
theorem swapped_channels_reported :
    UniqueShortNames (projectOfChannels ["A", "B"]) ∧
      DistinctNestedKeys (projectOfChannels ["A", "B"]) ∧
      Reordered (projectOfChannels ["A", "B"]) (projectOfChannels ["B", "A"]) ∧
      ¬ ((diff (projectOfChannels ["A", "B"]) (projectOfChannels ["B", "A"])).entries = [] ∧
        (diff (projectOfChannels ["A", "B"]) (projectOfChannels ["B", "A"])).diagnostics = []) :=
  ⟨channels_unique, channels_distinct, channels_reordered, by decide +kernel⟩

theorem diff_reordered_channels :
    (diff (projectOfChannels ["A", "B"]) (projectOfChannels ["B", "A"])).entries ≠ [] ∧
      ¬ SameJoinedLists (projectOfChannels ["A", "B"]) (projectOfChannels ["B", "A"]) := by
  have hreported : (diff (projectOfChannels ["A", "B"]) (projectOfChannels ["B", "A"])).entries ≠ [] := by
    decide +kernel
  exact ⟨hreported, fun hsame => hreported
    ((diff_reordered_iff channels_unique channels_distinct channels_reordered).mpr hsame).1⟩

end ParseX

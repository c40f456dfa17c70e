import ParseX.Base.Account
import ParseX.Export.CanDb

/-! # What the export makes of a file

The three loops of `buildExportDatabase` as an account: what every frame, PDU
mapping and signal mapping gives, and that nothing else is produced. -/
namespace ParseX.CanDb
open Cpp

section
variable {D : Type} [Double D]

/-- What a signal mapping gives: nothing without a reference, a warning when no
signal of the file has the name, else one signal. -/
inductive PlaceGives (file : ParsedFile D) (frameName : String) (who : FrameParties)
    (mapping : FramePduMapping) (place : PduSignalMapping) :
    List (ExportSignal D) → List Warning → Prop
  | group : place.signalShortNameRef = "" → PlaceGives file frameName who mapping place [] []
  | undefined : place.signalShortNameRef ≠ "" →
      (∀ signal ∈ file.signals, signal.common.shortName ≠ place.signalShortNameRef) →
      PlaceGives file frameName who mapping place []
        [undefinedSignalWarning frameName place.signalShortNameRef]
  | exported {signal : Signal D} : place.signalShortNameRef ≠ "" →
      pickModelSignal file (fileIndex file) place.signalShortNameRef = some signal →
      signal ∈ file.signals → signal.common.shortName = place.signalShortNameRef →
      PlaceGives file frameName who mapping place
        [makeSignal signal place mapping mapping.pduShortNameRef (fileIndex file) who] []

/-- What a PDU mapping gives: a warning when no PDU of the file has the name,
else what the mappings of the first such PDU give. -/
inductive MappingGives (file : ParsedFile D) (frameName : String) (who : FrameParties)
    (mapping : FramePduMapping) : List (ExportSignal D) → List Warning → Prop
  | unresolved : (∀ pdu ∈ file.pdus, pdu.common.shortName ≠ mapping.pduShortNameRef) →
      MappingGives file frameName who mapping []
        [unresolvedPduWarning frameName mapping.pduShortNameRef]
  | resolved {pdu : Pdu} {signals : List (ExportSignal D)} {warnings : List Warning} :
      file.pdus.find? (fun pdu => decide (pdu.common.shortName = mapping.pduShortNameRef)) =
        some pdu →
      Account (PlaceGives file frameName who mapping) pdu.signalMappings signals warnings →
      MappingGives file frameName who mapping signals warnings

/-- Who sends and receives a frame. -/
def frameParties (file : ParsedFile D) (frame : Frame) : FrameParties :=
  (resolveParties file (fileIndex file))[frame.common.shortName]?.getD {}

/-- What a frame gives: a warning without a header, else the header with what
its PDU mappings give. -/
inductive FrameGives (file : ParsedFile D) (frame : Frame) :
    List (ExportFrame D) → List Warning → Prop
  | skipped : (makeFrameHeader frame (fileIndex file) (frameParties file frame) :
        Option (ExportFrame D)) = none →
      FrameGives file frame [] [skippedFrameWarning frame.common.shortName]
  | exported {header : ExportFrame D} {signals : List (ExportSignal D)}
      {warnings : List Warning} :
      makeFrameHeader frame (fileIndex file) (frameParties file frame) = some header →
      header.name = frame.common.shortName →
      Account (MappingGives file frame.common.shortName (frameParties file frame)) frame.pdus
        signals warnings →
      FrameGives file frame
        [{ header with
          signals := signals }] warnings

/-! ## Picking a signal -/

theorem pickLoop_mem {span : Option RawSpan} {signals : List (Signal D)} :
    ∀ {best : Option (Signal D)} {signal : Signal D}, pickLoop span best signals = some signal →
      best = some signal ∨ signal ∈ signals := by
  induction signals with
  | nil => intro best signal h; exact Or.inl h
  | cons head rest ih =>
    intro best signal h
    unfold pickLoop at h
    split at h
    · exact Or.inr (by rw [← Option.some.inj h]; exact List.mem_cons_self)
    · have next {best' : Option (Signal D)} (hbest : best' = best ∨ best' = some head)
          (h : pickLoop span best' rest = some signal) :
          best = some signal ∨ signal ∈ head :: rest := by
        rcases ih h with heq | hmem
        · rcases hbest with rfl | rfl
          · exact Or.inl heq
          · exact Or.inr (by rw [← Option.some.inj heq]; exact List.mem_cons_self)
        · exact Or.inr (List.mem_cons_of_mem _ hmem)
      cases best with
      | none => exact next (Or.inr rfl) h
      | some held =>
        dsimp only at h
        split at h
        · exact next (Or.inr rfl) h
        · exact next (Or.inl rfl) h

theorem pickLoop_isSome {span : Option RawSpan} {signals : List (Signal D)} :
    ∀ {best : Option (Signal D)}, pickLoop span best signals = none ↔
      best = none ∧ signals = [] := by
  induction signals with
  | nil => intro best; simp [pickLoop]
  | cons head rest ih =>
    intro best
    unfold pickLoop
    split
    · simp
    · cases best with
      | none => simp [ih]
      | some held => simp only [ih]; split <;> simp

/-- A picked signal is one of the file's with the name. -/
theorem pickModelSignal_mem {file : ParsedFile D} {index : Index} {name : String}
    {signal : Signal D} (h : pickModelSignal file index name = some signal) :
    signal ∈ file.signals ∧ signal.common.shortName = name := by
  rcases pickLoop_mem h with hnone | hmem
  · cases hnone
  · simpa using List.mem_filter.mp hmem

theorem pickModelSignal_eq_none {file : ParsedFile D} {index : Index} {name : String} :
    pickModelSignal file index name = none ↔
      ∀ signal ∈ file.signals, signal.common.shortName ≠ name := by
  rw [pickModelSignal, pickLoop_isSome]
  simp

theorem getElem?_pduTable (file : ParsedFile D) (name : String) :
    (pduTable file)[name]? =
      file.pdus.find? fun pdu => decide (pdu.common.shortName = name) := by
  rw [pduTable, getElem?_ofFirst, List.find?_map]
  simp [Function.comp_def]

/-! ## The loops -/

/-- One turn of the loop over the signal mappings. -/
theorem appendPlace_appends (file : ParsedFile D) (frameName : String) (who : FrameParties)
    (mapping : FramePduMapping) (state : FrameState D) (place : PduSignalMapping) :
    Appends (fun state : FrameState D => state.1.signals) Prod.snd
      (PlaceGives file frameName who mapping place) state
      (appendPlace file (fileIndex file) frameName who mapping state place) := by
  unfold appendPlace
  split
  · rename_i hempty
    exact ⟨[], [], .group hempty, by simp, by simp⟩
  · rename_i hne
    cases hpick : pickModelSignal file (fileIndex file) place.signalShortNameRef with
    | none => exact ⟨[], _, .undefined hne (pickModelSignal_eq_none.mp hpick), by simp, rfl⟩
    | some signal =>
      obtain ⟨hmem, hname⟩ := pickModelSignal_mem hpick
      exact ⟨_, [], .exported hne hpick hmem hname, rfl, by simp⟩

/-- One turn of the loop over the PDU mappings. -/
theorem appendPduSignals_appends (file : ParsedFile D) (frameName : String) (who : FrameParties)
    (state : FrameState D) (mapping : FramePduMapping) :
    Appends (fun state : FrameState D => state.1.signals) Prod.snd
      (MappingGives file frameName who mapping) state
      (appendPduSignals file (fileIndex file) frameName who state mapping) := by
  unfold appendPduSignals
  rw [getElem?_pduTable]
  cases hpdu : file.pdus.find? fun pdu =>
      decide (pdu.common.shortName = mapping.pduShortNameRef) with
  | none =>
    refine ⟨[], _, .unresolved fun pdu hmem => ?_, by simp, rfl⟩
    simpa using List.find?_eq_none.mp hpdu pdu hmem
  | some pdu =>
    obtain ⟨signals, warnings, haccount, hs, hw⟩ :=
      appends_foldl (appendPlace_appends file frameName who mapping) pdu.signalMappings state
    exact ⟨signals, warnings, .resolved hpdu haccount, hs, hw⟩

/-- Two frames that differ in their signals at most. -/
def SameHeader (before after : ExportFrame D) : Prop :=
  after = { before with
    signals := after.signals }

theorem SameHeader.trans {first second third : ExportFrame D} (h : SameHeader first second)
    (h' : SameHeader second third) : SameHeader first third := by
  unfold SameHeader at *
  rw [h] at h'
  exact h'

/-- The loops touch no field of the frame but its signals. -/
theorem appendPlace_header (file : ParsedFile D) (index : Index) (frameName : String)
    (who : FrameParties) (mapping : FramePduMapping) (state : FrameState D)
    (place : PduSignalMapping) :
    SameHeader state.1 (appendPlace file index frameName who mapping state place).1 := by
  unfold appendPlace
  split
  · rfl
  · split <;> rfl

theorem appendPduSignals_header (file : ParsedFile D) (index : Index) (frameName : String)
    (who : FrameParties) (state : FrameState D) (mapping : FramePduMapping) :
    SameHeader state.1 (appendPduSignals file index frameName who state mapping).1 := by
  unfold appendPduSignals
  split
  · rfl
  · rename_i pdu _
    generalize pdu.signalMappings = places
    induction places generalizing state with
    | nil => rfl
    | cons place places ih =>
      rw [List.foldl_cons]
      exact (appendPlace_header file index frameName who mapping state place).trans (ih _)

theorem appendPdus_header (file : ParsedFile D) (index : Index) (frameName : String)
    (who : FrameParties) (mappings : List FramePduMapping) : ∀ state : FrameState D,
    SameHeader state.1 (mappings.foldl (appendPduSignals file index frameName who) state).1 := by
  induction mappings with
  | nil => intro state; rfl
  | cons mapping mappings ih =>
    intro state
    rw [List.foldl_cons]
    exact (appendPduSignals_header file index frameName who state mapping).trans (ih _)

theorem makeFrameHeader_some {frame : Frame} {index : Index} {who : FrameParties}
    {header : ExportFrame D} (h : makeFrameHeader frame index who = some header) :
    header.name = frame.common.shortName ∧ header.signals = [] := by
  unfold makeFrameHeader at h
  split at h
  · cases h
  · split at h
    · cases h
    · obtain rfl := Option.some.inj h
      exact ⟨rfl, rfl⟩

/-- One turn of the loop over the frames. -/
theorem appendFrame_appends (file : ParsedFile D) (database : ExportDatabase D) (frame : Frame) :
    Appends ExportDatabase.frames ExportDatabase.warnings (FrameGives file frame) database
      (appendFrame file (fileIndex file) (resolveParties file (fileIndex file)) database
        frame) := by
  unfold appendFrame
  dsimp only
  generalize hmade : (makeFrameHeader _ _ _ : Option (ExportFrame D)) = made
  have hheader : makeFrameHeader frame (fileIndex file) (frameParties file frame) = made := hmade
  cases made with
  | none => exact ⟨[], _, .skipped hheader, by simp, rfl⟩
  | some header =>
    obtain ⟨hname, hnil⟩ := makeFrameHeader_some hheader
    obtain ⟨signals, warnings, haccount, hs, hw⟩ :=
      appends_foldl (appendPduSignals_appends file frame.common.shortName
        (frameParties file frame)) frame.pdus (header, database.warnings)
    have hkeep := appendPdus_header file (fileIndex file) frame.common.shortName
      (frameParties file frame) frame.pdus (header, database.warnings)
    dsimp only at hs hw
    rw [hnil, List.nil_append] at hs
    refine ⟨_, warnings, .exported hheader hname haccount, ?_, hw⟩
    rw [← hs]
    exact congrArg (fun out => database.frames ++ [out]) hkeep

/-- The frames and warnings of the export, frame by frame. -/
theorem buildExportDatabase_account (file : ParsedFile D) :
    Account (FrameGives file) file.frames (buildExportDatabase file).frames
      (buildExportDatabase file).warnings := by
  obtain ⟨frames, warnings, haccount, hframes, hwarnings⟩ :=
    appends_foldl (appendFrame_appends file) file.frames
      { busName := (file.clusters.head?.map fun cluster => cluster.common.shortName).getD ""
        baudrate := file.clusters.head?.bind Cluster.baudrate
        nodes := file.ecuInstances.map fun ecu => ecu.common.shortName }
  rw [List.nil_append] at hframes hwarnings
  rw [← hframes, ← hwarnings] at haccount
  exact haccount

/-- The frames that have a header. -/
def headedFrames (file : ParsedFile D) : List Frame :=
  file.frames.filter fun frame =>
    (makeFrameHeader frame (fileIndex file) (frameParties file frame) : Option (ExportFrame D)).isSome

theorem FrameGives.map_name {file : ParsedFile D} {frame : Frame} {outs : List (ExportFrame D)}
    {notes : List Warning} (h : FrameGives file frame outs notes) : outs.map ExportFrame.name =
      if (makeFrameHeader frame (fileIndex file) (frameParties file frame) :
        Option (ExportFrame D)).isSome then [frame.common.shortName] else [] := by
  cases h with
  | skipped hnone =>
    rw [hnone]
    rfl
  | exported hheader hname _ =>
    rw [hheader, Option.isSome_some, if_pos rfl, List.map_singleton, ← hname]

/-- **The export drops nothing silently.** Frames, PDU mappings and signal mappings are accounted for in
order, and the frames with a header are exported, each once. -/
theorem export_accounts_for_everything (file : ParsedFile D) :
    Account (FrameGives file) file.frames (buildExportDatabase file).frames
      (buildExportDatabase file).warnings ∧
    (buildExportDatabase file).frames.map ExportFrame.name =
      (headedFrames file).map fun frame => frame.common.shortName := by
  have haccount := buildExportDatabase_account file
  exact ⟨haccount, haccount.map_outs fun _ _ _ hgives => hgives.map_name⟩

end

end ParseX.CanDb

import ParseX.Base.KeepFirst
import ParseX.Export.Lookup

/-! # Transmitters and receivers

Who sends and who receives a frame, as the document states it by its ports and
its PDU groups, and what the exporter resolves. -/
namespace ParseX.CanDb
open Cpp KeepFirst

/-! ## What the document states -/

/-- Whether a port or a group is on the transmitting side. -/
def isOut (node : RawNode) : Bool := childText node "COMMUNICATION-DIRECTION" == "OUT"

/-- The `FRAME-PORT`s of a document. -/
def framePortsOf (root : RawNode) : List Placed :=
  (placedNodes root "" "").filter fun place => place.node.tagName == "FRAME-PORT"

/-- The `I-SIGNAL-I-PDU-GROUP`s of a document. -/
def groupsOf (root : RawNode) : List Placed :=
  (placedNodes root "" "").filter fun place => place.node.tagName == "I-SIGNAL-I-PDU-GROUP"

/-- The full path of an element in the packages. -/
def Placed.path (place : Placed) : String := place.pkgPath ++ "/" ++ nameOf place.node

/-- The ECUs of a document. -/
def ecusOf (root : RawNode) : List RawNode :=
  root.nodes.filter fun node => node.tagName == "ECU-INSTANCE"

/-- The triggerings that refer to a frame. -/
def triggeringsOf (root : RawNode) (name : String) : List RawNode :=
  root.nodes.filter fun node => node.tagName == "CAN-FRAME-TRIGGERING" &&
    decide (shortNameOfRef (childText node "FRAME-REF") = name)

/-- The owners of the ports of one side that the triggerings of a frame refer to. -/
def portOwners (root : RawNode) (frame : Frame) (out : Bool) : List String :=
  (triggeringsOf root frame.common.shortName).flatMap fun triggering =>
    (refNames triggering "FRAME-PORT-REF").flatMap fun portName =>
      ((framePortsOf root).filter fun port =>
        nameOf port.node = portName && isOut port.node == out).map Placed.ecu

/-- The full paths of the groups that an ECU associates. -/
def groupPaths (ecu : RawNode) : List String :=
  (findDescendants ecu "ASSOCIATED-COM-I-PDU-GROUP-REF").map fun ref => trimText ref.text

/-- An ECU associates a group of the side with a PDU of the name. -/
def Associates (root : RawNode) (out : Bool) (ecu : RawNode) (pdu : String) : Prop :=
  ∃ group ∈ groupsOf root, group.path ∈ groupPaths ecu ∧ isOut group.node = out ∧
    pdu ∈ refNames group.node "I-SIGNAL-I-PDU-REF"

instance (root : RawNode) (out : Bool) (ecu : RawNode) (pdu : String) :
    Decidable (Associates root out ecu pdu) :=
  inferInstanceAs (Decidable (∃ group ∈ groupsOf root, _ ∧ _ ∧ _))

/-- The names by which a frame maps its PDUs. -/
def mappedPdus (frame : Frame) : List String := frame.pdus.map FramePduMapping.pduShortNameRef

/-- A group on the side contains a PDU that the frame maps by a short name. -/
def ByGroup (root : RawNode) (frame : Frame) (out : Bool) (ecu : RawNode) : Prop :=
  ∃ pdu ∈ mappedPdus frame, pdu ≠ "" ∧ Associates root out ecu pdu

instance (root : RawNode) (frame : Frame) (out : Bool) (ecu : RawNode) :
    Decidable (ByGroup root frame out ecu) :=
  inferInstanceAs (Decidable (∃ pdu ∈ mappedPdus frame, _ ∧ _))

/-- The stated parties of one side: the owners of the ports in the order of the
references, then the ECUs in document order, each name once. -/
def statedParties (root : RawNode) (frame : Frame) (out : Bool) : List String :=
  ((portOwners root frame out ++
    ((ecusOf root).filter fun ecu => ByGroup root frame out ecu).map nameOf).filter
      fun name => name ≠ "").eraseDups

/-- The names that the joins go by are unique. -/
structure UniqueNames {D : Type} [Double D] (file : ParsedFile D) (root : RawNode) : Prop where
  ports : ((framePortsOf root).map fun port => nameOf port.node).Nodup
  frames : (file.frames.map fun frame => frame.common.shortName).Nodup
  triggerings : ∀ frame ∈ file.frames, (triggeringsOf root frame.common.shortName).length ≤ 1
  ecus : ((ecusOf root).map nameOf).Nodup
  groups : ((groupsOf root).map Placed.path).Nodup

/-! ## What the index holds -/

section
variable {root : RawNode}

theorem framePorts_eq (root : RawNode) : (buildIndex root "" "" {}).framePorts =
    ofFirst ((framePortsOf root).map fun port =>
      (nameOf port.node, (⟨isOut port.node, port.ecu⟩ : FramePort))) := by
  rw [table_placedNodes indexNode_framePorts, framePortsOf]
  exact congrArg (emplaceAll ∅) (flatMap_ite _ _ fun port : Placed =>
    (nameOf port.node, (⟨isOut port.node, port.ecu⟩ : FramePort)))

theorem groupsByPath_eq (root : RawNode) : (buildIndex root "" "" {}).groupsByPath =
    ofFirst ((groupsOf root).map fun group => (group.path,
      (⟨isOut group.node, refNames group.node "I-SIGNAL-I-PDU-REF"⟩ : Group))) := by
  rw [table_placedNodes indexNode_groupsByPath, groupsOf]
  exact congrArg (emplaceAll ∅) (flatMap_ite _ _ fun group : Placed => (group.path,
    (⟨isOut group.node, refNames group.node "I-SIGNAL-I-PDU-REF"⟩ : Group)))

theorem ecuGroupRefs_eq (root : RawNode) : (buildIndex root "" "" {}).ecuGroupRefs =
    (ecusOf root).map fun ecu => (nameOf ecu, groupPaths ecu) := by
  have hrun : ∀ (places : List Placed) (index : Index),
      (places.foldl (fun index place => indexNode place.node place.pkgPath place.ecu index)
        index).ecuGroupRefs = index.ecuGroupRefs ++ (places.map Placed.node).flatMap fun node =>
          if node.tagName == "ECU-INSTANCE" then [(nameOf node, groupPaths node)] else [] := by
    intro places
    induction places with
    | nil => intro index; simp
    | cons place places ih =>
      intro index
      rw [List.foldl_cons, ih, indexNode_ecuGroupRefs, List.map_cons, List.flatMap_cons,
        List.append_assoc]
      rfl
  rw [buildIndex_eq, hrun, map_node_placedNodes, flatMap_ite]
  rfl

end

/-! ## What the exporter resolves -/

/-- The parties of one side. -/
def FrameParties.side (who : FrameParties) (out : Bool) : List String :=
  if out then who.transmitters else who.receivers

/-- A party of a frame to be added on a side. -/
structure Party where
  frame : String
  out : Bool
  ecu : String

def Party.add (parties : PartyMap) (party : Party) : PartyMap :=
  addParty parties party.frame party.out party.ecu

/-- The parties of a frame that the ports give. -/
def portParties (index : Index) (frame : Frame) : List Party :=
  match index.triggerings[frame.common.shortName]? with
  | none => []
  | some trig => (refNames trig "FRAME-PORT-REF").flatMap fun portName =>
      match index.framePorts[portName]? with
      | none => []
      | some port => [⟨frame.common.shortName, port.out, port.ecu⟩]

theorem getD_add (parties : PartyMap) (party : Party) (name : String) (out : Bool) :
    ((party.add parties)[name]?.getD {}).side out =
      (if party.frame = name ∧ party.out = out then [party.ecu] else []).foldl addUnique
        ((parties[name]?.getD {}).side out) := by
  unfold Party.add addParty
  rw [Std.ExtTreeMap.getElem?_insert]
  by_cases hname : party.frame = name
  · subst hname
    cases party.out <;> cases out <;> simp [FrameParties.side]
  · simp [hname]

/-- A side of a frame collects the parties added there. -/
theorem getD_foldl_add (added : List Party) (parties : PartyMap) (name : String) (out : Bool) :
    ((added.foldl Party.add parties)[name]?.getD {}).side out =
      ((added.filter fun party => party.frame = name ∧ party.out = out).map Party.ecu).foldl
        addUnique ((parties[name]?.getD {}).side out) := by
  induction added generalizing parties with
  | nil => rfl
  | cons party added ih =>
    rw [List.foldl_cons, ih, getD_add, List.filter_cons]
    by_cases hparty : party.frame = name ∧ party.out = out
    · rw [if_pos hparty, if_pos (by simpa using hparty)]
      rfl
    · rw [if_neg hparty, if_neg (by simpa using hparty)]
      rfl

section
variable {D : Type} [Double D] {file : ParsedFile D}

/-- The parties of one side that are resolved for a frame. -/
def resolvedParties (file : ParsedFile D) (frame : Frame) (out : Bool) : List String :=
  ((resolveParties file (fileIndex file))[frame.common.shortName]?.getD {}).side out

/-- The parties that the groups of an ECU give. -/
def groupParties (file : ParsedFile D) (index : Index) (ecu : String) (paths : List String) :
    List Party :=
  paths.flatMap fun path =>
    match index.groupsByPath[path]? with
    | none => []
    | some group => (group.pdus.flatMap (framesByPdu file)).map fun frame =>
        ⟨frame.common.shortName, group.out, ecu⟩

theorem addPortParties_eq (file : ParsedFile D) (index : Index) (parties : PartyMap) :
    addPortParties file index parties =
      (file.frames.flatMap (portParties index)).foldl Party.add parties := by
  rw [addPortParties, List.foldl_flatMap]
  congr 1
  funext parties frame
  unfold portParties
  cases htrig : index.triggerings[frame.common.shortName]? with
  | none => rfl
  | some trig =>
    dsimp only
    rw [List.foldl_flatMap]
    congr 1
    funext parties portName
    cases hport : index.framePorts[portName]? <;> rfl

theorem addGroupParties_eq (file : ParsedFile D) (index : Index) (parties : PartyMap) :
    addGroupParties file index parties =
      (index.ecuGroupRefs.flatMap fun entry => groupParties file index entry.1 entry.2).foldl
        Party.add parties := by
  rw [addGroupParties, List.foldl_flatMap]
  congr 1
  funext parties (ecu, refs)
  dsimp only
  rw [groupParties, List.foldl_flatMap]
  congr 1
  funext parties path
  cases hgroup : index.groupsByPath[path]? with
  | none => rfl
  | some group =>
    dsimp only
    rw [List.foldl_map]
    rfl

theorem resolvedParties_eq (file : ParsedFile D) (frame : Frame) (out : Bool) :
    resolvedParties file frame out =
      (((file.frames.flatMap (portParties (fileIndex file)) ++
        (fileIndex file).ecuGroupRefs.flatMap fun entry =>
          groupParties file (fileIndex file) entry.1 entry.2).filter fun party =>
            party.frame = frame.common.shortName ∧ party.out = out).map Party.ecu).foldl
              (push fun name => name ≠ "") [] := by
  rw [resolvedParties, resolveParties, addPortParties_eq, addGroupParties_eq, ← List.foldl_append,
    getD_foldl_add, Std.ExtTreeMap.getElem?_empty]
  cases out <;> rfl

/-- With distinct keys a search finds the one element of a key. -/
theorem filter_key {α : Type} {key : α → String} {l : List α} (hn : (l.map key).Nodup)
    (name : String) : (l.filter fun x => key x = name) =
      (l.find? fun x => key x = name).toList := by
  induction l with
  | nil => rfl
  | cons x l ih =>
    obtain ⟨hx, hl⟩ := List.nodup_cons.mp hn
    by_cases hk : key x = name
    · have hnone : (l.filter fun y => key y = name) = [] := by
        refine List.filter_eq_nil_iff.mpr fun y hy => ?_
        have hne : key y ≠ name := fun h => hx (List.mem_map.mpr ⟨y, hy, h.trans hk.symm⟩)
        simpa using hne
      simp [hk, hnone]
    · simp [hk, ih hl]

/-- With distinct keys the elements of other keys add nothing. -/
theorem flatMap_key {α β : Type} {key : α → String} {l : List α} (hn : (l.map key).Nodup) {x : α}
    (hx : x ∈ l) {items : α → List β} (h : ∀ y ∈ l, key y ≠ key x → items y = []) :
    l.flatMap items = items x := by
  induction l with
  | nil => cases hx
  | cons y l ih =>
    obtain ⟨hy, hl⟩ := List.nodup_cons.mp hn
    obtain ⟨hhead, hrest⟩ := List.forall_mem_cons.mp h
    rw [List.flatMap_cons]
    rcases List.mem_cons.mp hx with rfl | hx
    · have hnone : l.flatMap items = [] := List.flatMap_eq_nil_iff.mpr fun z hz =>
        hrest z hz fun hkey => hy (List.mem_map.mpr ⟨z, hz, hkey⟩)
      rw [hnone, List.append_nil]
    · have hne : key y ≠ key x := fun hkey => hy (List.mem_map.mpr ⟨x, hx, hkey.symm⟩)
      rw [hhead hne, List.nil_append, ih hl hx hrest]

/-- Of a frame's triggerings, at most one, the index holds the first. -/
theorem triggeringsOf_eq {root : RawNode} {name : String}
    (h : (triggeringsOf root name).length ≤ 1) :
    triggeringsOf root name = (triggeringOf root name).toList := by
  rw [triggeringOf, ← List.head?_filter]
  change _ = (triggeringsOf root name).head?.toList
  cases hlist : triggeringsOf root name with
  | nil => rfl
  | cons first rest =>
    rw [hlist, List.length_cons] at h
    rw [List.length_eq_zero_iff.mp (by omega : rest.length = 0)]
    rfl

theorem getElem?_framePorts (root : RawNode) (name : String) :
    (buildIndex root "" "" {}).framePorts[name]? =
      ((framePortsOf root).find? fun port => nameOf port.node = name).map fun port =>
        ⟨isOut port.node, port.ecu⟩ := by
  rw [framePorts_eq, getElem?_ofFirst, List.find?_map, Option.map_map]
  rfl

/-- The ports give the owners that the document states. -/
theorem portParties_owners {root : RawNode} (hunique : UniqueNames file root) {frame : Frame}
    (hframe : frame ∈ file.frames) (out : Bool) :
    ((file.frames.flatMap (portParties (buildIndex root "" "" {}))).filter fun party =>
      party.frame = frame.common.shortName ∧ party.out = out).map Party.ecu =
        portOwners root frame out := by
  have hother : ∀ other : Frame, ∀ party ∈ portParties (buildIndex root "" "" {}) other,
      party.frame = other.common.shortName := by
    intro other party hparty
    unfold portParties at hparty
    split at hparty
    · cases hparty
    · obtain ⟨portName, -, hport⟩ := List.mem_flatMap.mp hparty
      split at hport
      · cases hport
      · rw [List.mem_singleton] at hport
        rw [hport]
  rw [List.filter_flatMap, List.map_flatMap, flatMap_key hunique.frames hframe]
  · unfold portParties portOwners
    rw [triggeringsOf_eq (hunique.triggerings frame hframe), getElem?_triggerings]
    cases triggeringOf root frame.common.shortName with
    | none => rfl
    | some triggering =>
      simp only [Option.toList_some, List.flatMap_singleton]
      rw [List.filter_flatMap, List.map_flatMap]
      refine List.flatMap_congr fun portName _ => ?_
      rw [getElem?_framePorts, List.filter_congr fun port _ => Bool.and_comm _ _,
        ← List.filter_filter, filter_key hunique.ports]
      cases (framePortsOf root).find? fun port => nameOf port.node = portName with
      | none => rfl
      | some port => by_cases hout : isOut port.node = out <;> simp [hout]
  · intro other _ hne
    rw [List.map_eq_nil_iff, List.filter_eq_nil_iff]
    intro party hparty
    simp [hother other party hparty, hne]

theorem getElem?_groupsByPath {root : RawNode} (hunique : UniqueNames file root) {path : String}
    {group : Group} : (buildIndex root "" "" {}).groupsByPath[path]? = some group ↔
      ∃ place ∈ groupsOf root, place.path = path ∧
        group = ⟨isOut place.node, refNames place.node "I-SIGNAL-I-PDU-REF"⟩ := by
  rw [groupsByPath_eq, getElem?_ofFirst_of_nodup]
  · rw [List.mem_map]
    refine exists_congr fun place => and_congr_right fun _ => ?_
    rw [Prod.mk.injEq]
    exact and_congr_right fun _ => eq_comm
  · rw [List.map_map]
    exact hunique.groups

theorem mem_framesByPdu {pdu : String} {frame : Frame} :
    frame ∈ framesByPdu file pdu ↔ frame ∈ file.frames ∧ pdu ∈ mappedPdus frame := by
  unfold framesByPdu mappedPdus
  simp only [List.mem_flatMap, List.mem_map, List.mem_filter, decide_eq_true_eq]
  constructor
  · rintro ⟨other, hother, mapping, ⟨hmapping, hpdu⟩, rfl⟩
    exact ⟨hother, mapping, hmapping, hpdu⟩
  · rintro ⟨hframe, mapping, hmapping, hpdu⟩
    exact ⟨frame, hframe, mapping, ⟨hmapping, hpdu⟩, rfl⟩

theorem mem_groupParties {root : RawNode} (hunique : UniqueNames file root) {ecu : String}
    {paths : List String} {party : Party} :
    party ∈ groupParties file (buildIndex root "" "" {}) ecu paths ↔
      ∃ group ∈ groupsOf root, group.path ∈ paths ∧
        ∃ pdu ∈ refNames group.node "I-SIGNAL-I-PDU-REF", ∃ frame ∈ file.frames,
          pdu ∈ mappedPdus frame ∧ party = ⟨frame.common.shortName, isOut group.node, ecu⟩ := by
  rw [groupParties, List.mem_flatMap]
  constructor
  · rintro ⟨path, hpath, hparty⟩
    split at hparty
    · cases hparty
    · rename_i held hheld
      obtain ⟨group, hgroup, rfl, rfl⟩ := (getElem?_groupsByPath hunique).mp hheld
      obtain ⟨frame, hframe, rfl⟩ := List.mem_map.mp hparty
      obtain ⟨pdu, hpdu, hframe⟩ := List.mem_flatMap.mp hframe
      obtain ⟨hframe, hmapped⟩ := mem_framesByPdu.mp hframe
      exact ⟨group, hgroup, hpath, pdu, hpdu, frame, hframe, hmapped, rfl⟩
  · rintro ⟨group, hgroup, hpath, pdu, hpdu, frame, hframe, hmapped, rfl⟩
    refine ⟨group.path, hpath, ?_⟩
    rw [(getElem?_groupsByPath hunique).mpr ⟨group, hgroup, rfl, rfl⟩]
    exact List.mem_map.mpr ⟨frame, List.mem_flatMap.mpr
      ⟨pdu, hpdu, mem_framesByPdu.mpr ⟨hframe, hmapped⟩⟩, rfl⟩

/-- An ECU gives a party of a frame on a side when it associates a group of the
side with a PDU that the frame maps, by whatever reference. -/
theorem groupParties_ne_nil {root : RawNode} (hunique : UniqueNames file root) {frame : Frame}
    (hframe : frame ∈ file.frames) (out : Bool) (ecu : RawNode) :
    ((groupParties file (buildIndex root "" "" {}) (nameOf ecu) (groupPaths ecu)).filter
      fun party => party.frame = frame.common.shortName ∧ party.out = out) ≠ [] ↔
        ∃ pdu ∈ mappedPdus frame, Associates root out ecu pdu := by
  simp only [Ne, List.eq_nil_iff_forall_not_mem, not_forall, not_not, List.mem_filter,
    decide_eq_true_eq, mem_groupParties hunique]
  constructor
  · rintro ⟨party, ⟨group, hgroup, hpath, pdu, hpdu, other, hother, hmapped, rfl⟩, hname, hout⟩
    obtain rfl : other = frame := List.inj_on_of_nodup_map hunique.frames hother hframe hname
    exact ⟨pdu, hmapped, group, hgroup, hpath, hout, hpdu⟩
  · rintro ⟨pdu, hmapped, group, hgroup, hpath, hout, hpdu⟩
    exact ⟨_, ⟨group, hgroup, hpath, pdu, hpdu, frame, hframe, hmapped, rfl⟩, rfl, hout⟩

/-- What is resolved: the stated owners of the ports, then the ECUs that
associate a group with a PDU mapped by whatever reference. -/
theorem resolvedParties_buildIndex {root : RawNode} (hroot : file.rawDocument = some root)
    (hunique : UniqueNames file root) {frame : Frame} (hframe : frame ∈ file.frames) (out : Bool) :
    resolvedParties file frame out =
      (((ecusOf root).filter fun ecu =>
        decide (∃ pdu ∈ mappedPdus frame, Associates root out ecu pdu)).map nameOf).foldl
          (push fun name => name ≠ "")
          ((portOwners root frame out).foldl (push fun name => name ≠ "") []) := by
  have hindex : fileIndex file = buildIndex root "" "" {} := by rw [fileIndex, hroot]
  rw [resolvedParties_eq, hindex, List.filter_append, List.map_append, List.foldl_append,
    portParties_owners hunique hframe, ecuGroupRefs_eq, List.flatMap_map, List.filter_flatMap,
    List.map_flatMap]
  have hitems : ∀ ecu ∈ ecusOf root, ∀ name ∈ ((groupParties file (buildIndex root "" "" {})
      (nameOf ecu) (groupPaths ecu)).filter fun party =>
        party.frame = frame.common.shortName ∧ party.out = out).map Party.ecu,
      name = nameOf ecu := by
    intro ecu _ name hname
    obtain ⟨party, hparty, rfl⟩ := List.mem_map.mp hname
    obtain ⟨_, _, _, _, _, _, _, _, rfl⟩ := (mem_groupParties hunique).mp (List.mem_filter.mp hparty).1
    rfl
  rw [foldl_push_flatMap hitems, List.filter_congr fun ecu _ => ?_]
  rw [decide_eq_decide, ← groupParties_ne_nil hunique hframe, Ne, List.map_eq_nil_iff]

/-- The stated parties as a run of the same loop. -/
theorem statedParties_eq (root : RawNode) (frame : Frame) (out : Bool) :
    statedParties root frame out =
      (((ecusOf root).filter fun ecu => decide (ByGroup root frame out ecu)).map nameOf).foldl
        (push fun name => name ≠ "")
        ((portOwners root frame out).foldl (push fun name => name ≠ "") []) := by
  rw [statedParties, ← List.foldl_append, foldl_push_nil]

/-- An ECU associates a group of the side with an empty reference, and the frame
maps a PDU by an empty reference. -/
def ByEmptyReference (root : RawNode) (frame : Frame) (out : Bool) (ecu : RawNode) : Prop :=
  "" ∈ mappedPdus frame ∧ Associates root out ecu ""

instance (root : RawNode) (frame : Frame) (out : Bool) (ecu : RawNode) :
    Decidable (ByEmptyReference root frame out ecu) :=
  inferInstanceAs (Decidable (_ ∧ _))

/-- The parties of a side are the stated ones exactly when every named ECU that
two empty references join to the frame is stated otherwise too. -/
theorem resolved_parties_iff {path : String} {root : RawNode}
    (hparsed : parseDocument path root = .ok file) (hunique : UniqueNames file root)
    {frame : Frame} (hframe : frame ∈ file.frames) (out : Bool) :
    resolvedParties file frame out = statedParties root frame out ↔
      ∀ ecu ∈ ecusOf root, ByEmptyReference root frame out ecu → nameOf ecu ≠ "" →
        nameOf ecu ∈ portOwners root frame out ∨ ByGroup root frame out ecu := by
  rw [resolvedParties_buildIndex (parseDocument_ok hparsed).1 hunique hframe, statedParties_eq]
  constructor
  · intro heq ecu hecu hempty hname
    have hany : ecu ∈ (ecusOf root).filter fun ecu =>
        decide (∃ pdu ∈ mappedPdus frame, Associates root out ecu pdu) :=
      List.mem_filter.mpr ⟨hecu, decide_eq_true ⟨"", hempty⟩⟩
    have hmem := iff_of_eq (congrArg (nameOf ecu ∈ ·) heq)
    simp only [mem_foldl_push] at hmem
    rcases hmem.mp (.inr ⟨hname, List.mem_map_of_mem hany⟩) with (hmem | ⟨-, howner⟩) | ⟨-, hgroup⟩
    · cases hmem
    · exact .inl howner
    · obtain ⟨other, hother, hsame⟩ := List.mem_map.mp hgroup
      obtain ⟨hother, hby⟩ := List.mem_filter.mp hother
      obtain rfl : other = ecu := List.inj_on_of_nodup_map hunique.ecus hother hecu hsame
      exact .inr (of_decide_eq_true hby)
  · intro h
    refine foldl_push_filter_congr ?_ ?_
    · intro ecu _ hby
      obtain ⟨pdu, hmapped, -, hassociates⟩ := of_decide_eq_true hby
      exact decide_eq_true ⟨pdu, hmapped, hassociates⟩
    · intro ecu hecu hany hname
      obtain ⟨pdu, hmapped, hassociates⟩ := of_decide_eq_true hany
      by_cases hpdu : pdu = ""
      · subst hpdu
        rcases h ecu hecu ⟨hmapped, hassociates⟩ hname with howner | hby
        · exact .inl (mem_foldl_push.mpr (.inr ⟨hname, howner⟩))
        · exact .inr (decide_eq_true hby)
      · exact .inr (decide_eq_true ⟨pdu, hmapped, hpdu, hassociates⟩)

end

/-! ## An instance -/

/-- A node with a name and further texts below it. -/
def nodeOfName (tagName name : String) (texts : List (String × String)) : RawNode :=
  { tagName := tagName
    children := (("SHORT-NAME", name) :: texts).map fun (childTag, text) =>
      { tagName := childTag, text := text } }

/-- A frame with a mapping for each reference. -/
def frameOfRefs (refs : List String) : RawNode :=
  { tagName := "CAN-FRAME"
    children := { tagName := "SHORT-NAME", text := "F" } :: refs.map fun ref =>
      { tagName := "PDU-TO-FRAME-MAPPING", children := [{ tagName := "PDU-REF", text := ref }] } }

/-- A package with the frame, a sender `S` with a port that the triggering refers
to, and an ECU `E` whose transmitted group has the same references as the frame. -/
def documentOfRefs (refs : List String) : RawNode :=
  { tagName := "AUTOSAR"
    attributes := [("xsi:schemaLocation", "http://autosar.org/schema/r4.0 AUTOSAR_00046.xsd")]
    children := [
      { tagName := "AR-PACKAGE"
        children := [
          { tagName := "SHORT-NAME", text := "P" },
          frameOfRefs refs,
          nodeOfName "CAN-FRAME-TRIGGERING" "T"
            [("FRAME-REF", "/P/F"), ("FRAME-PORT-REF", "/P/S/port")],
          { tagName := "ECU-INSTANCE"
            children := [
              { tagName := "SHORT-NAME", text := "S" },
              nodeOfName "FRAME-PORT" "port" [("COMMUNICATION-DIRECTION", "OUT")]] },
          nodeOfName "ECU-INSTANCE" "E" [("ASSOCIATED-COM-I-PDU-GROUP-REF", "/P/G")],
          nodeOfName "I-SIGNAL-I-PDU-GROUP" "G" (("COMMUNICATION-DIRECTION", "OUT") ::
            refs.map fun ref => ("I-SIGNAL-I-PDU-REF", ref))] }] }

/-- The parser accepts a document with a schema, and the frames are known. -/
theorem exists_parsed {D : Type} [Double D] {root : RawNode} {frames : List Frame}
    (h : (parseDocument "<buffer>" root : Except _ (ParsedFile D)).toOption.map ParsedFile.frames =
      some frames) :
    ∃ file : ParsedFile D, parseDocument "<buffer>" root = .ok file ∧ file.frames = frames := by
  cases hparse : (parseDocument "<buffer>" root : Except _ (ParsedFile D)) with
  | error failure => rw [hparse] at h; cases h
  | ok file =>
    rw [hparse] at h
    exact ⟨file, rfl, Option.some.inj h⟩

theorem uniqueNames_documentOfRefs {file : ParsedFile WholeDouble} {refs : List String}
    (hframes : file.frames = [(buildFrame (frameOfRefs refs)).1])
    (h : refs ∈ [[""], ["", "/P/A"]]) : UniqueNames file (documentOfRefs refs) := by
  simp only [List.mem_cons, List.not_mem_nil, or_false] at h
  rcases h with rfl | rfl
  all_goals
    refine ⟨by decide +kernel, ?_, ?_, by decide +kernel, by decide +kernel⟩ <;> rw [hframes]
    <;> decide +kernel

/-- An ECU becomes a transmitter by two empty references alone. -/
theorem empty_references_joined :
    ∃ file : ParsedFile WholeDouble, parseDocument "<buffer>" (documentOfRefs [""]) = .ok file ∧
      UniqueNames file (documentOfRefs [""]) ∧ ∃ frame ∈ file.frames,
        resolvedParties file frame true = ["S", "E"] ∧
          statedParties (documentOfRefs [""]) frame true = ["S"] := by
  obtain ⟨file, hparse, hframes⟩ := @exists_parsed WholeDouble _ (documentOfRefs [""])
    [(buildFrame (frameOfRefs [""])).1] (by decide +kernel)
  have hunique := uniqueNames_documentOfRefs hframes (by decide)
  refine ⟨file, hparse, hunique, (buildFrame (frameOfRefs [""])).1, by simp [hframes], ?_, ?_⟩
  · rw [resolvedParties_buildIndex (parseDocument_ok hparse).1 hunique (by simp [hframes])]
    decide +kernel
  · decide +kernel

/-- It is stated where the group has a PDU of the frame too. -/
theorem resolved_parties_with_pdu :
    ∃ file : ParsedFile WholeDouble,
      parseDocument "<buffer>" (documentOfRefs ["", "/P/A"]) = .ok file ∧ ∃ frame ∈ file.frames,
        resolvedParties file frame true = statedParties (documentOfRefs ["", "/P/A"]) frame true ∧
          statedParties (documentOfRefs ["", "/P/A"]) frame true = ["S", "E"] := by
  obtain ⟨file, hparse, hframes⟩ := @exists_parsed WholeDouble _ (documentOfRefs ["", "/P/A"])
    [(buildFrame (frameOfRefs ["", "/P/A"])).1] (by decide +kernel)
  have hframe : (buildFrame (frameOfRefs ["", "/P/A"])).1 ∈ file.frames := by simp [hframes]
  have hunique := uniqueNames_documentOfRefs hframes (by decide)
  refine ⟨file, hparse, _, hframe, ?_, by decide +kernel⟩
  exact (resolved_parties_iff hparse hunique hframe true).mpr (by decide +kernel)

end ParseX.CanDb

import ParseX.Base.Words
import ParseX.Parser.WantedRefs

/-! # Entries of resolved references

The final pass files each reference under a key made of the owner's name, the
field and the index. The first reference of a key stays. -/
namespace ParseX
open Cpp Words

/-! ## Reference lists -/

/-- The fields that hold references. -/
inductive ReferenceField where
  | transmitters
  | pdus
  | signalMappings
  | receivers
  | members
  deriving DecidableEq, Repr

def ReferenceField.name : ReferenceField → String
  | .transmitters => "transmitters"
  | .pdus => "pdus"
  | .signalMappings => "signalMappings"
  | .receivers => "receivers"
  | .members => "members"

def ReferenceField.family : ReferenceField → RefFamily
  | .transmitters => .ecus
  | .pdus => .pdus
  | .signalMappings => .signals
  | .receivers => .ecus
  | .members => .signals

/-- The references one element has in one field. -/
structure ReferenceList where
  field : ReferenceField
  owner : String
  refs : List String

/-- The two elements refer to something at one index of one field, under one
name. -/
def ReferenceList.Collides (list other : ReferenceList) : Prop :=
  list.field = other.field ∧ list.owner = other.owner ∧
    ∃ (idx : Nat) (ref ref' : String), list.refs[idx]? = some ref ∧ other.refs[idx]? = some ref' ∧
      ref ≠ "" ∧ ref' ≠ ""

section
variable {D : Type} [Double D]

/-- The reference lists of a file, in the order of `resolveFileRefs`. -/
def fileReferences (file : ParsedFile D) : List ReferenceList :=
  (file.frames.flatMap fun frame =>
    [⟨.transmitters, frame.common.shortName, frame.transmitters⟩,
      ⟨.pdus, frame.common.shortName, frame.pdus.map FramePduMapping.pduShortNameRef⟩]) ++
  (file.pdus.map fun pdu => ⟨.signalMappings, pdu.common.shortName,
    pdu.signalMappings.map PduSignalMapping.signalShortNameRef⟩) ++
  (file.signals.map fun signal => ⟨.receivers, signal.common.shortName, signal.receivers⟩) ++
  file.signalGroups.map fun group => ⟨.members, group.common.shortName, group.members⟩

def projectReferences (project : ParsedProject D) : List ReferenceList :=
  project.files.flatMap fileReferences

/-- The references of a project that are not empty, with their keys. -/
def projectSites (project : ParsedProject D) : List ReferenceSite :=
  (project.files.flatMap (fileSites (collectKnownRefs project))).filter fun site => site.wanted ≠ ""

/-- Every reference of the project has an entry of its own. -/
def OwnEntries (project : ParsedProject D) (resolvedRefs : StdMap ResolvedReference) : Prop :=
  resolvedRefs.size = (projectSites project).length ∧
    ∀ site ∈ projectSites project, resolvedRefs[site.key]? = some (ResolvedReference.mk site.wanted)

end

/-! ## Keys -/

/-- The key of a site. -/
def siteKey (owner field : String) (idx : Nat) : String :=
  owner ++ "." ++ field ++ "[" ++ toString idx ++ "]"

theorem toList_siteKey (owner field : String) (idx : Nat) : (siteKey owner field idx).toList =
    (owner.toList ++ '.' :: field.toList) ++ '[' :: ((toString idx).toList ++ [']']) := by
  simp [siteKey, String.toList_append]

/-- A key determines the owner's name, the field and the index. -/
theorem siteKey_unique {owner owner' : String} {field field' : ReferenceField} {idx idx' : Nat}
    (h : siteKey owner field.name idx = siteKey owner' field'.name idx') :
    owner = owner' ∧ field = field' ∧ idx = idx' := by
  have hletters := congrArg String.toList h
  rw [toList_siteKey, toList_siteKey] at hletters
  have hindex (n : Nat) : '[' ∉ (toString n).toList ++ [']'] := by
    rw [List.mem_append, not_or]
    exact ⟨fun hmem => toString_nat_ne hmem (by decide) n rfl, by decide⟩
  have hfield (field : ReferenceField) : '.' ∉ field.name.toList := by
    cases field <;> decide
  obtain ⟨hfront, hback⟩ := split_last_unique (hindex idx) (hindex idx') hletters
  obtain ⟨howner, hname⟩ := split_last_unique (hfield field) (hfield field') hfront
  have hname := String.toList_inj.mp hname
  refine ⟨String.toList_inj.mp howner, ?_, ?_⟩
  · cases field <;> cases field' <;> first | rfl | exact absurd hname (by decide)
  · exact toString_nat_inj (String.toList_inj.mp (List.append_cancel_right hback))

/-- The sites of a list that refer to something. -/
def listSites (known : KnownRefs) (list : ReferenceList) : List ReferenceSite :=
  (sitesOf list.owner list.field.name list.refs (known.of list.field.family)).filter fun site =>
    site.wanted ≠ ""

theorem mem_keys_listSites {known : KnownRefs} {list : ReferenceList} {key : String} :
    key ∈ (listSites known list).map ReferenceSite.key ↔
      ∃ (idx : Nat) (ref : String), list.refs[idx]? = some ref ∧ ref ≠ "" ∧
        key = siteKey list.owner list.field.name idx := by
  simp only [listSites, sitesOf, List.mem_map, List.mem_filter, Prod.exists,
    List.mem_zipIdx_iff_getElem?, decide_eq_true_eq]
  constructor
  · rintro ⟨site, ⟨⟨ref, idx, hget, rfl⟩, hne⟩, rfl⟩
    exact ⟨idx, ref, hget, hne, rfl⟩
  · rintro ⟨idx, ref, hget, hne, rfl⟩
    exact ⟨_, ⟨⟨ref, idx, hget, rfl⟩, hne⟩, rfl⟩

/-- The keys of one list are distinct. -/
theorem keys_listSites_nodup (known : KnownRefs) (list : ReferenceList) :
    ((listSites known list).map ReferenceSite.key).Nodup := by
  have hkeys : (sitesOf list.owner list.field.name list.refs (known.of list.field.family)).map
      ReferenceSite.key = (list.refs.zipIdx.map Prod.snd).map (siteKey list.owner list.field.name) := by
    rw [sitesOf, List.map_map, List.map_map]
    rfl
  have hall : ((sitesOf list.owner list.field.name list.refs (known.of list.field.family)).map
      ReferenceSite.key).Nodup := by
    rw [hkeys, List.zipIdx_map_snd]
    exact List.Nodup.map (fun idx idx' h => (siteKey_unique h).2.2) List.nodup_range'
  exact hall.sublist (List.filter_sublist.map _)

section
variable {D : Type} [Double D]

theorem fileSites_eq (known : KnownRefs) (file : ParsedFile D) :
    fileSites known file = (fileReferences file).flatMap fun list =>
      sitesOf list.owner list.field.name list.refs (known.of list.field.family) := by
  simp only [fileSites, fileReferences, List.flatMap_append, List.flatMap_map, List.flatMap_assoc,
    List.flatMap_cons, List.flatMap_nil, List.append_nil]
  rfl

theorem projectSites_eq (project : ParsedProject D) :
    projectSites project = (projectReferences project).flatMap
      (listSites (collectKnownRefs project)) := by
  simp only [projectSites, projectReferences, List.filter_flatMap, List.flatMap_assoc, fileSites_eq]
  rfl

/-- The keys of a project are distinct when no two of its lists collide. -/
theorem keys_nodup_iff (project : ParsedProject D) :
    ((projectSites project).map ReferenceSite.key).Nodup ↔
      (projectReferences project).Pairwise fun list other => ¬ list.Collides other := by
  rw [projectSites_eq, List.map_flatMap, List.nodup_flatMap]
  have hdisjoint {list other : ReferenceList} :
      List.Disjoint ((listSites (collectKnownRefs project) list).map ReferenceSite.key)
        ((listSites (collectKnownRefs project) other).map ReferenceSite.key) ↔
      ¬ list.Collides other := by
    simp only [List.Disjoint, mem_keys_listSites]
    constructor
    · rintro h ⟨hfield, howner, idx, ref, ref', hget, hget', hne, hne'⟩
      exact h ⟨idx, ref, hget, hne, rfl⟩ ⟨idx, ref', hget', hne', by rw [hfield, howner]⟩
    · rintro h key ⟨idx, ref, hget, hne, rfl⟩ ⟨idx', ref', hget', hne', hkey⟩
      obtain ⟨howner, hfield, rfl⟩ := siteKey_unique hkey
      exact h ⟨hfield, howner, idx, ref, ref', hget, hget', hne, hne'⟩
  constructor
  · rintro ⟨-, h⟩
    exact h.imp fun hlists => hdisjoint.mp hlists
  · intro h
    exact ⟨fun list _ => keys_listSites_nodup _ list, h.imp fun hlists => hdisjoint.mpr hlists⟩

/-! ## Entries -/

theorem resolved_foldl (sites : List ReferenceSite) : ∀ state : Resolution,
    (∀ site ∈ sites, ¬ site.Missing) → (sites.foldl resolve state).resolved =
      ((sites.filter fun site => site.wanted ≠ "").map fun site =>
        (site.key, ResolvedReference.mk site.wanted)).foldl
          (fun m entry => m.insertIfNew entry.1 entry.2) state.resolved := by
  induction sites with
  | nil => intro state _; rfl
  | cons site sites ih =>
    intro state h
    obtain ⟨hsite, hsites⟩ := List.forall_mem_cons.mp h
    rw [List.foldl_cons, ih _ hsites, resolve]
    by_cases hempty : site.wanted = ""
    · simp [hempty]
    · have hknown : site.wanted ∈ site.knownNames := by
        by_contra hunknown
        exact hsite ⟨hempty, hunknown⟩
      simp [hempty, hknown]

/-- The entries of a pass that succeeds: the first reference of every key. -/
theorem resolvedRefs_eq {project resolved : ParsedProject D}
    (h : resolveCrossFileReferences project = .ok resolved) :
    resolved.resolvedRefs = ofFirst ((projectSites project).map fun site =>
      (site.key, ResolvedReference.mk site.wanted)) := by
  have hnone := resolveCrossFileReferences_ok_iff.mp ⟨resolved, h⟩
  have hall : ∀ site ∈ project.files.flatMap (fileSites (collectKnownRefs project)),
      ¬ site.Missing := by
    intro site hsite
    obtain ⟨file, hfile, hsite⟩ := List.mem_flatMap.mp hsite
    exact hnone file hfile site hsite
  rw [resolveCrossFileReferences] at h
  split at h
  · obtain rfl := Except.ok.inj h
    have hfold := resolved_foldl _ {} hall
    rw [List.foldl_flatMap] at hfold
    exact hfold
  · cases h

/-- Every reference of a resolved project has its own entry exactly when no two
elements of one type and name refer to something at the same index of a field. -/
theorem own_entries_iff {project resolved : ParsedProject D}
    (h : resolveCrossFileReferences project = .ok resolved) :
    OwnEntries project resolved.resolvedRefs ↔
      (projectReferences project).Pairwise fun list other => ¬ list.Collides other := by
  have hkeys : ((projectSites project).map fun site =>
      (site.key, ResolvedReference.mk site.wanted)).map Prod.fst =
        (projectSites project).map ReferenceSite.key := by
    rw [List.map_map]
    rfl
  rw [OwnEntries, resolvedRefs_eq h, ← keys_nodup_iff, ← hkeys, ← size_ofFirst_iff, List.length_map]
  constructor
  · exact And.left
  · intro hsize
    refine ⟨hsize, fun site hsite => ?_⟩
    rw [getElem?_ofFirst_of_nodup ((size_ofFirst_iff _).mp (by rw [hsize, List.length_map]))]
    exact List.mem_map_of_mem hsite

end

/-- A file with the frame "Status" and the PDU it maps. -/
def fileOfStatus (pdu : String) : ParsedFile WholeDouble :=
  { frames := [{ common := { shortName := "Status" }, pdus := [{ pduShortNameRef := pdu }] }]
    pdus := [{ common := { shortName := pdu } }] }

/-- Two frames "Status" in two files share one entry. -/
theorem status_frames_share_entry :
    ∃ resolved, resolveCrossFileReferences ⟨[fileOfStatus "Doors", fileOfStatus "Wipers"], ∅⟩ =
        .ok resolved ∧
      ¬ OwnEntries ⟨[fileOfStatus "Doors", fileOfStatus "Wipers"], ∅⟩ resolved.resolvedRefs := by
  obtain ⟨resolved, h⟩ := (@resolveCrossFileReferences_ok_iff _ _
    ⟨[fileOfStatus "Doors", fileOfStatus "Wipers"], ∅⟩).mpr (by decide +kernel)
  refine ⟨resolved, h, ?_⟩
  rintro ⟨hsize, -⟩
  rw [resolvedRefs_eq h] at hsize
  exact absurd hsize (by decide +kernel)

theorem own_entries_doors :
    ∃ resolved, resolveCrossFileReferences ⟨[fileOfStatus "Doors"], ∅⟩ = .ok resolved ∧
      OwnEntries ⟨[fileOfStatus "Doors"], ∅⟩ resolved.resolvedRefs := by
  obtain ⟨resolved, h⟩ := (@resolveCrossFileReferences_ok_iff _ _
    ⟨[fileOfStatus "Doors"], ∅⟩).mpr (by decide +kernel)
  have hkeys : ((projectReferences ⟨[fileOfStatus "Doors"], ∅⟩).map fun list =>
      (list.field, list.owner)).Nodup := by
    decide +kernel
  refine ⟨resolved, h, (own_entries_iff h).mpr ?_⟩
  exact (List.pairwise_map.mp hkeys).imp fun hne hcollides =>
    hne (Prod.ext hcollides.1 hcollides.2.1)

end ParseX

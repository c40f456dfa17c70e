import ParseX.Schema.SchemaRegistry

/-! # Runs of the schema cache

What a sequence of calls leaves in the cache, and what the calls after it
return: the schema of the source whenever no call leaves an entry beside another
release's `xml.xsd`. -/
namespace ParseX
open Cpp

variable {Schema : Type} {registry : Registry Schema} {sources cache : Files} {faults : Faults}
  {release : String}

/-! ## One call -/

/-- A call that leaves an entry leaves the `xml.xsd` of its source beside it: the
sidecar is that one already, or the call writes it and no other entry uses it. -/
def Registry.Careful (registry : Registry Schema) (sources : Files) (faults : Faults)
    (cache : Files) (release : String) : Prop :=
  cache (registry.cachePathFor release) = none →
    ∀ path, registry.findSourceFile sources release = some path →
      faults.keepsEntry (sources (siblingPath path)) = true →
      cache (registry.sidecarFor release) = sources (siblingPath path) ∨
        faults.writesSidecar (sources (siblingPath path)) = true ∧
          ∀ other, cache (registry.cachePathFor other) ≠ none →
            registry.sidecarFor other ≠ registry.sidecarFor release

/-- A property of every entry and the sidecar beside it. -/
def Registry.Entries (registry : Registry Schema) (Q : String → Bytes → Option Bytes → Prop)
    (cache : Files) : Prop :=
  ∀ release bytes, cache (registry.cachePathFor release) = some bytes →
    Q release bytes (cache (registry.sidecarFor release))

/-- A found source is there. -/
theorem Registry.exists_source {path : String}
    (h : registry.findSourceFile sources release = some path) : ∃ xsd, sources path = some xsd :=
  Option.isSome_iff_exists.mp
    (List.find?_some (p := fun candidate => (sources candidate).isSome) h)

/-- A call that finds no entry. -/
theorem Registry.resolveSchema_miss (habsent : cache (registry.cachePathFor release) = none)
    {path : String} (hpath : registry.findSourceFile sources release = some path) {xsd : Bytes}
    (hxsd : sources path = some xsd) :
    ∃ parseCopy after, Staged faults xsd (sources (siblingPath path))
        (registry.cachePathFor release) cache (parseCopy, after) ∧
      registry.resolveSchema sources faults cache release = (match parseCopy with
        | none => none
        | some true => registry.finish faults after path (registry.cachePathFor release) release false
        | some false => registry.finish faults sources path path release false, after) := by
  have hstaged := @stage_staged faults xsd (sources (siblingPath path)) _ _ habsent
  rw [resolveSchema, habsent, hpath]
  dsimp only
  rw [hxsd, Option.getD_some]
  generalize stage faults xsd (sources (siblingPath path)) (registry.cachePathFor release) cache =
    outcome at hstaged
  obtain ⟨parseCopy, after⟩ := outcome
  refine ⟨parseCopy, after, hstaged, ?_⟩
  cases parseCopy with
  | none => rfl
  | some copy => cases copy <;> rfl

theorem Registry.resolveSchema_hit {bytes : Bytes}
    (hentry : cache (registry.cachePathFor release) = some bytes) :
    registry.resolveSchema sources faults cache release =
      (registry.finish faults cache (registry.cachePathFor release) (registry.cachePathFor release)
        release true, cache) := by
  rw [resolveSchema, hentry]

/-- A call keeps a property of the entries: its own entry has it when the call ends,
and so have the entries whose sidecar the call writes. -/
def Registry.Leaves (registry : Registry Schema) (Q : String → Bytes → Option Bytes → Prop)
    (sources : Files) (faults : Faults) (cache : Files) (release : String) : Prop :=
  cache (registry.cachePathFor release) = none → ∀ path xsd,
    registry.findSourceFile sources release = some path → sources path = some xsd →
    faults.keepsEntry (sources (siblingPath path)) = true →
    Q release xsd
        (faults.sidecarAfter (sources (siblingPath path)) (cache (registry.sidecarFor release))) ∧
      (faults.writesSidecar (sources (siblingPath path)) = true → ∀ other bytes,
        cache (registry.cachePathFor other) = some bytes →
        registry.sidecarFor other = registry.sidecarFor release →
        Q other bytes (sources (siblingPath path)))

/-- The own entry after the `try` block and its handler. -/
theorem Staged.own {xsd : Bytes} {sibling : Option Bytes} {parseCopy : Option Bool} {after : Files}
    (h : Staged faults xsd sibling (registry.cachePathFor release) cache (parseCopy, after))
    (habsent : cache (registry.cachePathFor release) = none)
    (hkept : after (registry.cachePathFor release) ≠ none) :
    faults.keepsEntry sibling = true ∧ after (registry.cachePathFor release) = some xsd ∧
      after (registry.sidecarFor release) =
        faults.sidecarAfter sibling (cache (registry.sidecarFor release)) := by
  have hne := registry.cachePathFor_ne_siblingPath release (registry.cachePathFor release)
  cases h with
  | nothing => exact absurd habsent hkept
  | entry hkeeps hwrites =>
    refine ⟨hkeeps, Function.update_self .., (Function.update_of_ne hne.symm ..).trans ?_⟩
    rw [Faults.sidecarAfter, hwrites]
    rfl
  | both hsibling hkeeps hwrites =>
    refine ⟨hkeeps, (Function.update_of_ne hne ..).trans (Function.update_self ..), ?_⟩
    rw [Faults.sidecarAfter, if_pos hwrites, hsibling]
    exact Function.update_self ..

/-- The entries of other releases keep their bytes, and their sidecars unless the
call writes a shared one. -/
theorem Staged.other {xsd : Bytes} {sibling : Option Bytes} {parseCopy : Option Bool}
    {after : Files}
    (h : Staged faults xsd sibling (registry.cachePathFor release) cache (parseCopy, after))
    {other : String} (hother : other ≠ release) :
    after (registry.cachePathFor other) = cache (registry.cachePathFor other) ∧
      (after (registry.sidecarFor other) = cache (registry.sidecarFor other) ∨
        faults.keepsEntry sibling = true ∧ faults.writesSidecar sibling = true ∧
          registry.sidecarFor other = registry.sidecarFor release ∧
          after (registry.sidecarFor other) = sibling) := by
  have hentry : registry.cachePathFor other ≠ registry.cachePathFor release := fun h =>
    hother (registry.cachePathFor_inj h)
  have hsidecar : registry.sidecarFor other ≠ registry.cachePathFor release :=
    (registry.cachePathFor_ne_siblingPath release _).symm
  cases h with
  | nothing => exact ⟨rfl, .inl rfl⟩
  | entry =>
    exact ⟨Function.update_of_ne hentry .., .inl (Function.update_of_ne hsidecar ..)⟩
  | @both bytes hsibling hkeeps hwrites =>
    have hapart := registry.cachePathFor_ne_siblingPath other (registry.cachePathFor release)
    refine ⟨(Function.update_of_ne hapart ..).trans (Function.update_of_ne hentry ..), ?_⟩
    by_cases hshared : registry.sidecarFor other = registry.sidecarFor release
    · refine .inr ⟨hkeeps, hwrites, hshared, ?_⟩
      rw [hshared, hsibling]
      exact Function.update_self ..
    · exact .inl ((Function.update_of_ne hshared ..).trans (Function.update_of_ne hsidecar ..))

/-- One call keeps a property of the entries. -/
theorem Registry.Entries.step {Q : String → Bytes → Option Bytes → Prop}
    (h : registry.Entries Q cache) (hleaves : registry.Leaves Q sources faults cache release) :
    registry.Entries Q (registry.resolveSchema sources faults cache release).2 := by
  cases habsent : cache (registry.cachePathFor release) with
  | some bytes =>
    rw [registry.resolveSchema_hit habsent]
    exact h
  | none =>
    cases hpath : registry.findSourceFile sources release with
    | none =>
      rw [resolveSchema, habsent, hpath]
      exact h
    | some path =>
      obtain ⟨xsd, hxsd⟩ := registry.exists_source hpath
      obtain ⟨parseCopy, after, hstaged, hcall⟩ :=
        @registry.resolveSchema_miss _ sources cache faults release habsent path hpath xsd hxsd
      rw [hcall]
      intro other bytes hbytes
      change after (registry.cachePathFor other) = some bytes at hbytes
      show Q other bytes (after _)
      by_cases hother : other = release
      · subst hother
        obtain ⟨hkeeps, hentry, hsidecar⟩ := hstaged.own habsent (by rw [hbytes]; nofun)
        obtain rfl : bytes = xsd := Option.some.inj (hbytes.symm.trans hentry)
        rw [hsidecar]
        exact (hleaves habsent path bytes hpath hxsd hkeeps).1
      · obtain ⟨hentry, hsidecar⟩ := hstaged.other hother
        have hcached : cache (registry.cachePathFor other) = some bytes :=
          hentry.symm.trans hbytes
        rcases hsidecar with hsame | ⟨hkeeps, hwrites, hshared, hwritten⟩
        · rw [hsame]
          exact h other bytes hcached
        · rw [hwritten]
          exact (hleaves habsent path xsd hpath hxsd hkeeps).2 hwrites other bytes hcached hshared

/-- A careful call leaves the `xml.xsd` of its source. -/
theorem Registry.Careful.sidecarAfter (hcareful : registry.Careful sources faults cache release)
    (habsent : cache (registry.cachePathFor release) = none) {path : String}
    (hpath : registry.findSourceFile sources release = some path)
    (hkeeps : faults.keepsEntry (sources (siblingPath path)) = true) :
    faults.sidecarAfter (sources (siblingPath path)) (cache (registry.sidecarFor release)) =
      sources (siblingPath path) := by
  rw [Faults.sidecarAfter]
  split
  · rfl
  · rename_i hwrites
    exact (hcareful habsent path hpath hkeeps).resolve_right fun h => hwrites h.1

/-- A careful call keeps a property of the entries that its source has. -/
theorem Registry.Careful.leaves {Q : String → Bytes → Option Bytes → Prop}
    (hcareful : registry.Careful sources faults cache release) (h : registry.Entries Q cache)
    (hown : ∀ path xsd, registry.findSourceFile sources release = some path →
      sources path = some xsd → Q release xsd (sources (siblingPath path))) :
    registry.Leaves Q sources faults cache release := by
  intro habsent path xsd hpath hxsd hkeeps
  refine ⟨?_, fun hwrites other bytes hcached hshared => ?_⟩
  · rw [hcareful.sidecarAfter habsent hpath hkeeps]
    exact hown path xsd hpath hxsd
  · rcases hcareful habsent path hpath hkeeps with hright | ⟨-, halone⟩
    · rw [← hright, ← hshared]
      exact h other bytes hcached
    · exact absurd hshared (halone other (by rw [hcached]; nofun))

/-! ## Outcomes -/

/-- The outcome is the schema. -/
def Returns (outcome : Except SchemaResolutionError (SchemaResolutionResult Schema))
    (schema : Schema) : Prop :=
  ∃ result, outcome = .ok result ∧ result.schema = schema

theorem Registry.finish_returns {files : Files} {originPath parsePath : String} {hit : Bool}
    {bytes : Bytes} {schema : Schema} (hbytes : files parsePath = some bytes)
    (hparse : registry.parse bytes (files (siblingPath parsePath)) = .ok schema)
    {outcome : Except SchemaResolutionError (SchemaResolutionResult Schema)}
    (h : registry.finish faults files originPath parsePath release hit = some outcome) :
    Returns outcome schema := by
  have hparsed : registry.parseSchemaFile files parsePath release = .ok schema := by
    rw [parseSchemaFile, hbytes]
    dsimp only
    rw [hparse]
  rw [finish, hparsed] at h
  split at h
  · cases h
  · exact ⟨_, (Option.some.inj h).symm, rfl⟩

/-- A call that finds a parseable entry returns its schema. -/
theorem Registry.returns_of_hit {bytes : Bytes} {schema : Schema}
    (hentry : cache (registry.cachePathFor release) = some bytes)
    (hparse : registry.parse bytes (cache (registry.sidecarFor release)) = .ok schema)
    {outcome : Except SchemaResolutionError (SchemaResolutionResult Schema)}
    (h : (registry.resolveSchema sources faults cache release).1 = some outcome) :
    Returns outcome schema := by
  rw [registry.resolveSchema_hit hentry] at h
  exact registry.finish_returns hentry hparse h

/-- A call that finds no entry returns the schema of the source, when the copy that
it leaves parses as the source does. -/
theorem Registry.returns_of_miss (habsent : cache (registry.cachePathFor release) = none)
    {path : String} {xsd : Bytes} {schema : Schema}
    (hpath : registry.findSourceFile sources release = some path)
    (hxsd : sources path = some xsd)
    (hparse : registry.parse xsd (sources (siblingPath path)) = .ok schema)
    (hcopy : faults.keepsEntry (sources (siblingPath path)) = true →
      registry.parse xsd
        (faults.sidecarAfter (sources (siblingPath path)) (cache (registry.sidecarFor release))) =
        registry.parse xsd (sources (siblingPath path)))
    {outcome : Except SchemaResolutionError (SchemaResolutionResult Schema)}
    (h : (registry.resolveSchema sources faults cache release).1 = some outcome) :
    Returns outcome schema := by
  obtain ⟨parseCopy, after, hstaged, hcall⟩ :=
    @registry.resolveSchema_miss _ sources cache faults release habsent path hpath xsd hxsd
  rw [hcall] at h
  match parseCopy, hstaged, h with
  | some false, _, h => exact registry.finish_returns hxsd hparse h
  | some true, hstaged, h =>
    have hkept : after (registry.cachePathFor release) ≠ none := by
      cases hstaged with
      | nothing _ hcopy => exact absurd rfl hcopy
      | entry => rw [Function.update_self]; nofun
      | both =>
        rw [Function.update_of_ne (registry.cachePathFor_ne_siblingPath release _),
          Function.update_self]
        nofun
    obtain ⟨hkeeps, hentry, hsidecar⟩ := hstaged.own habsent hkept
    refine registry.finish_returns hentry ?_ h
    rw [← hparse, ← hcopy hkeeps, ← hsidecar]
    rfl

/-- A careful call that finds no entry returns the schema of the source. -/
theorem Registry.Careful.returns (hcareful : registry.Careful sources faults cache release)
    (habsent : cache (registry.cachePathFor release) = none) {path : String} {xsd : Bytes}
    {schema : Schema} (hpath : registry.findSourceFile sources release = some path)
    (hxsd : sources path = some xsd)
    (hparse : registry.parse xsd (sources (siblingPath path)) = .ok schema)
    {outcome : Except SchemaResolutionError (SchemaResolutionResult Schema)}
    (h : (registry.resolveSchema sources faults cache release).1 = some outcome) :
    Returns outcome schema :=
  registry.returns_of_miss habsent hpath hxsd hparse
    (fun hkeeps => by rw [hcareful.sidecarAfter habsent hpath hkeeps]) h

theorem dropEntry_completes {cachePath : String} (h : faults.crash = none) :
    (dropEntry faults cachePath cache).1 ≠ none := by
  have hcrash (point : CrashPoint) : faults.crash ≠ some point := by
    rw [h]
    exact (Option.some_ne_none _).symm
  rw [dropEntry, if_neg (hcrash _)]
  exact Option.some_ne_none _

theorem stage_completes {xsd : Bytes} {sibling : Option Bytes} {cachePath : String}
    (h : faults.crash = none) : (stage faults xsd sibling cachePath cache).1 ≠ none := by
  have hcrash (point : CrashPoint) : faults.crash ≠ some point := by
    rw [h]
    exact (Option.some_ne_none _).symm
  rw [stage, if_neg (hcrash _)]
  split
  · exact dropEntry_completes h
  · dsimp only
    rw [if_neg (hcrash _)]
    cases sibling with
    | none => exact Option.some_ne_none _
    | some bytes =>
      dsimp only
      split
      · exact dropEntry_completes h
      · exact Option.some_ne_none _

/-- A call that does not die has an outcome. -/
theorem Registry.completes (registry : Registry Schema) (sources cache : Files) (release : String)
    (h : faults.crash = none) :
    ∃ outcome, (registry.resolveSchema sources faults cache release).1 = some outcome := by
  have hfinish (files : Files) (originPath parsePath : String) (hit : Bool) : ∃ outcome,
      registry.finish faults files originPath parsePath release hit = some outcome := by
    rw [finish, if_neg (by rw [h]; nofun)]
    cases registry.parseSchemaFile files parsePath release with
    | error failure => exact ⟨_, rfl⟩
    | ok schema => exact ⟨_, rfl⟩
  rw [resolveSchema]
  split
  · exact hfinish ..
  · split
    · exact ⟨_, rfl⟩
    · rename_i path hpath
      split
      · rename_i hstage
        exact absurd (congrArg Prod.fst hstage) (stage_completes h)
      · exact hfinish ..
      · exact hfinish ..

/-! ## Runs -/

structure SchemaCall where
  sources : Files
  faults : Faults
  release : String

def noFiles : Files := fun _ => none

/-- The cache after calls that started with an empty one. -/
def Registry.cacheAfter (registry : Registry Schema) (calls : List SchemaCall) : Files :=
  calls.foldl (fun cache call =>
    (registry.resolveSchema call.sources call.faults cache call.release).2) noFiles

/-- A run whose calls all meet a condition on the call and the cache it finds. -/
inductive Registry.RunOf (registry : Registry Schema) (C : SchemaCall → Files → Prop) :
    List SchemaCall → Prop where
  | nil : RunOf registry C []
  | snoc {calls : List SchemaCall} {call : SchemaCall} : RunOf registry C calls →
      C call (registry.cacheAfter calls) → RunOf registry C (calls ++ [call])

theorem Registry.cacheAfter_snoc (registry : Registry Schema) (calls : List SchemaCall)
    (call : SchemaCall) : registry.cacheAfter (calls ++ [call]) =
      (registry.resolveSchema call.sources call.faults (registry.cacheAfter calls)
        call.release).2 := by
  rw [cacheAfter, List.foldl_append]
  rfl

theorem Registry.RunOf.of_snoc {C : SchemaCall → Files → Prop} {calls : List SchemaCall}
    {call : SchemaCall} (h : registry.RunOf C (calls ++ [call])) :
    registry.RunOf C calls ∧ C call (registry.cacheAfter calls) := by
  generalize hall : calls ++ [call] = all at h
  cases h with
  | nil => simp at hall
  | snoc hrun hlast =>
    obtain ⟨rfl, hcall⟩ := List.append_inj' hall rfl
    obtain rfl := List.singleton_inj.mp hcall
    exact ⟨hrun, hlast⟩

/-- A property that every call of a run keeps is one of all entries after it. -/
theorem Registry.RunOf.entries {C : SchemaCall → Files → Prop}
    {Q : String → Bytes → Option Bytes → Prop} {calls : List SchemaCall}
    (h : registry.RunOf C calls)
    (hleaves : ∀ call ∈ calls, ∀ cache, C call cache → registry.Entries Q cache →
      registry.Leaves Q call.sources call.faults cache call.release) :
    registry.Entries Q (registry.cacheAfter calls) := by
  induction h with
  | nil => exact fun _ _ => nofun
  | @snoc calls call hrun hlast ih =>
    rw [registry.cacheAfter_snoc]
    have hbefore := ih fun other hother => hleaves other (List.mem_append_left _ hother)
    exact hbefore.step (hleaves call (by simp) _ hlast hbefore)

/-! ## Transparency -/

/-- A call that completes returns the schema of the source, as with an empty
cache. -/
def Registry.Transparent (registry : Registry Schema) (sources cache : Files) (faults : Faults)
    (release : String) : Prop :=
  ∀ outcome, (registry.resolveSchema sources faults cache release).1 = some outcome →
    (registry.findSourceFile sources release = none →
      outcome = .error (unsupportedRelease release)) ∧
    ∀ path xsd schema, registry.findSourceFile sources release = some path →
      sources path = some xsd → registry.parse xsd (sources (siblingPath path)) = .ok schema →
      Returns outcome schema ∧ ∃ fresh,
        (registry.resolveSchema sources {} noFiles release).1 = some fresh ∧ Returns fresh schema

theorem careful_noFiles (registry : Registry Schema) (sources : Files) (release : String) :
    registry.Careful sources {} noFiles release := by
  intro _ path _ _
  cases hsibling : sources (siblingPath path) with
  | none => exact .inl rfl
  | some bytes => exact .inr ⟨rfl, fun _ hcached => absurd rfl hcached⟩

/-- **Careful calls keep the cache transparent.** -/
theorem cache_transparent (registry : Registry Schema) (sources : Files) (calls : List SchemaCall)
    (call : SchemaCall) (hfixed : ∀ other ∈ calls ++ [call], other.sources = sources)
    (hrun : registry.RunOf (fun call cache =>
      registry.Careful call.sources call.faults cache call.release) (calls ++ [call])) :
    registry.Transparent sources (registry.cacheAfter calls) call.faults call.release := by
  obtain ⟨hbefore, hcareful⟩ := hrun.of_snoc
  rw [hfixed call (by simp)] at hcareful
  have hentries := hbefore.entries (Q := fun release bytes sidecar => ∃ path,
      registry.findSourceFile sources release = some path ∧ sources path = some bytes ∧
        sidecar = sources (siblingPath path))
    fun other hother cache hother_careful hkept => hother_careful.leaves hkept
      fun path xsd hpath hxsd => by
        rw [hfixed other (List.mem_append_left _ hother)] at hpath hxsd ⊢
        exact ⟨path, hpath, hxsd, rfl⟩
  intro outcome houtcome
  cases hcached : registry.cacheAfter calls (registry.cachePathFor call.release) with
  | some bytes =>
    obtain ⟨source, hsource, hbytes, hsidecar⟩ := hentries _ _ hcached
    refine ⟨fun hnone => ?_, fun path xsd schema hpath hxsd hparse => ⟨?_, ?_⟩⟩
    · rw [hsource] at hnone
      cases hnone
    · obtain rfl := Option.some.inj (hsource.symm.trans hpath)
      obtain rfl := Option.some.inj (hbytes.symm.trans hxsd)
      exact registry.returns_of_hit hcached (by rw [hsidecar]; exact hparse) houtcome
    · obtain ⟨fresh, hfresh⟩ := @registry.completes _ {} sources noFiles call.release rfl
      exact ⟨fresh, hfresh,
        (careful_noFiles registry sources _).returns rfl hpath hxsd hparse hfresh⟩
  | none =>
    refine ⟨fun hnone => ?_, fun path xsd schema hpath hxsd hparse => ⟨?_, ?_⟩⟩
    · rw [Registry.resolveSchema, hcached, hnone] at houtcome
      exact (Option.some.inj houtcome).symm
    · exact hcareful.returns hcached hpath hxsd hparse houtcome
    · obtain ⟨fresh, hfresh⟩ := @registry.completes _ {} sources noFiles call.release rfl
      exact ⟨fresh, hfresh,
        (careful_noFiles registry sources _).returns rfl hpath hxsd hparse hfresh⟩

/-- A registry that shows what it parsed. -/
def showingRegistry : Registry (Bytes × Option Bytes) where
  schemaDirs := ["/schemas"]
  cacheDir := "/cache"
  parse xsd sibling := .ok (xsd, sibling)

/-- A schema and the `xml.xsd` it imports. -/
def sourcesWithSibling : Files := fun path =>
  if path = "/schemas/4.2.2.xsd" then some (utf8 "<schema/>")
  else if path = "/schemas/xml.xsd" then some (utf8 "<xml/>")
  else none

theorem cache_transparent_twoCalls :
    showingRegistry.Transparent sourcesWithSibling
      (showingRegistry.cacheAfter [⟨sourcesWithSibling, {}, "4.2.2"⟩]) {} "4.2.2" := by
  have hcached : showingRegistry.cacheAfter ([] ++ [⟨sourcesWithSibling, {}, "4.2.2"⟩])
      (showingRegistry.cachePathFor "4.2.2") ≠ none := by
    decide +kernel
  exact cache_transparent showingRegistry sourcesWithSibling [⟨sourcesWithSibling, {}, "4.2.2"⟩]
    ⟨sourcesWithSibling, {}, "4.2.2"⟩ (by simp)
    (.snoc (.snoc .nil (careful_noFiles showingRegistry sourcesWithSibling "4.2.2"))
      fun habsent => absurd habsent hcached)

/-- A call dies between the two copies; the next one parses without `xml.xsd`. -/
theorem crash_not_transparent : ¬ ∀ (sources : Files) (calls : List SchemaCall) (call : SchemaCall),
    (∀ other ∈ calls ++ [call], other.sources = sources) →
    showingRegistry.Transparent sources (showingRegistry.cacheAfter calls) call.faults
      call.release := by
  intro h
  have htransparent := h sourcesWithSibling
    [⟨sourcesWithSibling, { crash := some .beforeSidecar }, "4.2.2"⟩]
    ⟨sourcesWithSibling, {}, "4.2.2"⟩ (by simp)
  have hhit : (showingRegistry.resolveSchema sourcesWithSibling {}
      (showingRegistry.cacheAfter
        [⟨sourcesWithSibling, { crash := some .beforeSidecar }, "4.2.2"⟩]) "4.2.2").1 =
      some (.ok ⟨"4.2.2", "/cache/4.2.2.xsd.cache", (utf8 "<schema/>", none), true⟩) := by
    decide +kernel
  obtain ⟨⟨result, hresult, hschema⟩, -⟩ := (htransparent _ hhit).2 "/schemas/4.2.2.xsd"
    (utf8 "<schema/>") (utf8 "<schema/>", some (utf8 "<xml/>")) (by decide +kernel)
    (by decide +kernel) (by decide +kernel)
  obtain rfl := Except.ok.inj hresult
  exact absurd hschema (by decide)

end ParseX

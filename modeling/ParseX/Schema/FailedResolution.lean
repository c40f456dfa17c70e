import ParseX.Schema.CacheRuns

/-! # After a failed resolution

The bytes of a schema reach the cache before libxml2 parses them, and the parse is
outside the `try` block that drops an entry. A failed call is harmless when its
source was not copied; a copy that does not parse stays and is hit. -/
namespace ParseX
open Cpp

variable {Schema : Type} {registry : Registry Schema} {sources cache : Files} {faults : Faults}
  {release : String}

/-! ## Calls that leave entries that parse -/

/-- The bytes parse with the `xml.xsd` beside them. -/
def Registry.Parses (registry : Registry Schema) (bytes : Bytes) (sidecar : Option Bytes) : Prop :=
  ∃ schema, registry.parse bytes sidecar = .ok schema

/-- A call leaves an entry only when its source parses, and the entry parses as the
source does; the entries whose sidecar it writes still parse. -/
def Registry.Sound (registry : Registry Schema) (call : SchemaCall) (cache : Files) : Prop :=
  registry.Leaves (fun _ => registry.Parses) call.sources call.faults cache call.release ∧
    (cache (registry.cachePathFor call.release) = none → ∀ path xsd,
      registry.findSourceFile call.sources call.release = some path →
      call.sources path = some xsd →
      call.faults.keepsEntry (call.sources (siblingPath path)) = true →
      registry.parse xsd (call.faults.sidecarAfter (call.sources (siblingPath path))
          (cache (registry.sidecarFor call.release))) =
        registry.parse xsd (call.sources (siblingPath path)))

theorem Registry.RunOf.parses {calls : List SchemaCall} (h : registry.RunOf registry.Sound calls) :
    registry.Entries (fun _ => registry.Parses) (registry.cacheAfter calls) :=
  h.entries fun _ _ _ hsound _ => hsound.1

/-- A sound call whose source does not parse leaves no entry. -/
theorem Registry.Sound.keepsEntry {call : SchemaCall} (h : registry.Sound call cache)
    (habsent : cache (registry.cachePathFor call.release) = none) {path : String} {xsd : Bytes}
    (hpath : registry.findSourceFile call.sources call.release = some path)
    (hxsd : call.sources path = some xsd) {firstError : String}
    (hparse : registry.parse xsd (call.sources (siblingPath path)) = .error firstError) :
    call.faults.keepsEntry (call.sources (siblingPath path)) = false := by
  rw [Bool.eq_false_iff]
  intro hkeeps
  obtain ⟨schema, hschema⟩ := (h.1 habsent path xsd hpath hxsd hkeeps).1
  have hcopy := h.2 habsent path xsd hpath hxsd hkeeps
  rw [hschema, hparse] at hcopy
  cases hcopy

/-- A call that keeps no entry leaves the release without one. -/
theorem Registry.absent_after (habsent : cache (registry.cachePathFor release) = none)
    {path : String} (hpath : registry.findSourceFile sources release = some path)
    (hkeeps : faults.keepsEntry (sources (siblingPath path)) = false) :
    (registry.resolveSchema sources faults cache release).2 (registry.cachePathFor release) =
      none := by
  obtain ⟨xsd, hxsd⟩ := registry.exists_source hpath
  obtain ⟨parseCopy, after, hstaged, hcall⟩ :=
    @registry.resolveSchema_miss _ sources cache faults release habsent path hpath xsd hxsd
  rw [hcall]
  show after _ = none
  by_contra hkept
  obtain ⟨hkeeps', -⟩ := hstaged.own habsent hkept
  rw [hkeeps] at hkeeps'
  cases hkeeps'

/-- A call leaves the entries of other releases as they are. -/
theorem Registry.entry_of_other {other : String} (hother : other ≠ release) :
    (registry.resolveSchema sources faults cache release).2 (registry.cachePathFor other) =
      cache (registry.cachePathFor other) := by
  cases habsent : cache (registry.cachePathFor release) with
  | some bytes => rw [registry.resolveSchema_hit habsent]
  | none =>
    cases hpath : registry.findSourceFile sources release with
    | none => rw [resolveSchema, habsent, hpath]
    | some path =>
      obtain ⟨xsd, hxsd⟩ := registry.exists_source hpath
      obtain ⟨parseCopy, after, hstaged, hcall⟩ :=
        @registry.resolveSchema_miss _ sources cache faults release habsent path hpath xsd hxsd
      rw [hcall]
      exact (hstaged.other hother).1

/-- Calls of other releases leave an entry as it is. -/
theorem Registry.cacheAfter_others (calls between : List SchemaCall)
    (hothers : ∀ call ∈ between, call.release ≠ release) :
    registry.cacheAfter (calls ++ between) (registry.cachePathFor release) =
      registry.cacheAfter calls (registry.cachePathFor release) := by
  induction between using List.reverseRecOn with
  | nil => rw [List.append_nil]
  | append_singleton between call ih =>
    rw [← List.append_assoc, registry.cacheAfter_snoc,
      registry.entry_of_other (hothers call (by simp)).symm]
    exact ih fun other hother => hothers other (List.mem_append_left _ hother)

theorem Registry.RunOf.of_append {C : SchemaCall → Files → Prop} {calls rest : List SchemaCall}
    (h : registry.RunOf C (calls ++ rest)) : registry.RunOf C calls := by
  induction rest using List.reverseRecOn with
  | nil => rwa [List.append_nil] at h
  | append_singleton rest call ih =>
    rw [← List.append_assoc] at h
    exact ih h.of_snoc.1

/-! ## Recovery -/

/-- The call throws, and its source does not parse. -/
def Registry.ThrowsUnparsed (registry : Registry Schema) (call : SchemaCall) (cache : Files) :
    Prop :=
  ∃ path xsd firstError failure,
    registry.findSourceFile call.sources call.release = some path ∧
      call.sources path = some xsd ∧
      registry.parse xsd (call.sources (siblingPath path)) = .error firstError ∧
      (registry.resolveSchema call.sources call.faults cache call.release).1 = some (.error failure)

/-- After a call that throws because its source does not parse, the next call of its
release, once the source parses, returns the new schema. -/
def Registry.Recovers (registry : Registry Schema) (calls : List SchemaCall) (next : SchemaCall) :
    Prop :=
  ∀ before failing between, calls = before ++ [failing] ++ between →
    registry.ThrowsUnparsed failing (registry.cacheAfter before) →
    (∀ call ∈ between, call.release ≠ next.release) → next.release = failing.release →
    next.faults.crash = none →
    ∀ path xsd schema, registry.findSourceFile next.sources next.release = some path →
      next.sources path = some xsd →
      registry.parse xsd (next.sources (siblingPath path)) = .ok schema →
      ∃ outcome, (registry.resolveSchema next.sources next.faults (registry.cacheAfter calls)
          next.release).1 = some outcome ∧ Returns outcome schema

/-- An entry that does not parse is as good as none. -/
def Registry.UnparsedIsMiss (registry : Registry Schema) (call : SchemaCall) (cache : Files) :
    Prop :=
  ∀ bytes firstError, cache (registry.cachePathFor call.release) = some bytes →
    registry.parse bytes (cache (registry.sidecarFor call.release)) = .error firstError →
    (registry.resolveSchema call.sources call.faults cache call.release).1 =
      (registry.resolveSchema call.sources call.faults
        (Function.update cache (registry.cachePathFor call.release) none) call.release).1

/-- A sound call that throws because its source does not parse leaves no entry. -/
theorem Registry.Sound.absent_after {call : SchemaCall} (h : registry.Sound call cache)
    (hentries : registry.Entries (fun _ => registry.Parses) cache)
    (hthrows : registry.ThrowsUnparsed call cache) :
    (registry.resolveSchema call.sources call.faults cache call.release).2
      (registry.cachePathFor call.release) = none := by
  obtain ⟨path, xsd, firstError, failure, hpath, hxsd, hparse, hfailure⟩ := hthrows
  cases habsent : cache (registry.cachePathFor call.release) with
  | none => exact registry.absent_after habsent hpath (h.keepsEntry habsent hpath hxsd hparse)
  | some bytes =>
    -- A hit on an entry that parses does not throw.
    obtain ⟨schema, hschema⟩ := hentries _ _ habsent
    obtain ⟨result, hresult, -⟩ := registry.returns_of_hit habsent hschema hfailure
    cases hresult

/-- **Sound calls do not poison the cache.** -/
theorem failed_resolution_recovers (registry : Registry Schema) (calls : List SchemaCall)
    (next : SchemaCall) (hrun : registry.RunOf registry.Sound (calls ++ [next])) :
    registry.Recovers calls next ∧ registry.UnparsedIsMiss next (registry.cacheAfter calls) := by
  obtain ⟨hcalls, hnext⟩ := hrun.of_snoc
  refine ⟨?_, fun bytes firstError hcached hparse => ?_⟩
  · rintro before failing between rfl hthrows hothers hrelease hcrash path xsd schema hpath hxsd
      hparse
    obtain ⟨hbefore, hfailing⟩ := hcalls.of_append.of_snoc
    have habsent : registry.cacheAfter (before ++ [failing] ++ between)
        (registry.cachePathFor next.release) = none := by
      rw [registry.cacheAfter_others _ _ hothers, registry.cacheAfter_snoc, hrelease]
      exact hfailing.absent_after hbefore.parses hthrows
    obtain ⟨outcome, houtcome⟩ := registry.completes next.sources
      (registry.cacheAfter (before ++ [failing] ++ between)) next.release hcrash
    exact ⟨outcome, houtcome, registry.returns_of_miss habsent hpath hxsd hparse
      (hnext.2 habsent path xsd hpath hxsd) houtcome⟩
  · obtain ⟨schema, hschema⟩ := hcalls.parses _ _ hcached
    rw [hparse] at hschema
    cases hschema

/-! ## Poisoned entries -/

/-- Every call that hits an entry that does not parse throws, whatever the source
has become. -/
theorem Registry.throws_of_unparsed {bytes : Bytes} {firstError : String}
    (hentry : cache (registry.cachePathFor release) = some bytes)
    (hparse : registry.parse bytes (cache (registry.sidecarFor release)) = .error firstError)
    {outcome : Except SchemaResolutionError (SchemaResolutionResult Schema)}
    (h : (registry.resolveSchema sources faults cache release).1 = some outcome) :
    ∃ failure, outcome = .error failure ∧ failure.reason = .schemaFileCorrupt := by
  have hparsed : ∃ failure, registry.parseSchemaFile cache (registry.cachePathFor release) release =
      .error failure ∧ failure.reason = .schemaFileCorrupt := by
    rw [parseSchemaFile, hentry]
    dsimp only
    rw [show registry.parse bytes (cache (siblingPath (registry.cachePathFor release))) =
      .error firstError from hparse]
    exact ⟨_, rfl, rfl⟩
  obtain ⟨failure, hfailure, hreason⟩ := hparsed
  rw [registry.resolveSchema_hit hentry, finish, hfailure] at h
  split at h
  · cases h
  · exact ⟨failure, (Option.some.inj h).symm, hreason⟩

/-- A call that keeps a copy that does not parse poisons the release: the next call
throws whatever its source is. -/
theorem Registry.poisons (habsent : cache (registry.cachePathFor release) = none)
    {path : String} {xsd : Bytes} {firstError : String}
    (hpath : registry.findSourceFile sources release = some path)
    (hxsd : sources path = some xsd)
    (hkeeps : faults.keepsEntry (sources (siblingPath path)) = true)
    (hparse : registry.parse xsd
      (faults.sidecarAfter (sources (siblingPath path)) (cache (registry.sidecarFor release))) =
        .error firstError) {sources' : Files} {faults' : Faults}
    {outcome : Except SchemaResolutionError (SchemaResolutionResult Schema)}
    (h : (registry.resolveSchema sources' faults'
      (registry.resolveSchema sources faults cache release).2 release).1 = some outcome) :
    ∃ failure, outcome = .error failure ∧ failure.reason = .schemaFileCorrupt := by
  obtain ⟨parseCopy, after, hstaged, hcall⟩ :=
    @registry.resolveSchema_miss _ sources cache faults release habsent path hpath xsd hxsd
  rw [hcall] at h
  have hkept : after (registry.cachePathFor release) ≠ none := by
    cases hstaged with
    | nothing hdropped => rw [hkeeps] at hdropped; cases hdropped
    | entry => rw [Function.update_self]; nofun
    | both =>
      rw [Function.update_of_ne (registry.cachePathFor_ne_siblingPath release _),
        Function.update_self]
      nofun
  obtain ⟨-, hentry, hsidecar⟩ := hstaged.own habsent hkept
  exact registry.throws_of_unparsed hentry (by rw [hsidecar]; exact hparse) h

/-! ## Runs -/

/-- A registry whose only schema is `<schema/>`. -/
def strictRegistry : Registry Unit where
  schemaDirs := ["/schemas"]
  cacheDir := "/cache"
  parse xsd _ := if xsd = utf8 "<schema/>" then .ok () else .error "not a schema"

/-- A source directory with one file. -/
def sourcesOf (content : String) : Files := fun path =>
  if path = "/schemas/4.2.2.xsd" then some (utf8 content) else none

theorem findSourceFile_sourcesOf (content : String) :
    strictRegistry.findSourceFile (sourcesOf content) "4.2.2" = some "/schemas/4.2.2.xsd" := by
  rfl

/-- The source is not copied, does not parse, and is then replaced. -/
theorem failed_resolution_recovers_uncopied :
    strictRegistry.Recovers [⟨sourcesOf "oops", { entryFails := true }, "4.2.2"⟩]
        ⟨sourcesOf "<schema/>", {}, "4.2.2"⟩ ∧
      strictRegistry.UnparsedIsMiss ⟨sourcesOf "<schema/>", {}, "4.2.2"⟩
        (strictRegistry.cacheAfter [⟨sourcesOf "oops", { entryFails := true }, "4.2.2"⟩]) := by
  have hfails (sibling : Option Bytes) :
      ({ entryFails := true } : Faults).keepsEntry sibling ≠ true := by
    simp [Faults.keepsEntry]
  have hsound (cache : Files) :
      strictRegistry.Sound ⟨sourcesOf "<schema/>", {}, "4.2.2"⟩ cache := by
    refine ⟨fun _ path xsd hpath hxsd _ => ?_, fun _ _ _ _ _ _ => rfl⟩
    obtain rfl := Option.some.inj ((findSourceFile_sourcesOf _).symm.trans hpath)
    obtain rfl : utf8 "<schema/>" = xsd := Option.some.inj hxsd
    exact ⟨⟨(), rfl⟩, fun h => by cases h⟩
  exact failed_resolution_recovers strictRegistry
    [⟨sourcesOf "oops", { entryFails := true }, "4.2.2"⟩] ⟨sourcesOf "<schema/>", {}, "4.2.2"⟩
    (.snoc (.snoc .nil ⟨fun _ _ _ _ _ hkeeps => absurd hkeeps (hfails _),
      fun _ _ _ _ _ hkeeps => absurd hkeeps (hfails _)⟩) (hsound _))

/-- A fault-free call caches a source that does not parse. -/
theorem corrupt_source_poisons : ¬ ∀ (calls : List SchemaCall) (next : SchemaCall),
    strictRegistry.Recovers calls next ∧
      strictRegistry.UnparsedIsMiss next (strictRegistry.cacheAfter calls) := by
  intro h
  have hcorrupt : ∃ failure, (strictRegistry.resolveSchema (sourcesOf "oops") {} noFiles "4.2.2").1 =
      some (.error failure) :=
    ⟨_, rfl⟩
  obtain ⟨failure, hfailure⟩ := hcorrupt
  obtain ⟨outcome, houtcome, result, hresult, -⟩ :=
    (h [⟨sourcesOf "oops", {}, "4.2.2"⟩] ⟨sourcesOf "<schema/>", {}, "4.2.2"⟩).1 []
      ⟨sourcesOf "oops", {}, "4.2.2"⟩ [] rfl
      ⟨_, utf8 "oops", "not a schema", failure, findSourceFile_sourcesOf _, rfl, rfl, hfailure⟩
      nofun rfl rfl _ (utf8 "<schema/>") () (findSourceFile_sourcesOf _) rfl rfl
  obtain ⟨_, hthrows, -⟩ := @Registry.poisons _ strictRegistry (sourcesOf "oops") noFiles {} "4.2.2" rfl
    _ _ _ (findSourceFile_sourcesOf _) rfl rfl rfl _ _ _ houtcome
  rw [hresult] at hthrows
  cases hthrows

end ParseX

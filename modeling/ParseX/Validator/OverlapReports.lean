import ParseX.Base.Words
import ParseX.Validator.OverlapSpec

/-! # Which overlaps are reported

A signal that collides stops claiming, so the bits it has not got to stay
unclaimed and later signals do not collide there. A bit counts as covered when
a mapping gets to it before it meets a covered bit. -/
namespace ParseX
open Cpp

/-! ## Coverage -/

namespace Placement

/-- The place of a bit in the order of the walk. -/
def order (p : Placement) (bit : Nat) : Nat :=
  match p.byteOrder with
  | .leastSignificantByteFirst => bit
  | .mostSignificantByteFirst => MsbFirst.index bit

theorem occupies_iff {p : Placement} {bit : Nat} : p.Occupies bit ↔
    p.order p.start ≤ p.order bit ∧ p.order bit < p.order p.start + p.length := by
  unfold Occupies order
  cases p.byteOrder <;> rfl

instance (p : Placement) (bit : Nat) : Decidable (p.Occupies bit) :=
  decidable_of_iff _ occupies_iff.symm

theorem bits_getElem? {p : Placement} {k bit : Nat} : p.bits[k]? = some bit ↔
    k < p.length ∧ p.order bit = p.order p.start + k := by
  unfold bits order
  cases p.byteOrder with
  | leastSignificantByteFirst =>
    simp only [List.getElem?_map, Option.map_eq_some_iff, List.getElem?_eq_some_iff,
      List.length_range, List.getElem_range]
    grind
  | mostSignificantByteFirst =>
    simp only [MsbFirst.walk, List.getElem?_map, Option.map_eq_some_iff, List.getElem?_eq_some_iff,
      List.length_range, List.getElem_range]
    constructor
    · rintro ⟨_, ⟨hk, rfl⟩, rfl⟩
      exact ⟨hk, MsbFirst.index_index _⟩
    · rintro ⟨hk, h⟩
      exact ⟨k, ⟨hk, rfl⟩, by rw [← h, MsbFirst.index_index]⟩

end Placement

/-- A bit that one of the placements, the latest first, covers: it gets to the
bit without a bit on the way that an earlier one covers. -/
def Covered : List Placement → Nat → Prop
  | [], _ => False
  | p :: earlier, bit => Covered earlier bit ∨ p.Occupies bit ∧
    ∀ before, p.Occupies before → p.order before ≤ p.order bit → ¬ Covered earlier before

/-- The placement shares a bit with one of the earlier. -/
def Meets (earlier : List Placement) (p : Placement) : Prop :=
  ∃ q ∈ earlier, ∃ bit, q.Occupies bit ∧ p.Occupies bit

/-- Every placement that shares a bit with an earlier one shares a bit that is
covered before it. -/
def MeetingsCovered (ps : List Placement) : Prop :=
  ∀ earlier p later, ps = earlier ++ p :: later → Meets earlier p →
    ∃ bit, p.Occupies bit ∧ Covered earlier.reverse bit

/-! ## One run of claims -/

/-- The held bits are the covered ones, and their holders are placed. -/
def Tracks (earlier : List Placement) (held : Nat → Option String) : Prop :=
  ∀ i, ((held i).isSome ↔ Covered earlier i) ∧
    ∀ holder, held i = some holder → holder ∈ earlier.map Placement.signalName

section
variable {size : Nat} {earlier : List Placement} {held : Nat → Option String} {p : Placement}

/-- The owner of a new name can have the bits that are not covered. -/
theorem free_iff (htracks : Tracks earlier held) (hnew : p.signalName ∉ earlier.map Placement.signalName)
    {bit : Nat} (hin : bit < size) :
    ClaimArray.Free size p.signalName held bit ↔ ¬ Covered earlier bit := by
  obtain ⟨hcovered, hholder⟩ := htracks bit
  rw [← hcovered]
  constructor
  · intro hfree hheld
    obtain ⟨holder, hh⟩ := Option.isSome_iff_exists.mp hheld
    obtain rfl := hfree.2.2 holder hh
    exact hnew (hholder _ hh)
  · intro hnone
    refine ⟨by omega, by omega, fun holder hh => absurd ?_ hnone⟩
    rw [Int.toNat_natCast] at hh
    rw [hh]
    rfl

/-- What the claim of a placement gets to. -/
theorem reaches_claim_iff (hv : p.Visible) (hinside : ∀ bit, p.Occupies bit → bit < size)
    (htracks : Tracks earlier held) (hnew : p.signalName ∉ earlier.map Placement.signalName)
    (bit : Nat) : ClaimArray.Reaches size p.signalName held p.claim.2 bit ↔
      p.Occupies bit ∧
        ∀ before, p.Occupies before → p.order before ≤ p.order bit → ¬ Covered earlier before := by
  have hcell (k : Nat) (cell : Int) :
      p.claim.2[k]? = some cell ↔ ∃ b : Nat, p.bits[k]? = some b ∧ (b : Int) = cell := by
    simp [Placement.claim, hv]
  rw [ClaimArray.reaches_iff]
  constructor
  · rintro ⟨k, hk, hbefore⟩
    obtain ⟨b, hb, hcast⟩ := (hcell k _).mp hk
    obtain rfl : b = bit := Int.ofNat_inj.mp hcast
    obtain ⟨hlt, horder⟩ := Placement.bits_getElem?.mp hb
    have hocc : p.Occupies b := Placement.occupies_iff.mpr (by omega)
    refine ⟨hocc, fun before hoccb hle => ?_⟩
    have hrange := Placement.occupies_iff.mp hoccb
    have hget : p.bits[p.order before - p.order p.start]? = some before :=
      Placement.bits_getElem?.mpr (by omega)
    exact (free_iff htracks hnew (hinside before hoccb)).mp
      (hbefore _ (by omega) before ((hcell _ _).mpr ⟨before, hget, rfl⟩))
  · rintro ⟨hocc, hbefore⟩
    have hrange := Placement.occupies_iff.mp hocc
    refine ⟨p.order bit - p.order p.start,
      (hcell _ _).mpr ⟨bit, Placement.bits_getElem?.mpr (by omega), rfl⟩, fun j hj c hc => ?_⟩
    obtain ⟨b, hb, rfl⟩ := (hcell j c).mp hc
    obtain ⟨hlt, horder⟩ := Placement.bits_getElem?.mp hb
    have hoccb : p.Occupies b := Placement.occupies_iff.mpr (by omega)
    exact (free_iff htracks hnew (hinside b hoccb)).mpr (hbefore b hoccb (by omega))

/-- A claim conflicts exactly on a covered bit. -/
theorem claim_conflicts_iff (hv : p.Visible) (hinside : ∀ bit, p.Occupies bit → bit < size)
    (htracks : Tracks earlier held) (hnew : p.signalName ∉ earlier.map Placement.signalName) :
    (ClaimArray.claim size p.signalName p.claim.2 held).2.isSome ↔
      ∃ bit, p.Occupies bit ∧ Covered earlier bit := by
  rw [← not_iff_not, Option.not_isSome_iff_eq_none, ClaimArray.claim_none_iff]
  simp only [Placement.mem_claim hv, not_exists, not_and]
  constructor
  · intro h bit hbit
    exact (free_iff htracks hnew (hinside bit hbit)).mp (h bit ⟨bit, hbit, rfl⟩)
  · rintro h cell ⟨bit, hbit, rfl⟩
    exact (free_iff htracks hnew (hinside bit hbit)).mpr (h bit hbit)

/-- What is held after a claim. -/
theorem tracks_claim (hv : p.Visible) (hinside : ∀ bit, p.Occupies bit → bit < size)
    (htracks : Tracks earlier held) (hnew : p.signalName ∉ earlier.map Placement.signalName) :
    Tracks (p :: earlier) (ClaimArray.claim size p.signalName p.claim.2 held).1 := by
  intro i
  obtain ⟨hcovered, hholder⟩ := htracks i
  obtain ⟨hreach, hother⟩ := @ClaimArray.claim_reached _ _ size p.signalName p.claim.2 held i
  rw [reaches_claim_iff hv hinside htracks hnew] at hreach hother
  rw [Covered, List.map_cons]
  by_cases hi : p.Occupies i ∧
      ∀ before, p.Occupies before → p.order before ≤ p.order i → ¬ Covered earlier before
  · rw [hreach hi]
    refine ⟨⟨fun _ => .inr hi, fun _ => rfl⟩, fun holder hh => ?_⟩
    rw [← Option.some.inj hh]
    exact List.mem_cons_self
  · rw [hother hi, hcovered]
    exact ⟨⟨.inl, fun h => h.resolve_right hi⟩,
      fun holder hh => List.mem_cons_of_mem _ (hholder holder hh)⟩

end

/-- The names whose claims conflict are those of the placements that have a
covered bit. -/
theorem conflict_owners_iff {size : Nat} {name : String} (todo : List Placement) :
    ∀ (earlier : List Placement) (held : Nat → Option String), Tracks earlier held →
      (∀ p ∈ todo, p.Visible ∧ ∀ bit, p.Occupies bit → bit < size) →
      ((earlier.reverse ++ todo).map Placement.signalName).Nodup →
      (name ∈ (ClaimArray.claimAll size (todo.map Placement.claim) held).map Prod.fst ↔
        ∃ before p after, todo = before ++ p :: after ∧ p.signalName = name ∧
          ∃ bit, p.Occupies bit ∧ Covered (before.reverse ++ earlier) bit) := by
  induction todo with
  | nil =>
    intro earlier held _ _ _
    simp [ClaimArray.claimAll]
  | cons p todo ih =>
    intro earlier held htracks hplaced hnodup
    obtain ⟨⟨hv, hinside⟩, hrest⟩ := List.forall_mem_cons.mp hplaced
    have hnew : p.signalName ∉ earlier.map Placement.signalName := by
      intro hmem
      rw [List.map_append, List.map_cons] at hnodup
      exact (List.nodup_append.mp hnodup).2.2 _
        (by rwa [List.map_reverse, List.mem_reverse]) _ List.mem_cons_self rfl
    have hnext := ih (p :: earlier) _ (tracks_claim hv hinside htracks hnew) hrest
      (by simpa using hnodup)
    have hfirst : name ∈ ((ClaimArray.claim size p.signalName p.claim.2 held).2.map
        (p.signalName, ·)).toList.map Prod.fst ↔
          p.signalName = name ∧ ∃ bit, p.Occupies bit ∧ Covered earlier bit := by
      rw [← claim_conflicts_iff hv hinside htracks hnew]
      cases (ClaimArray.claim size p.signalName p.claim.2 held).2 <;> simp [eq_comm]
    rw [List.map_cons, ClaimArray.claimAll, List.map_append, List.mem_append]
    rw [show p.claim.1 = p.signalName from rfl, hfirst, hnext]
    constructor
    · rintro (h | ⟨before, q, after, rfl, h⟩)
      · exact ⟨[], p, todo, rfl, h⟩
      · exact ⟨p :: before, q, after, rfl, by simpa using h⟩
    · rintro ⟨before, q, after, hsplit, h⟩
      cases before with
      | nil =>
        obtain ⟨rfl, -⟩ := List.cons.inj hsplit
        exact .inl h
      | cons first before =>
        obtain ⟨rfl, htodo⟩ := List.cons.inj hsplit
        exact .inr ⟨before, q, after, htodo, by simpa using h⟩

/-! ## The reports -/

/-- The overlaps with the signal as the later party. -/
def overlapsOf (name : String) (findings : List ValidationError) : List ValidationError :=
  findings.filter fun finding =>
    finding.code = "can.signal_overlap" ∧ finding.actualType = some name

/-- A placement of the signal shares a bit with an earlier one. -/
def MeetsEarlier (ps : List Placement) (name : String) : Prop :=
  ∃ earlier p later, ps = earlier ++ p :: later ∧ p.signalName = name ∧ Meets earlier p

/-- One overlap for every signal that shares a bit with an earlier one, none for
the others. -/
def ReportsColliding (ps : List Placement) (findings : List ValidationError) : Prop :=
  ∀ name, (MeetsEarlier ps name → (overlapsOf name findings).length = 1) ∧
    (¬ MeetsEarlier ps name → (overlapsOf name findings).length = 0)

/-- What is covered is occupied. -/
theorem occupies_of_covered {bit : Nat} : ∀ {earlier : List Placement}, Covered earlier bit →
    ∃ q ∈ earlier, q.Occupies bit
  | p :: earlier, h => by
    rcases h with h | h
    · obtain ⟨q, hq, hbit⟩ := occupies_of_covered h
      exact ⟨q, List.mem_cons_of_mem _ hq, hbit⟩
    · exact ⟨p, List.mem_cons_self, h.1⟩

/-- The position of a name in a list without duplicates. -/
theorem split_of_names {ps earlier earlier' later later' : List Placement} {p p' : Placement}
    (hnodup : (ps.map Placement.signalName).Nodup) (h : ps = earlier ++ p :: later)
    (h' : ps = earlier' ++ p' :: later') (hname : p.signalName = p'.signalName) :
    earlier = earlier' ∧ p = p' := by
  have hnot {earlier later : List Placement} {p : Placement} (h : ps = earlier ++ p :: later) :
      p.signalName ∉ earlier.map Placement.signalName := by
    intro hmem
    rw [h, List.map_append, List.map_cons] at hnodup
    exact (List.nodup_append.mp hnodup).2.2 _ hmem _ List.mem_cons_self rfl
  have hnames : earlier.map Placement.signalName ++ p.signalName :: later.map Placement.signalName =
      earlier'.map Placement.signalName ++ p.signalName :: later'.map Placement.signalName := by
    have := congrArg (List.map Placement.signalName) (h.symm.trans h')
    simpa [hname] using this
  obtain ⟨hearlier, -⟩ := Words.split_first_unique (hnot h) (hname ▸ hnot h') hnames
  have hlength : earlier.length = earlier'.length := by
    simpa using congrArg List.length hearlier
  obtain ⟨rfl, hrest⟩ := List.append_inj (h.symm.trans h') hlength
  exact ⟨rfl, (List.cons.inj hrest).1⟩

/-- A finding about the payload length is no overlap. -/
theorem overlapsOf_append_payload (kind elementName : String) (length : UInt32) (span : RawSpan)
    (name : String) (findings : List ValidationError) :
    overlapsOf name (checkPayloadLength kind elementName length span ++ findings) =
      overlapsOf name findings := by
  have hnone : overlapsOf name (checkPayloadLength kind elementName length span) = [] := by
    rw [overlapsOf, List.filter_eq_nil_iff]
    intro finding hmem h
    exact checkPayloadLength_not_isLayout finding hmem (.inl (of_decide_eq_true h).1)
  rw [overlapsOf, List.filter_append]
  rw [overlapsOf] at hnone
  rw [hnone]
  rfl

/-- The overlaps with a signal as the later party are the conflicts of its
claims. -/
theorem length_overlapsOf (pdu : Pdu) {claims : List (ClaimArray.Claim String)} {name : String}
    (hinside : ∀ c ∈ claims, ∀ cell ∈ c.2, 0 ≤ cell ∧ cell < (pdu.length.toNat * 8 : Nat)) :
    (overlapsOf name (claimFindings pdu claims fun _ => none)).length =
      ((ClaimArray.claimAll (pdu.length.toNat * 8) claims fun _ => none).map Prod.fst).count name := by
  rw [overlapsOf, claimFindings, List.filter_map, List.length_map, List.count, List.countP_map,
    List.countP_eq_length_filter]
  congr 1
  refine List.filter_congr fun conflict hmem => ?_
  obtain ⟨holder, cell, htaken⟩ := ClaimArray.claimAll_conflict_taken claims _ hinside conflict hmem
  simp [htaken, conflictError, overlapError, beq_eq_decide]

section
variable {D : Type} [Double D]

theorem placements_names_sublist (pdu : Pdu) (signals : StdMap (Signal D)) :
    ((placements pdu signals).map Placement.signalName).Sublist
      (pdu.signalMappings.map PduSignalMapping.signalShortNameRef) := by
  rw [placements]
  induction pdu.signalMappings with
  | nil => exact List.Sublist.slnil
  | cons mapping mappings ih =>
    cases hp : placementOf signals mapping with
    | none =>
      rw [List.filterMap_cons_none hp]
      exact ih.cons _
    | some p =>
      obtain ⟨signal, -, -, rfl⟩ := placementOf_some signals hp
      rw [List.filterMap_cons_some hp]
      exact ih.cons_cons _

/-- The findings of a PDU stand together in the report of the project. -/
theorem validatePdu_infix {project : ParsedProject D} {result : ValidationResult}
    (h : validateCanSemantics project = some result) {file : ParsedFile D}
    (hfile : file ∈ project.files) {pdu : Pdu} (hpdu : pdu ∈ file.pdus) :
    (validatePdu (signalTable file) pdu).getD [] <:+: result.errors := by
  rw [validateCanSemantics_errors h]
  refine List.IsInfix.trans ?_ (List.infix_of_mem_flatten (List.mem_map_of_mem hfile))
  refine List.IsInfix.trans ?_ (List.suffix_append _ _).isInfix
  exact List.infix_of_mem_flatten (List.mem_map_of_mem hpdu)

/-- The overlaps of clean claims' names: exactly the signals with a covered bit
are reported, once each. -/
theorem overlapsOf_placements {pdu : Pdu} {ps : List Placement}
    (hplaced : ∀ p ∈ ps, p.Visible ∧ ∀ bit, p.Occupies bit → bit < pdu.length.toNat * 8)
    (hnodup : (ps.map Placement.signalName).Nodup) (name : String) :
    let count := (overlapsOf name
      (claimFindings pdu (ps.map Placement.claim) fun _ => none)).length
    count ≤ 1 ∧ (count = 1 ↔ ∃ before p after, ps = before ++ p :: after ∧ p.signalName = name ∧
      ∃ bit, p.Occupies bit ∧ Covered before.reverse bit) := by
  have hinside : ∀ c ∈ ps.map Placement.claim, ∀ cell ∈ c.2,
      0 ≤ cell ∧ cell < (pdu.length.toNat * 8 : Nat) := by
    intro c hc cell hcell
    obtain ⟨p, hp, rfl⟩ := List.mem_map.mp hc
    obtain ⟨bit, hbit, rfl⟩ := (Placement.mem_claim (hplaced p hp).1).mp hcell
    have := (hplaced p hp).2 bit hbit
    omega
  have hnames : (ps.map Placement.claim).map Prod.fst = ps.map Placement.signalName := by
    rw [List.map_map]
    rfl
  have howners := (@ClaimArray.claimAll_owners_sublist _ _ (pdu.length.toNat * 8)
    (ps.map Placement.claim) fun _ => none).nodup (hnames ▸ hnodup)
  have htracks : Tracks [] fun _ => none := fun i =>
    ⟨by simp [Covered], fun holder hh => by cases hh⟩
  have hmem := @conflict_owners_iff (pdu.length.toNat * 8) name ps [] _ htracks hplaced hnodup
  simp only [List.append_nil] at hmem
  rw [length_overlapsOf pdu hinside]
  refine ⟨List.nodup_iff_count_le_one.mp howners name, ?_⟩
  rw [← hmem, ← List.count_pos_iff]
  have := List.nodup_iff_count_le_one.mp howners name
  omega

/-- Exactly the covered meetings are reported as the geometry says. -/
theorem reports_iff_covered {pdu : Pdu} {ps : List Placement} {findings : List ValidationError}
    (hplaced : ∀ p ∈ ps, p.Visible ∧ ∀ bit, p.Occupies bit → bit < pdu.length.toNat * 8)
    (hnodup : (ps.map Placement.signalName).Nodup)
    (hfindings : ∀ name, overlapsOf name findings =
      overlapsOf name (claimFindings pdu (ps.map Placement.claim) fun _ => none)) :
    ReportsColliding ps findings ↔ MeetingsCovered ps := by
  have hcount := overlapsOf_placements hplaced hnodup
  -- a covered bit is shared with an earlier placement
  have hmeets {earlier : List Placement} {p : Placement}
      (h : ∃ bit, p.Occupies bit ∧ Covered earlier.reverse bit) : Meets earlier p := by
    obtain ⟨bit, hbit, hcovered⟩ := h
    obtain ⟨q, hq, hocc⟩ := occupies_of_covered hcovered
    exact ⟨q, List.mem_reverse.mp hq, bit, hocc, hbit⟩
  simp only [ReportsColliding, hfindings]
  constructor
  · intro h earlier p later hsplit hmeet
    have hone := (h p.signalName).1 ⟨earlier, p, later, hsplit, rfl, hmeet⟩
    obtain ⟨before, q, after, hsplit', hname, hbit⟩ := (hcount p.signalName).2.mp hone
    obtain ⟨rfl, rfl⟩ := split_of_names hnodup hsplit hsplit' hname.symm
    exact hbit
  · intro h name
    obtain ⟨hle, hone⟩ := hcount name
    refine ⟨fun ⟨earlier, p, later, hsplit, hname, hmeet⟩ =>
      hone.mpr ⟨earlier, p, later, hsplit, hname, h earlier p later hsplit hmeet⟩, fun hnot => ?_⟩
    by_contra hne
    obtain ⟨before, q, after, hsplit, hname, hbit⟩ := hone.mp (by omega)
    exact hnot ⟨before, q, after, hsplit, hname, hmeets hbit⟩

/-- Every signal of a payload that shares a bit with an earlier one is reported
once, and no other, exactly when no walk overflows and every signal that shares
a bit shares one that is covered. -/
theorem overlap_reports_iff (file : ParsedFile D) (pdu : Pdu) (hlength : 0 < pdu.length)
    (hdistinct : (pdu.signalMappings.map PduSignalMapping.signalShortNameRef).Nodup)
    (hnear : ∀ p ∈ placements pdu (signalTable file), p.start + p.length < 2147483648)
    (hinside : ∀ p ∈ placements pdu (signalTable file), ∀ bit, p.Occupies bit →
      bit < 8 * pdu.length.toNat) :
    (∃ findings, validatePdu (signalTable file) pdu = some findings ∧
      (∀ project result, file ∈ project.files → pdu ∈ file.pdus →
        validateCanSemantics project = some result → findings <:+: result.errors) ∧
      ReportsColliding (placements pdu (signalTable file)) findings) ↔
    (∀ p ∈ placements pdu (signalTable file), p.Fits) ∧
      MeetingsCovered (placements pdu (signalTable file)) := by
  have hne : pdu.length ≠ 0 := by
    intro h
    rw [h] at hlength
    exact absurd hlength (by decide)
  have hplaced : ∀ p ∈ placements pdu (signalTable file), p.Visible ∧
      ∀ bit, p.Occupies bit → bit < pdu.length.toNat * 8 := by
    intro p hp
    have := hnear p hp
    refine ⟨⟨by omega, by omega⟩, fun bit hbit => ?_⟩
    have := hinside p hp bit hbit
    omega
  have hnodup := (placements_names_sublist pdu (signalTable file)).nodup hdistinct
  by_cases hfits : ∀ p ∈ placements pdu (signalTable file), p.Fits
  · have hvalidate : validatePdu (signalTable file) pdu = some (checkPayloadLength "Pdu"
        pdu.common.shortName pdu.length pdu.common.rawSpanRef ++ claimFindings pdu
          ((placements pdu (signalTable file)).map Placement.claim) fun _ => none) := by
      rw [validatePdu, checkSignalOverlap_fits pdu (signalTable file) hne fun p hp _ => hfits p hp]
      rfl
    have hfindings (name : String) := overlapsOf_append_payload "Pdu" pdu.common.shortName pdu.length
      pdu.common.rawSpanRef name (claimFindings pdu
        ((placements pdu (signalTable file)).map Placement.claim) fun _ => none)
    have hreports := reports_iff_covered hplaced hnodup hfindings
    constructor
    · rintro ⟨findings, hfound, -, hreport⟩
      rw [hvalidate] at hfound
      obtain rfl := Option.some.inj hfound
      exact ⟨hfits, hreports.mp hreport⟩
    · rintro ⟨-, hcovered⟩
      refine ⟨_, hvalidate, fun project result hfile hpdu hresult => ?_, hreports.mpr hcovered⟩
      have hinfix := validatePdu_infix hresult hfile hpdu
      rwa [hvalidate] at hinfix
  · have hnone : validatePdu (signalTable file) pdu = none := by
      simp only [not_forall] at hfits
      obtain ⟨p, hp, hp'⟩ := hfits
      rw [validatePdu, checkSignalOverlap_overflow pdu (signalTable file) hne
        ⟨p, hp, (hplaced p hp).1, hp'⟩]
      rfl
    rw [hnone]
    refine ⟨?_, fun h => absurd h.1 hfits⟩
    rintro ⟨_, h, -⟩
    exact (Option.some_ne_none _ h.symm).elim

end

/-! ## An instance -/

/-- A PDU of eight bytes that maps the named signals, each with start and
length, least significant byte first. -/
def pduOfSignals (signals : List (String × UInt32 × UInt32)) : Pdu :=
  { common := { shortName := "Status" }
    length := 8
    signalMappings := signals.map fun signal => { signalShortNameRef := signal.1
                                                  startPosition := signal.2.1
                                                  byteOrder := .leastSignificantByteFirst } }

def fileOfSignals (signals : List (String × UInt32 × UInt32)) : ParsedFile WholeDouble :=
  { signals := signals.map fun signal => { common := { shortName := signal.1 }
                                           bitLength := signal.2.2 }
    pdus := [pduOfSignals signals] }

/-- Three signals, of which the last meets the second where the second does not
get to. -/
def chainedSignals : List (String × UInt32 × UInt32) :=
  [("Speed", 0, 8), ("Torque", 4, 8), ("Gear", 10, 10)]

theorem placements_chained :
    placements (pduOfSignals chainedSignals) (signalTable (fileOfSignals chainedSignals)) =
      [⟨"Speed", .leastSignificantByteFirst, 0, 8⟩, ⟨"Torque", .leastSignificantByteFirst, 4, 8⟩,
        ⟨"Gear", .leastSignificantByteFirst, 10, 10⟩] := by
  decide +kernel

/-- The third signal is not reported. -/
theorem chained_signal_unreported :
    let file := fileOfSignals chainedSignals
    let pdu := pduOfSignals chainedSignals
    pdu ∈ file.pdus ∧ 0 < pdu.length ∧
      (pdu.signalMappings.map PduSignalMapping.signalShortNameRef).Nodup ∧
      (∀ p ∈ placements pdu (signalTable file), p.start + p.length < 2147483648 ∧
        ∀ bit, p.Occupies bit → bit < 8 * pdu.length.toNat) ∧
      ¬ ∃ findings, validatePdu (signalTable file) pdu = some findings ∧
        ReportsColliding (placements pdu (signalTable file)) findings := by
  intro file pdu
  have hps : placements pdu (signalTable file) = _ := placements_chained
  refine ⟨List.mem_singleton_self _, by decide, by decide, ?_, ?_⟩
  · rw [hps]
    simp only [List.forall_mem_cons, Placement.Occupies, List.not_mem_nil, false_imp_iff,
      implies_true, and_true]
    refine ⟨⟨by decide, fun bit h => ?_⟩, ⟨by decide, fun bit h => ?_⟩,
      by decide, fun bit h => ?_⟩ <;> exact lt_of_lt_of_le h.2 (by decide)
  · rw [hps]
    rintro ⟨findings, hvalidate, hreports⟩
    have hnone : (validatePdu (signalTable file) pdu).map
        (fun findings => (overlapsOf "Gear" findings).length) = some 0 := by decide +kernel
    have hone := (hreports "Gear").1 ⟨_, _, [], rfl, rfl, _, List.mem_cons_of_mem _
      (List.mem_singleton_self _), 10, by decide, by decide⟩
    rw [hvalidate, Option.map_some, hone] at hnone
    exact absurd hnone (by decide)

/-- Of two placements only the first can be met. -/
theorem meetingsCovered_pair (p q : Placement) : MeetingsCovered [p, q] := by
  rintro earlier r later hsplit ⟨held, hheld, bit, hocc, hbit⟩
  have hcovered : ∀ held : Placement, held.Occupies bit → Covered [held] bit := fun held hocc =>
    .inr ⟨hocc, fun _ _ _ hnone => hnone⟩
  rcases earlier with _ | ⟨first, _ | ⟨second, rest⟩⟩
  · cases hheld
  · obtain rfl := List.mem_singleton.mp hheld
    exact ⟨bit, hbit, hcovered held hocc⟩
  · have hlength := congrArg List.length hsplit
    simp only [List.length_cons, List.length_nil, List.length_append] at hlength
    omega

theorem overlap_reports_two :
    let signals := [("Speed", 0, 8), ("Torque", 4, 8)]
    let file := fileOfSignals signals
    let pdu := pduOfSignals signals
    ∃ findings, validatePdu (signalTable file) pdu = some findings ∧
      (∀ project result, file ∈ project.files → pdu ∈ file.pdus →
        validateCanSemantics project = some result → findings <:+: result.errors) ∧
      ReportsColliding (placements pdu (signalTable file)) findings := by
  intro signals file pdu
  have hps : placements pdu (signalTable file) =
      [⟨"Speed", .leastSignificantByteFirst, 0, 8⟩, ⟨"Torque", .leastSignificantByteFirst, 4, 8⟩] := by
    decide +kernel
  have hnear : ∀ p ∈ placements pdu (signalTable file), p.start + p.length < 2147483648 ∧
      ∀ bit, p.Occupies bit → bit < 8 * pdu.length.toNat := by
    rw [hps]
    simp only [List.forall_mem_cons, Placement.Occupies, List.not_mem_nil, false_imp_iff,
      implies_true, and_true]
    exact ⟨⟨by decide, fun bit h => lt_of_lt_of_le h.2 (by decide)⟩,
      by decide, fun bit h => lt_of_lt_of_le h.2 (by decide)⟩
  refine (overlap_reports_iff file pdu (by decide) (by decide) (fun p hp => (hnear p hp).1)
    fun p hp => (hnear p hp).2).mpr ?_
  rw [hps]
  refine ⟨?_, meetingsCovered_pair _ _⟩
  simp only [List.forall_mem_cons, Placement.Fits, List.not_mem_nil, false_imp_iff, implies_true,
    and_true]
  decide

end ParseX

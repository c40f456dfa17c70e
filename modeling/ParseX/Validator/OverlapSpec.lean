import ParseX.Base.MsbFirst
import ParseX.Validator.ValidatorCan

/-! # What the overlap check decides

The geometry of mapped signals, and how far the check of one PDU agrees with
it. Positions and lengths of 2^31 and more turn negative on the way to `int`,
so their mappings claim no bits; walks that leave the range of `int` are
undefined. -/
namespace ParseX
open Cpp

/-! ## Geometry -/

/-- A mapping whose signal resolves to a positive bit length. -/
structure Placement where
  signalName : String
  byteOrder : ByteOrder
  start : Nat
  length : Nat
  deriving DecidableEq, Repr

/-- The bits of a placement: ascending from the start, or consecutive in
MSB-first order. -/
def Placement.Occupies (p : Placement) (bit : Nat) : Prop :=
  match p.byteOrder with
  | .leastSignificantByteFirst => p.start ≤ bit ∧ bit < p.start + p.length
  | .mostSignificantByteFirst => MsbFirst.index p.start ≤ MsbFirst.index bit ∧
      MsbFirst.index bit < MsbFirst.index p.start + p.length

/-- All bits lie below `size` and differently named signals share none. -/
def CleanLayout (size : Nat) (placements : List Placement) : Prop :=
  (∀ p ∈ placements, ∀ bit, p.Occupies bit → bit < size) ∧
    ∀ p ∈ placements, ∀ q ∈ placements, p.signalName ≠ q.signalName →
      ∀ bit, p.Occupies bit → ¬ q.Occupies bit

/-- Start and length are positive as `int`. -/
def Placement.Visible (p : Placement) : Prop := p.start < 2147483648 ∧ p.length < 2147483648

instance (p : Placement) : Decidable p.Visible := inferInstanceAs (Decidable (_ ∧ _))

/-- The walk over the bits stays in the range of `int`. -/
def Placement.Fits (p : Placement) : Prop :=
  match p.byteOrder with
  | .leastSignificantByteFirst => p.start + p.length ≤ 2147483648
  | .mostSignificantByteFirst => MsbFirst.index p.start + p.length < 2147483648

section
variable {D : Type} [Double D]

/-- The placement of a mapping. -/
def placementOf (signals : StdMap (Signal D)) (mapping : PduSignalMapping) : Option Placement :=
  match signals[mapping.signalShortNameRef]? with
  | none => none
  | some signal =>
    if signal.bitLength = 0 then none
    else some ⟨mapping.signalShortNameRef, mapping.byteOrder, mapping.startPosition.toNat,
      signal.bitLength.toNat⟩

/-- The placements of a PDU, in mapping order. -/
def placements (pdu : Pdu) (signals : StdMap (Signal D)) : List Placement :=
  pdu.signalMappings.filterMap (placementOf signals)

end

/-! ## The walks -/

/-- The bits of a placement, in the order of the walk. -/
def Placement.bits (p : Placement) : List Nat :=
  match p.byteOrder with
  | .leastSignificantByteFirst => (List.range p.length).map (p.start + ·)
  | .mostSignificantByteFirst => MsbFirst.walk p.start p.length

theorem Placement.mem_bits {p : Placement} {bit : Nat} : bit ∈ p.bits ↔ p.Occupies bit := by
  unfold Placement.bits Placement.Occupies
  cases p.byteOrder with
  | mostSignificantByteFirst => exact MsbFirst.mem_walk
  | leastSignificantByteFirst =>
    simp only [List.mem_map, List.mem_range]
    constructor
    · rintro ⟨k, hk, rfl⟩
      omega
    · rintro ⟨hlo, hhi⟩
      exact ⟨bit - p.start, by omega, by omega⟩

theorem castInt_small {v : UInt32} (h : v.toNat < 2147483648) : castInt v = v.toNat := by
  simp only [castInt, BitVec.toInt]
  rw [if_pos]
  · rfl
  · have : v.toBitVec.toNat = v.toNat := rfl
    omega

theorem castInt_large {v : UInt32} (h : ¬ v.toNat < 2147483648) : castInt v < 0 := by
  have hlt := v.toNat_lt
  simp only [castInt, BitVec.toInt]
  have : v.toBitVec.toNat = v.toNat := rfl
  rw [if_neg (by omega)]
  omega

theorem intResult_nat {n : Nat} : intResult n = if n < 2147483648 then some (n : Int) else none := by
  unfold intResult
  congr 1
  apply propext
  omega

theorem motorolaLoop_nat (count : Nat) : ∀ pos : Nat,
    motorolaLoop count pos =
      if count = 0 ∨ MsbFirst.index pos + count < 2147483648 then
        some ((MsbFirst.walk pos count).map Int.ofNat)
      else none := by
  induction count with
  | zero => intro pos; simp [motorolaLoop, MsbFirst.walk]
  | succ count ih =>
    intro pos
    have hnext : (if (pos : Int) % 8 = 0 then (pos : Int) + 15 else (pos : Int) - 1) =
        (MsbFirst.next pos : Nat) := by
      unfold MsbFirst.next
      split <;> split <;> omega
    have hfits : MsbFirst.next pos < 2147483648 ↔ MsbFirst.index pos + 1 < 2147483648 := by
      rw [← MsbFirst.index_step]
      exact (MsbFirst.index_lt_bytes : MsbFirst.index _ < 8 * 268435456 ↔ _).symm
    rw [motorolaLoop, hnext, intResult_nat, MsbFirst.walk_succ]
    by_cases hn : MsbFirst.next pos < 2147483648
    · rw [if_pos hn]
      simp only [Option.bind_eq_bind, Option.bind_some, ih, MsbFirst.index_step]
      rw [hfits] at hn
      by_cases hc : MsbFirst.index pos + (count + 1) < 2147483648
      · rw [if_pos (Or.inr hc), if_pos (Or.inr (by omega))]
        rfl
      · rw [if_neg (by omega), if_neg (by omega)]
        rfl
    · rw [if_neg hn, if_neg (by rw [hfits] at hn; omega)]
      rfl

theorem intelBits_nat (start count : Nat) :
    ((List.range count).mapM fun (idx : Nat) => intResult ((start : Int) + idx)) =
      if count = 0 ∨ start + count ≤ 2147483648 then
        some (((List.range count).map (start + ·)).map Int.ofNat)
      else none := by
  induction count with
  | zero => rfl
  | succ count ih =>
    have hlast : intResult ((start : Int) + count) =
        if start + count < 2147483648 then some ((start + count : Nat) : Int) else none := by
      rw [← intResult_nat]
      rfl
    rw [List.range_succ, List.mapM_append, ih]
    simp only [List.mapM_cons, List.mapM_nil, hlast]
    by_cases hc : start + (count + 1) ≤ 2147483648
    · rw [if_pos (by omega), if_pos (by omega), if_pos (Or.inr hc)]
      simp
    · rw [if_neg (by omega : ¬ (start + count < 2147483648)),
        if_neg (by omega : ¬ (count + 1 = 0 ∨ start + (count + 1) ≤ 2147483648))]
      simp

section
variable {byteOrder : ByteOrder} {start length : UInt32} {name : String}

/-- A start or length of 2^31 and more claims no bits. -/
theorem physicalBits_invisible
    (h : ¬ (Placement.mk name byteOrder start.toNat length.toNat).Visible) :
    physicalBitsForSignal byteOrder (castInt start) (castInt length) = some [] := by
  have hguard : castInt start < 0 ∨ castInt length ≤ 0 := by
    by_cases hs : start.toNat < 2147483648
    · exact Or.inr (le_of_lt (castInt_large fun hl => h ⟨hs, hl⟩))
    · exact Or.inl (castInt_large hs)
  cases byteOrder <;>
    simp [physicalBitsForSignal, physicalBitsForIntelSignal, physicalBitsForMotorolaSignal, hguard]

theorem physicalBits_visible (hlength : length ≠ 0)
    (h : (Placement.mk name byteOrder start.toNat length.toNat).Visible) :
    physicalBitsForSignal byteOrder (castInt start) (castInt length) =
      match byteOrder with
      | .leastSignificantByteFirst => (List.range length.toNat).mapM fun (idx : Nat) =>
          intResult ((start.toNat : Int) + idx)
      | .mostSignificantByteFirst => motorolaLoop length.toNat start.toNat := by
  have hpos : length.toNat ≠ 0 := fun h => hlength (UInt32.toNat_inj.mp h)
  have hguard : ¬ ((start.toNat : Int) < 0 ∨ (length.toNat : Int) ≤ 0) := by omega
  rw [castInt_small h.1, castInt_small h.2]
  cases byteOrder <;> simp only [physicalBitsForSignal, physicalBitsForIntelSignal,
    physicalBitsForMotorolaSignal, if_neg hguard, Int.toNat_natCast, reduceCtorEq, if_true, if_false]

/-- A visible placement whose walk fits claims its bits. -/
theorem physicalBits_fits (hlength : length ≠ 0)
    (h : (Placement.mk name byteOrder start.toNat length.toNat).Visible)
    (hfits : (Placement.mk name byteOrder start.toNat length.toNat).Fits) :
    physicalBitsForSignal byteOrder (castInt start) (castInt length) =
      some ((Placement.mk name byteOrder start.toNat length.toNat).bits.map Int.ofNat) := by
  rw [physicalBits_visible hlength h]
  cases byteOrder with
  | leastSignificantByteFirst =>
    simp only [intelBits_nat]
    exact if_pos (Or.inr hfits)
  | mostSignificantByteFirst =>
    simp only [motorolaLoop_nat]
    exact if_pos (Or.inr hfits)

/-- A visible placement whose walk does not fit is undefined. -/
theorem physicalBits_overflow (hlength : length ≠ 0)
    (h : (Placement.mk name byteOrder start.toNat length.toNat).Visible)
    (hfits : ¬ (Placement.mk name byteOrder start.toNat length.toNat).Fits) :
    physicalBitsForSignal byteOrder (castInt start) (castInt length) = none := by
  have hpos : length.toNat ≠ 0 := fun h => hlength (UInt32.toNat_inj.mp h)
  rw [physicalBits_visible hlength h]
  cases byteOrder with
  | leastSignificantByteFirst =>
    simp only [intelBits_nat]
    exact if_neg (not_or.mpr ⟨hpos, hfits⟩)
  | mostSignificantByteFirst =>
    simp only [motorolaLoop_nat]
    exact if_neg (not_or.mpr ⟨hpos, hfits⟩)

end

/-! ## One PDU -/

section
variable {D : Type} [Double D] (pdu : Pdu) (signals : StdMap (Signal D))

/-- The claim of a placement. -/
def Placement.claim (p : Placement) : ClaimArray.Claim String :=
  (p.signalName, if p.Visible then p.bits.map Int.ofNat else [])

/-- The findings of a run of claims. -/
def claimFindings (claims : List (ClaimArray.Claim String)) (held : Nat → Option String) :
    List ValidationError :=
  (ClaimArray.claimAll (pdu.length.toNat * 8) claims held).map fun conflict =>
    conflictError pdu conflict.1 conflict.2

theorem checkMapping_none {mapping : PduSignalMapping} (h : placementOf signals mapping = none)
    (state : OverlapState) : checkMapping pdu signals state mapping = some state := by
  cases hs : signals[mapping.signalShortNameRef]? with
  | none => simp only [checkMapping, hs]
  | some signal =>
    simp only [placementOf, hs, ite_eq_left_iff, reduceCtorEq, imp_false, not_not] at h
    simp only [checkMapping, hs, if_pos h]

/-- The placement of a mapping that resolves. -/
theorem placementOf_some {mapping : PduSignalMapping} {p : Placement}
    (h : placementOf signals mapping = some p) :
    ∃ signal, signals[mapping.signalShortNameRef]? = some signal ∧ signal.bitLength ≠ 0 ∧
      p = ⟨mapping.signalShortNameRef, mapping.byteOrder, mapping.startPosition.toNat,
        signal.bitLength.toNat⟩ := by
  cases hs : signals[mapping.signalShortNameRef]? with
  | none => simp only [placementOf, hs, reduceCtorEq] at h
  | some signal =>
    by_cases hzero : signal.bitLength = 0
    · simp only [placementOf, hs, if_pos hzero, reduceCtorEq] at h
    · simp only [placementOf, hs, if_neg hzero, Option.some.injEq] at h
      exact ⟨signal, rfl, hzero, h.symm⟩

/-- A resolved mapping claims the bits of its placement. -/
theorem checkMapping_some {mapping : PduSignalMapping} {p : Placement}
    (h : placementOf signals mapping = some p) (hfits : p.Visible → p.Fits)
    (state : OverlapState) :
    let claimed := ClaimArray.claim (pdu.length.toNat * 8) p.claim.1 p.claim.2 state.1
    checkMapping pdu signals state mapping = some (claimed.1,
      state.2 ++ (claimed.2.map (conflictError pdu p.claim.1)).toList) := by
  obtain ⟨signal, hs, hnonzero, rfl⟩ := placementOf_some signals h
  simp only [checkMapping, hs, if_neg hnonzero]
  by_cases hv : (Placement.mk mapping.signalShortNameRef mapping.byteOrder
      mapping.startPosition.toNat signal.bitLength.toNat).Visible
  · rw [physicalBits_fits hnonzero hv (hfits hv)]
    simp only [Placement.claim, if_pos hv, Option.bind_eq_bind, Option.bind_some]
  · rw [physicalBits_invisible hv]
    simp only [Placement.claim, if_neg hv, Option.bind_eq_bind, Option.bind_some]

theorem checkMapping_overflow {mapping : PduSignalMapping} {p : Placement}
    (h : placementOf signals mapping = some p) (hvisible : p.Visible) (hfits : ¬ p.Fits)
    (state : OverlapState) : checkMapping pdu signals state mapping = none := by
  obtain ⟨signal, hs, hnonzero, rfl⟩ := placementOf_some signals h
  simp only [checkMapping, hs, if_neg hnonzero]
  rw [physicalBits_overflow hnonzero hvisible hfits]
  rfl

/-- The loop over the mappings runs the claims of the placements. -/
theorem foldlM_checkMapping (mappings : List PduSignalMapping) :
    ∀ state : OverlapState,
      (∀ p ∈ mappings.filterMap (placementOf signals), p.Visible → p.Fits) →
      (mappings.foldlM (checkMapping pdu signals) state).map Prod.snd =
        some (state.2 ++ claimFindings pdu
          ((mappings.filterMap (placementOf signals)).map Placement.claim) state.1) := by
  induction mappings with
  | nil => intro state _; simp [claimFindings, ClaimArray.claimAll]
  | cons mapping mappings ih =>
    intro state hfits
    rw [List.foldlM_cons]
    cases hp : placementOf signals mapping with
    | none =>
      rw [List.filterMap_cons_none hp] at hfits ⊢
      rw [checkMapping_none pdu signals hp, Option.bind_eq_bind, Option.bind_some]
      exact ih state hfits
    | some p =>
      rw [List.filterMap_cons_some hp] at hfits ⊢
      obtain ⟨hfirst, hrest⟩ := List.forall_mem_cons.mp hfits
      rw [checkMapping_some pdu signals hp hfirst, Option.bind_eq_bind, Option.bind_some,
        ih _ hrest]
      simp only [claimFindings, List.map_cons, ClaimArray.claimAll, List.map_append,
        List.append_assoc]
      cases (ClaimArray.claim (pdu.length.toNat * 8) p.claim.1 p.claim.2 state.1).2 <;> rfl

theorem foldlM_checkMapping_overflow (mappings : List PduSignalMapping) :
    ∀ state : OverlapState,
      (∃ p ∈ mappings.filterMap (placementOf signals), p.Visible ∧ ¬ p.Fits) →
      mappings.foldlM (checkMapping pdu signals) state = none := by
  induction mappings with
  | nil => rintro state ⟨p, hp, -⟩; cases hp
  | cons mapping mappings ih =>
    rintro state ⟨q, hq, hv, hf⟩
    rw [List.foldlM_cons]
    cases hp : placementOf signals mapping with
    | none =>
      rw [List.filterMap_cons_none hp] at hq
      rw [checkMapping_none pdu signals hp, Option.bind_eq_bind, Option.bind_some]
      exact ih state ⟨q, hq, hv, hf⟩
    | some p =>
      rw [List.filterMap_cons_some hp] at hq
      by_cases hpf : p.Visible → p.Fits
      · rw [checkMapping_some pdu signals hp hpf, Option.bind_eq_bind, Option.bind_some]
        rcases List.mem_cons.mp hq with rfl | hq
        · exact absurd (hpf hv) hf
        · exact ih _ ⟨q, hq, hv, hf⟩
      · rw [Classical.not_imp] at hpf
        rw [checkMapping_overflow pdu signals hp hpf.1 hpf.2]
        rfl

theorem Placement.mem_claim {p : Placement} (hv : p.Visible) {cell : Int} :
    cell ∈ p.claim.2 ↔ ∃ bit : Nat, p.Occupies bit ∧ cell = bit := by
  simp only [Placement.claim, if_pos hv, List.mem_map, Placement.mem_bits]
  constructor
  · rintro ⟨bit, hbit, rfl⟩
    exact ⟨bit, hbit, rfl⟩
  · rintro ⟨bit, hbit, rfl⟩
    exact ⟨bit, hbit, rfl⟩

theorem Placement.claim_invisible {p : Placement} (hv : ¬ p.Visible) : p.claim.2 = [] := by
  simp only [Placement.claim, if_neg hv]

/-- Claims are clean exactly when the visible placements are. -/
theorem clean_claims_iff (size : Nat) (ps : List Placement) :
    ClaimArray.Clean size (ps.map Placement.claim) ↔
      CleanLayout size (ps.filter fun p => p.Visible) := by
  simp only [ClaimArray.Clean, CleanLayout, ClaimArray.Inside, List.forall_mem_map,
    List.mem_filter, decide_eq_true_eq]
  constructor
  · rintro ⟨hinside, hdisjoint⟩
    refine ⟨fun p hp bit hbit => ?_, fun p hp q hq hne bit hbit hmem => ?_⟩
    · have := (hinside p hp.1 bit ((Placement.mem_claim hp.2).mpr ⟨bit, hbit, rfl⟩)).2
      omega
    · exact hdisjoint p hp.1 q hq.1 hne bit ((Placement.mem_claim hp.2).mpr ⟨bit, hbit, rfl⟩)
        ((Placement.mem_claim hq.2).mpr ⟨bit, hmem, rfl⟩)
  · rintro ⟨hinside, hdisjoint⟩
    have hseen {p : Placement} {cell : Int} (hcell : cell ∈ p.claim.2) : p.Visible := by
      by_contra hv
      rw [Placement.claim_invisible hv] at hcell
      cases hcell
    refine ⟨fun p hp cell hcell => ?_, fun p hp q hq hne cell hcell hmem => ?_⟩
    · obtain ⟨bit, hbit, rfl⟩ := (Placement.mem_claim (hseen hcell)).mp hcell
      have := hinside p ⟨hp, hseen hcell⟩ bit hbit
      omega
    · obtain ⟨bit, hbit, rfl⟩ := (Placement.mem_claim (hseen hcell)).mp hcell
      obtain ⟨bit', hbit', he⟩ := (Placement.mem_claim (hseen hmem)).mp hmem
      obtain rfl := Int.ofNat_inj.mp he
      exact hdisjoint p ⟨hp, hseen hcell⟩ q ⟨hq, hseen hmem⟩ hne bit hbit hbit'

/-- The check of a PDU with a payload, without a visible overflow. -/
theorem checkSignalOverlap_fits (hlength : pdu.length ≠ 0)
    (hfits : ∀ p ∈ placements pdu signals, p.Visible → p.Fits) :
    checkSignalOverlap pdu signals =
      some (claimFindings pdu ((placements pdu signals).map Placement.claim) fun _ => none) := by
  have hbytes : pdu.length.toNat ≠ 0 := fun h => hlength (UInt32.toNat_inj.mp h)
  unfold checkSignalOverlap
  by_cases hempty : pdu.signalMappings = []
  · rw [if_pos (Or.inr hempty), placements, hempty]
    rfl
  · rw [if_neg (not_or.mpr ⟨by omega, hempty⟩),
      foldlM_checkMapping pdu signals pdu.signalMappings _ hfits]
    rfl

/-- Without a visible overflow the check finds nothing exactly when the visible
placements are clean. -/
theorem checkSignalOverlap_eq_nil (hlength : pdu.length ≠ 0)
    (hfits : ∀ p ∈ placements pdu signals, p.Visible → p.Fits) :
    ∃ findings, checkSignalOverlap pdu signals = some findings ∧
      (findings = [] ↔ CleanLayout (8 * pdu.length.toNat)
        ((placements pdu signals).filter fun p => p.Visible)) := by
  refine ⟨_, checkSignalOverlap_fits pdu signals hlength hfits, ?_⟩
  rw [claimFindings, List.map_eq_nil_iff, ClaimArray.claimAll_eq_nil_iff, clean_claims_iff,
    Nat.mul_comm]

theorem checkSignalOverlap_overflow (hlength : pdu.length ≠ 0)
    (h : ∃ p ∈ placements pdu signals, p.Visible ∧ ¬ p.Fits) :
    checkSignalOverlap pdu signals = none := by
  have hbytes : pdu.length.toNat ≠ 0 := fun h => hlength (UInt32.toNat_inj.mp h)
  have hempty : pdu.signalMappings ≠ [] := by
    intro he
    rw [placements, he] at h
    obtain ⟨p, hp, -⟩ := h
    cases hp
  unfold checkSignalOverlap
  rw [if_neg (not_or.mpr ⟨by omega, hempty⟩),
    foldlM_checkMapping_overflow pdu signals pdu.signalMappings _ h]
  rfl

end

/-! ## The verdict -/

/-- A finding about the layout of a PDU. -/
def ValidationError.IsLayout (finding : ValidationError) : Prop :=
  finding.code = "can.signal_overlap" ∨ finding.code = "can.signal_out_of_range"

/-- The placement lies inside and meets no placement of another signal. -/
def Placement.Harmless (size : Nat) (placements : List Placement) (p : Placement) : Prop :=
  (∀ bit, p.Occupies bit → bit < size) ∧
    ∀ q ∈ placements, p.signalName ≠ q.signalName → ∀ bit, p.Occupies bit → ¬ q.Occupies bit

theorem conflictError_isLayout (pdu : Pdu) (signalName : String)
    (conflict : ClaimArray.Conflict String) : (conflictError pdu signalName conflict).IsLayout := by
  cases conflict with
  | outside bit => exact Or.inr rfl
  | taken owner bit => exact Or.inl rfl

theorem checkPayloadLength_not_isLayout {kind name : String} {length : UInt32} {span : RawSpan} :
    ∀ finding ∈ checkPayloadLength kind name length span, ¬ finding.IsLayout := by
  intro finding hmem
  unfold checkPayloadLength at hmem
  split at hmem
  · cases hmem
  · rw [List.mem_singleton.mp hmem]
    simp [ValidationError.IsLayout]

/-- The findings of the overlap check. -/
theorem checkSignalOverlap_isLayout {D : Type} [Double D] {pdu : Pdu}
    {signals : StdMap (Signal D)} {findings : List ValidationError}
    (h : checkSignalOverlap pdu signals = some findings) :
    ∀ finding ∈ findings, finding.IsLayout := by
  by_cases hne : pdu.length = 0
  · rw [checkSignalOverlap, if_pos (Or.inl (by rw [hne]; rfl))] at h
    obtain rfl := Option.some.inj h
    simp
  · by_cases hfits : ∀ p ∈ placements pdu signals, p.Visible → p.Fits
    · rw [checkSignalOverlap_fits pdu signals hne hfits] at h
      obtain rfl := Option.some.inj h
      intro finding hmem
      obtain ⟨conflict, -, rfl⟩ := List.mem_map.mp hmem
      exact conflictError_isLayout pdu _ _
    · simp only [not_forall] at hfits
      obtain ⟨p, hp, hv, hf⟩ := hfits
      rw [checkSignalOverlap_overflow pdu signals hne ⟨p, hp, hv, hf⟩] at h
      cases h

/-- A layout is clean when its visible part is and nothing else does harm. -/
theorem cleanLayout_iff_visible (size : Nat) (ps : List Placement) :
    CleanLayout size ps ↔ CleanLayout size (ps.filter fun p => p.Visible) ∧
      ∀ p ∈ ps, ¬ p.Visible → p.Harmless size ps := by
  constructor
  · rintro ⟨hinside, hdisjoint⟩
    refine ⟨⟨fun p hp => hinside p (List.mem_of_mem_filter hp), fun p hp q hq =>
      hdisjoint p (List.mem_of_mem_filter hp) q (List.mem_of_mem_filter hq)⟩, ?_⟩
    intro p hp _
    exact ⟨hinside p hp, hdisjoint p hp⟩
  · rintro ⟨⟨hinside, hdisjoint⟩, hharmless⟩
    have hseen {p : Placement} (hp : p ∈ ps) (hv : p.Visible) :
        p ∈ ps.filter fun p => p.Visible :=
      List.mem_filter.mpr ⟨hp, decide_eq_true hv⟩
    refine ⟨fun p hp => ?_, fun p hp q hq hne bit hbit hmem => ?_⟩
    · by_cases hv : p.Visible
      · exact hinside p (hseen hp hv)
      · exact (hharmless p hp hv).1
    · by_cases hvp : p.Visible
      · by_cases hvq : q.Visible
        · exact hdisjoint p (hseen hp hvp) q (hseen hq hvq) hne bit hbit hmem
        · exact (hharmless q hq hvq).2 p hp hne.symm bit hmem hbit
      · exact (hharmless p hp hvp).2 q hq hne bit hbit hmem

/-- In a payload of less than 2^28 bytes no invisible placement lies inside. -/
theorem Placement.not_harmless {p : Placement} {bytes : Nat} {ps : List Placement}
    (hbytes : bytes < 268435456) (hpos : 0 < p.length) (hv : ¬ p.Visible) :
    ¬ p.Harmless (8 * bytes) ps := by
  rintro ⟨hinside, -⟩
  unfold Placement.Visible at hv
  have hlast : ∃ bit, p.Occupies bit ∧ 8 * bytes ≤ bit := by
    unfold Placement.Occupies
    cases p.byteOrder with
    | leastSignificantByteFirst => exact ⟨p.start + (p.length - 1), by dsimp only; omega, by omega⟩
    | mostSignificantByteFirst =>
      refine ⟨MsbFirst.index (MsbFirst.index p.start + (p.length - 1)), ?_, ?_⟩
      · dsimp only
        rw [MsbFirst.index_index]
        omega
      · by_contra hlt
        have hlow := MsbFirst.index_lt_bytes.mp (Nat.lt_of_not_le hlt)
        have hstart := MsbFirst.index_lt_bytes.mp (show MsbFirst.index p.start < 8 * bytes by omega)
        omega
  obtain ⟨bit, hbit, hout⟩ := hlast
  have := hinside bit hbit
  omega

section
variable {D : Type} [Double D]

theorem mapM_flatten {α β : Type} {f : α → Option (List β)} : ∀ {xs : List α} {ys : List (List β)},
    xs.mapM f = some ys → ys.flatten = xs.flatMap fun x => (f x).getD []
  | [], ys, h => by
    obtain rfl := Option.some.inj h
    rfl
  | x :: xs, ys, h => by
    rw [List.mapM_cons] at h
    obtain ⟨y, hy, h⟩ := Option.bind_eq_some_iff.mp h
    obtain ⟨zs, hzs, h⟩ := Option.bind_eq_some_iff.mp h
    obtain rfl := Option.some.inj h
    rw [List.flatten_cons, List.flatMap_cons, mapM_flatten hzs, hy]
    rfl

theorem mapM_some_mem {α β : Type} {f : α → Option β} {x : α} : ∀ {xs : List α} {ys : List β},
    xs.mapM f = some ys → x ∈ xs → ∃ y, f x = some y
  | [], _, _, hx => by cases hx
  | x' :: xs, ys, h, hx => by
    rw [List.mapM_cons] at h
    obtain ⟨y, hy, h⟩ := Option.bind_eq_some_iff.mp h
    obtain ⟨zs, hzs, h⟩ := Option.bind_eq_some_iff.mp h
    rcases List.mem_cons.mp hx with rfl | hx
    · exact ⟨y, hy⟩
    · exact mapM_some_mem hzs hx

/-- The report of a project is that of its PDUs and frames, file by file. -/
theorem validateCanSemantics_errors {project : ParsedProject D} {result : ValidationResult}
    (h : validateCanSemantics project = some result) :
    result.errors = project.files.flatMap fun file =>
      (file.frames.flatMap fun frame => checkPayloadLength "Frame" frame.common.shortName
        frame.length frame.common.rawSpanRef) ++
      file.pdus.flatMap fun pdu => (validatePdu (signalTable file) pdu).getD [] := by
  have hfile {file : ParsedFile D} {findings : List ValidationError}
      (h : validateCanFile file = some findings) :
      findings = (file.frames.flatMap fun frame => checkPayloadLength "Frame"
        frame.common.shortName frame.length frame.common.rawSpanRef) ++
        file.pdus.flatMap fun pdu => (validatePdu (signalTable file) pdu).getD [] := by
    obtain ⟨pdus, hpdus, h⟩ := Option.bind_eq_some_iff.mp h
    obtain rfl := Option.some.inj h
    rw [mapM_flatten hpdus]
  obtain ⟨findings, hfindings, h⟩ := Option.bind_eq_some_iff.mp h
  obtain rfl := Option.some.inj h
  rw [mapM_flatten hfindings]
  apply List.flatMap_congr
  intro file hmem
  obtain ⟨fileFindings, hf⟩ := mapM_some_mem hfindings hmem
  rw [hf, Option.getD_some, hfile hf]

/-- The check of a PDU judges its layout exactly when no visible walk leaves
the range of `int` and no invisible placement spoils a visible part that is
clean. -/
theorem layout_verdict_iff (file : ParsedFile D) (pdu : Pdu) (hlength : 0 < pdu.length) :
    (∃ findings, validatePdu (signalTable file) pdu = some findings ∧
      ((∀ finding ∈ findings, ¬ finding.IsLayout) ↔
        CleanLayout (8 * pdu.length.toNat) (placements pdu (signalTable file)))) ↔
    (∀ p ∈ placements pdu (signalTable file), p.Visible → p.Fits) ∧
      (CleanLayout (8 * pdu.length.toNat)
          ((placements pdu (signalTable file)).filter fun p => p.Visible) →
        ∀ p ∈ placements pdu (signalTable file), ¬ p.Visible →
          p.Harmless (8 * pdu.length.toNat) (placements pdu (signalTable file))) := by
  have hne : pdu.length ≠ 0 := by
    rintro h
    rw [h] at hlength
    exact absurd hlength (by decide)
  by_cases hfits : ∀ p ∈ placements pdu (signalTable file), p.Visible → p.Fits
  · obtain ⟨findings, hcheck, hnil⟩ :=
      checkSignalOverlap_eq_nil pdu (signalTable file) hne hfits
    have hvalidate : validatePdu (signalTable file) pdu = some (checkPayloadLength "Pdu"
        pdu.common.shortName pdu.length pdu.common.rawSpanRef ++ findings) := by
      rw [validatePdu, hcheck]
      rfl
    have hclear : (∀ finding ∈ checkPayloadLength "Pdu" pdu.common.shortName pdu.length
        pdu.common.rawSpanRef ++ findings, ¬ finding.IsLayout) ↔ findings = [] := by
      simp only [List.forall_mem_append, List.eq_nil_iff_forall_not_mem]
      constructor
      · rintro ⟨-, hnone⟩ finding hmem
        exact hnone finding hmem (checkSignalOverlap_isLayout hcheck finding hmem)
      · intro hnone
        exact ⟨checkPayloadLength_not_isLayout, fun finding hmem => absurd hmem (hnone finding)⟩
    simp only [hvalidate, Option.some.injEq, exists_eq_left', hclear, hnil]
    rw [cleanLayout_iff_visible _ (placements pdu (signalTable file))]
    constructor
    · intro h
      exact ⟨hfits, fun hvisible => (h.mp hvisible).2⟩
    · rintro ⟨-, h⟩
      exact ⟨fun hvisible => ⟨hvisible, h hvisible⟩, fun hclean => hclean.1⟩
  · rw [Classical.not_forall] at hfits
    obtain ⟨p, hp⟩ := hfits
    rw [Classical.not_imp, Classical.not_imp] at hp
    have hnone := checkSignalOverlap_overflow pdu (signalTable file) hne ⟨p, hp⟩
    constructor
    · rintro ⟨findings, h, -⟩
      rw [validatePdu, hnone] at h
      cases h
    · rintro ⟨hfits, -⟩
      exact absurd (hfits p hp.1 hp.2.1) hp.2.2

end

/-- A file with the signal "Speed" of eight bits and one PDU that maps it. -/
def fileOfMapping (startPosition : UInt32) : ParsedFile WholeDouble :=
  { signals := [{ common := { shortName := "Speed" }, bitLength := 8 }]
    pdus := [{ common := { shortName := "Status" }, length := 8, signalMappings :=
      [{ signalShortNameRef := "Speed", startPosition := startPosition }] }] }

/-- A signal that starts at bit 2^31 of an eight-byte PDU is not reported. -/
theorem far_signal_unreported :
    ∃ pdu ∈ (fileOfMapping 2147483648).pdus, 0 < pdu.length ∧
      validateCanSemantics ⟨[fileOfMapping 2147483648], ∅⟩ = some ⟨[]⟩ ∧
      ¬ CleanLayout (8 * pdu.length.toNat) (placements pdu (signalTable (fileOfMapping 2147483648))) := by
  refine ⟨_, List.mem_singleton_self _, by decide, by decide +kernel, ?_⟩
  rw [show placements _ (signalTable (fileOfMapping 2147483648)) =
    [⟨"Speed", .mostSignificantByteFirst, 2147483648, 8⟩] by decide +kernel]
  rw [cleanLayout_iff_visible]
  rintro ⟨-, hharmless⟩
  exact Placement.not_harmless (by decide) (by decide) (by decide)
    (hharmless _ (List.mem_singleton_self _) (by decide))

/-- A signal in the first byte is judged, and clean. -/
theorem layout_verdict_near_signal :
    let file := fileOfMapping 7
    ∀ pdu ∈ file.pdus, validatePdu (signalTable file) pdu = some [] ∧
      CleanLayout (8 * pdu.length.toNat) (placements pdu (signalTable file)) := by
  intro file pdu hpdu
  have hplaced : ∀ pdu ∈ file.pdus,
      placements pdu (signalTable file) = [⟨"Speed", .mostSignificantByteFirst, 7, 8⟩] := by
    decide +kernel
  have hnothing : ∀ pdu ∈ file.pdus, validatePdu (signalTable file) pdu = some [] := by
    decide +kernel
  obtain ⟨findings, hcheck, hclean⟩ :=
    (layout_verdict_iff file pdu (by rw [List.mem_singleton.mp hpdu]; decide)).mpr (by
      rw [hplaced pdu hpdu]
      exact ⟨List.forall_mem_singleton.mpr fun _ => by simp only [Placement.Fits]; decide,
        fun _ => List.forall_mem_singleton.mpr fun hinvisible => absurd (by decide) hinvisible⟩)
  obtain rfl := Option.some.inj ((hnothing pdu hpdu).symm.trans hcheck)
  exact ⟨hnothing pdu hpdu, hclean.mp (by simp)⟩

end ParseX

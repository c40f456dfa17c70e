import ParseX.Validator.OverlapSpec

/-! # The Motorola walk

Where the k-th bit of a big-endian signal stands, as integers. -/
namespace ParseX

/-- The place of a bit when every byte is read from its most significant bit. -/
def lin (p : Int) : Int := 8 * (p / 8) + (7 - p % 8)

theorem lin_lin (p : Int) : lin (lin p) = p := by
  unfold lin
  omega

theorem lin_natCast (p : Nat) : lin p = MsbFirst.index p := by
  unfold lin MsbFirst.index
  omega

theorem lin_inj {p q : Int} (h : lin p = lin q) : p = q := by
  rw [← lin_lin p, h, lin_lin]

/-- The bits of a signal that stays in the range of `int`, and when it does. -/
theorem motorolaBits_nat (start length : Nat) :
    physicalBitsForMotorolaSignal start length =
      if length = 0 ∨ MsbFirst.index start + length < 2147483648 then
        some ((MsbFirst.walk start length).map Int.ofNat)
      else none := by
  rw [physicalBitsForMotorolaSignal]
  cases length with
  | zero => rfl
  | succ length => rw [if_neg (by omega), Int.toNat_natCast, motorolaLoop_nat]

theorem motorolaBits_some {start length : Int} {bits : List Int} (hstart : 0 ≤ start)
    (hlength : 0 ≤ length) (h : physicalBitsForMotorolaSignal start length = some bits) :
    ∃ s n : Nat, start = s ∧ length = n ∧ bits = (MsbFirst.walk s n).map Int.ofNat := by
  obtain ⟨s, rfl⟩ := Int.eq_ofNat_of_zero_le hstart
  obtain ⟨n, rfl⟩ := Int.eq_ofNat_of_zero_le hlength
  rw [motorolaBits_nat] at h
  split at h
  · exact ⟨s, n, rfl, rfl, (Option.some.inj h).symm⟩
  · cases h

/-- The k-th bit of a walk, among all integers. -/
theorem getElem?_motorolaBits {s n k : Nat} (hk : k < n) (p : Int) :
    ((MsbFirst.walk s n).map Int.ofNat)[k]? = some p ↔ lin p = lin s + k := by
  rw [List.getElem?_map]
  constructor
  · intro h
    obtain ⟨bit, hbit, rfl⟩ := Option.map_eq_some_iff.mp h
    have hplace := (MsbFirst.getElem?_walk.mp hbit).2
    rw [Int.ofNat_eq_natCast, lin_natCast, lin_natCast, hplace]
    rfl
  · intro h
    have hbit : (MsbFirst.walk s n)[k]? = some (MsbFirst.index (MsbFirst.index s + k)) :=
      MsbFirst.getElem?_walk.mpr ⟨hk, MsbFirst.index_index _⟩
    rw [hbit, Option.map_some, Option.some_inj]
    refine lin_inj ?_
    rw [h, Int.ofNat_eq_natCast, lin_natCast, MsbFirst.index_index, lin_natCast]
    rfl

/-- **The Motorola walk in closed form.** The k-th bit is the one that stands k places
after the start; no bit comes twice, a signal with bits stays inside so many bytes
when it ends there, and the walk commutes with whole bytes. -/
theorem motorola_closed_form (start length : Int) (bits : List Int) (hstart : 0 ≤ start)
    (hlength : 0 ≤ length) (h : physicalBitsForMotorolaSignal start length = some bits) :
    (bits.length : Int) = length ∧
      (∀ k : Nat, k < length → ∀ p, bits[k]? = some p ↔ lin p = lin start + k) ∧ bits.Nodup ∧
      (0 < length → ∀ bytes : Nat, (∀ p ∈ bits, 0 ≤ p ∧ p < 8 * bytes) ↔
        lin start + length ≤ 8 * bytes) ∧
      ∀ bytes shifted, 0 ≤ start + 8 * bytes →
        physicalBitsForMotorolaSignal (start + 8 * bytes) length = some shifted →
        shifted = bits.map (· + 8 * bytes) := by
  obtain ⟨s, n, rfl, rfl, rfl⟩ := motorolaBits_some hstart hlength h
  refine ⟨by simp, fun k hk => getElem?_motorolaBits (by omega), ?_, ?_, ?_⟩
  · exact (MsbFirst.nodup_walk s n).map fun a b hab => Int.ofNat.inj hab
  · intro hn bytes
    rw [lin_natCast, List.forall_mem_map]
    have hinside := @MsbFirst.walk_lt_bytes s n bytes (by omega)
    constructor
    · intro hbits
      have := hinside.mp fun bit hbit => by
        have := (hbits bit hbit).2
        rw [Int.ofNat_eq_natCast] at this
        omega
      omega
    · intro hend bit hbit
      have := hinside.mpr (by omega) bit hbit
      rw [Int.ofNat_eq_natCast]
      omega
  · intro bytes shifted hshift hshifted
    obtain ⟨t, m, ht, hm, rfl⟩ := motorolaBits_some hshift hlength hshifted
    obtain rfl : n = m := by omega
    rw [List.map_map]
    rcases Int.eq_nat_or_neg bytes with ⟨count, rfl | rfl⟩
    · obtain rfl : t = s + 8 * count := by omega
      rw [MsbFirst.walk_add_bytes, List.map_map]
      exact List.map_congr_left fun bit _ => by simp
    · obtain rfl : s = t + 8 * count := by omega
      rw [MsbFirst.walk_add_bytes, List.map_map]
      exact List.map_congr_left fun bit _ => by simp

/-- Twelve bits from the highest of byte two end in the middle of byte three. -/
theorem motorola_closed_form_two_bytes :
    ([23, 22, 21, 20, 19, 18, 17, 16, 31, 30, 29, 28] : List Int).Nodup ∧
      ((∀ p ∈ ([23, 22, 21, 20, 19, 18, 17, 16, 31, 30, 29, 28] : List Int),
          0 ≤ p ∧ p < 8 * (4 : Nat)) ↔ lin 23 + 12 ≤ 8 * (4 : Nat)) := by
  have h := motorola_closed_form 23 12 [23, 22, 21, 20, 19, 18, 17, 16, 31, 30, 29, 28]
    (by decide) (by decide) (by decide)
  exact ⟨h.2.2.1, h.2.2.2.1 (by decide) 4⟩

/-- A signal without bits is inside any payload, also where it does not end there. -/
theorem no_bits_inside : physicalBitsForMotorolaSignal 8 0 = some [] ∧
    ¬ ((∀ p ∈ ([] : List Int), 0 ≤ p ∧ p < 8 * (1 : Nat)) ↔ lin 8 + 0 ≤ 8 * (1 : Nat)) := by
  decide

end ParseX

import Mathlib.Data.List.Nodup
import Mathlib.Tactic.Linarith

/-! # MSB-first bit numbering

Bits of a byte string are numbered from the least significant bit of each byte.
`index` gives the place of a bit when every byte is read from its most
significant bit; it is its own inverse and commutes with shifts by whole
bytes. -/
namespace ParseX.MsbFirst

/-- The place of a bit in MSB-first order, and the bit of a place. -/
def index (bit : Nat) : Nat := 8 * (bit / 8) + (7 - bit % 8)

@[simp] theorem index_index (bit : Nat) : index (index bit) = bit := by
  unfold index; omega

theorem index_inj {a b : Nat} (h : index a = index b) : a = b := by
  rw [← index_index a, h, index_index]

theorem index_add_bytes (bit bytes : Nat) : index (bit + 8 * bytes) = index bit + 8 * bytes := by
  unfold index; omega

theorem index_lt_bytes {bit bytes : Nat} : index bit < 8 * bytes ↔ bit < 8 * bytes := by
  unfold index; omega

/-- After the lowest bit of a byte comes the highest bit of the next. -/
theorem index_next_of_lowest {bit : Nat} (h : bit % 8 = 0) : index (bit + 15) = index bit + 1 := by
  unfold index; omega

theorem index_next {bit : Nat} (h : bit % 8 ≠ 0) : index (bit - 1) = index bit + 1 := by
  unfold index; omega

/-- The bit after a bit. -/
def next (bit : Nat) : Nat := if bit % 8 = 0 then bit + 15 else bit - 1

theorem index_step (bit : Nat) : index (next bit) = index bit + 1 := by
  unfold next
  split
  · rename_i h; exact index_next_of_lowest h
  · rename_i h; exact index_next h

/-- `count` bits in MSB-first order. -/
def walk (start count : Nat) : List Nat :=
  (List.range count).map fun k => index (index start + k)

theorem mem_walk {start count bit : Nat} :
    bit ∈ walk start count ↔ index start ≤ index bit ∧ index bit < index start + count := by
  simp only [walk, List.mem_map, List.mem_range]
  constructor
  · rintro ⟨k, hk, rfl⟩
    rw [index_index]
    omega
  · rintro ⟨hlo, hhi⟩
    exact ⟨index bit - index start, by omega, by
      rw [show index start + (index bit - index start) = index bit by omega, index_index]⟩

theorem walk_succ (start count : Nat) :
    walk start (count + 1) = start :: walk (next start) count := by
  rw [walk, List.range_succ_eq_map, List.map_cons, List.map_map, walk, index_step]
  simp only [Nat.add_zero, index_index, List.cons.injEq, true_and]
  apply List.map_congr_left
  intro k _
  simp only [Function.comp_apply, Nat.succ_eq_add_one]
  congr 1
  omega

@[simp] theorem length_walk (start count : Nat) : (walk start count).length = count := by
  rw [walk, List.length_map, List.length_range]

/-- Which bit stands at a place of the walk. -/
theorem getElem?_walk {start count place bit : Nat} :
    (walk start count)[place]? = some bit ↔ place < count ∧ index bit = index start + place := by
  rw [walk, List.getElem?_map]
  by_cases hplace : place < count
  · rw [List.getElem?_range hplace, Option.map_some, Option.some_inj]
    refine ⟨fun h => ⟨hplace, by rw [← h, index_index]⟩, fun h => ?_⟩
    rw [← h.2, index_index]
  · rw [List.getElem?_eq_none (by rwa [List.length_range, ← Nat.not_lt])]
    exact ⟨nofun, fun h => absurd h.1 hplace⟩

/-- A walk visits no bit twice. -/
theorem nodup_walk (start count : Nat) : (walk start count).Nodup := by
  refine List.nodup_range.map fun a b h => ?_
  have hplace := index_inj h
  omega

/-- A walk ends inside so many bytes when its last bit does. -/
theorem walk_lt_bytes {start count bytes : Nat} (hcount : 0 < count) :
    (∀ bit ∈ walk start count, bit < 8 * bytes) ↔ index start + count ≤ 8 * bytes := by
  refine ⟨fun h => ?_, fun h bit hbit => ?_⟩
  · have hlast := h (index (index start + (count - 1)))
      (mem_walk.mpr ⟨by rw [index_index]; omega, by rw [index_index]; omega⟩)
    rw [index_lt_bytes] at hlast
    omega
  · rw [← index_lt_bytes]
    have := (mem_walk.mp hbit).2
    omega

/-- Shifting the start by whole bytes shifts the walk. -/
theorem walk_add_bytes (start count bytes : Nat) :
    walk (start + 8 * bytes) count = (walk start count).map (· + 8 * bytes) := by
  rw [walk, walk, List.map_map]
  refine List.map_congr_left fun k _ => ?_
  rw [Function.comp_apply, ← index_add_bytes, index_add_bytes]
  congr 1
  omega

end ParseX.MsbFirst

import Mathlib.Data.List.Basic
import Mathlib.Logic.Function.Basic

/-! # Paths and inodes

A directory leads from paths to inodes, which hold the bytes. An open file stays
with its inode when another file takes its path. -/
namespace ParseX

/-- No two paths lead to one inode, and no path to one not yet handed out. -/
structure Disk (P B : Type) where
  entry : P → Option Nat
  bytes : Nat → List B
  /-- The inodes below this one were handed out. -/
  used : Nat
  entry_inj : ∀ path other inode, entry path = some inode → entry other = some inode → path = other
  entry_lt : ∀ path inode, entry path = some inode → inode < used

namespace Disk

variable {P B : Type}

/-- A directory without files. -/
def empty : Disk P B where
  entry _ := none
  bytes _ := []
  used := 0
  entry_inj _ _ _ h := nomatch h
  entry_lt _ _ h := nomatch h

/-- What a path holds. -/
def content (disk : Disk P B) (path : P) : Option (List B) := (disk.entry path).map disk.bytes

/-- The inode that opening a path for writing gives. -/
def inodeFor (disk : Disk P B) (path : P) : Nat := (disk.entry path).getD disk.used

theorem entry_ne_inodeFor (disk : Disk P B) {path other : P} (hne : other ≠ path) :
    disk.entry other ≠ some (disk.inodeFor path) := by
  intro hother
  unfold inodeFor at hother
  cases hentry : disk.entry path with
  | none =>
    rw [hentry] at hother
    exact absurd (disk.entry_lt other _ hother) (Nat.lt_irrefl _)
  | some inode =>
    rw [hentry] at hother
    exact hne (disk.entry_inj other path inode hother hentry)

/-! ## Open files -/

section
variable [Inhabited B]

/-- The bytes after a write at an offset; a hole before it is filled up. -/
def overwrite (old : List B) (offset : Nat) (chunk : List B) : List B :=
  old.take offset ++ List.replicate (offset - old.length) default ++ chunk ++
    old.drop (offset + chunk.length)

/-- `write` on an open file. -/
def write (disk : Disk P B) (inode offset : Nat) (chunk : List B) : Disk P B :=
  { disk with
    bytes := Function.update disk.bytes inode (overwrite (disk.bytes inode) offset chunk) }

section
variable (disk : Disk P B) {inode offset : Nat} {chunk : List B}

@[simp] theorem write_entry : (disk.write inode offset chunk).entry = disk.entry :=
  rfl

@[simp] theorem write_used : (disk.write inode offset chunk).used = disk.used := rfl

@[simp] theorem write_bytes_self : (disk.write inode offset chunk).bytes inode =
    overwrite (disk.bytes inode) offset chunk := Function.update_self ..

theorem write_bytes_of_ne {other : Nat} (h : other ≠ inode) :
    (disk.write inode offset chunk).bytes other = disk.bytes other := Function.update_of_ne h ..

end

/-- Writing on at the end of what was written. -/
theorem overwrite_take (data : List B) {offset count : Nat}
    (h : offset + count ≤ data.length) :
    overwrite (data.take offset) offset ((data.drop offset).take count) =
      data.take (offset + count) := by
  have hlength : (data.take offset).length = offset := by
    rw [List.length_take]
    omega
  rw [overwrite, hlength, Nat.sub_self, List.replicate_zero, List.append_nil, List.take_take,
    Nat.min_self, @List.drop_eq_nil_of_le _ (data.take offset) _ (by omega), List.append_nil,
    List.take_add]

end

/-! ## Paths -/

variable [DecidableEq P]

/-- `open` with `O_CREAT | O_TRUNC`. -/
def truncate (disk : Disk P B) (path : P) : Disk P B where
  entry := Function.update disk.entry path (some (disk.inodeFor path))
  bytes := Function.update disk.bytes (disk.inodeFor path) []
  used := max disk.used (disk.inodeFor path + 1)
  entry_inj first second inode hfirst hsecond := by
    by_cases hf : first = path
    · by_cases hs : second = path
      · rw [hf, hs]
      · rw [hf, Function.update_self] at hfirst
        rw [Function.update_of_ne hs, ← hfirst] at hsecond
        exact absurd hsecond (disk.entry_ne_inodeFor hs)
    · rw [Function.update_of_ne hf] at hfirst
      by_cases hs : second = path
      · rw [hs, Function.update_self] at hsecond
        rw [← hsecond] at hfirst
        exact absurd hfirst (disk.entry_ne_inodeFor hf)
      · rw [Function.update_of_ne hs] at hsecond
        exact disk.entry_inj first second inode hfirst hsecond
  entry_lt other inode hother := by
    by_cases h : other = path
    · rw [h, Function.update_self] at hother
      obtain rfl := Option.some.inj hother
      omega
    · rw [Function.update_of_ne h] at hother
      have := disk.entry_lt other inode hother
      omega

/-- `rename` of a path that is there to another one. -/
def rename (disk : Disk P B) (source target : P) : Disk P B where
  entry path := if path = target then disk.entry source
    else if path = source then none else disk.entry path
  bytes := disk.bytes
  used := disk.used
  entry_inj first second inode hfirst hsecond := by
    have hinj := disk.entry_inj
    split_ifs at hfirst hsecond with h1 h2 h3 h4 h5 h6
    · rw [h1, h2]
    · exact absurd (hinj _ _ _ hsecond hfirst) h3
    · exact absurd (hinj _ _ _ hfirst hsecond) h4
    · exact hinj _ _ _ hfirst hsecond
  entry_lt path inode hpath := by
    split_ifs at hpath
    · exact disk.entry_lt _ _ hpath
    · exact disk.entry_lt _ _ hpath

/-- `remove`. -/
def remove (disk : Disk P B) (path : P) : Disk P B where
  entry := Function.update disk.entry path none
  bytes := disk.bytes
  used := disk.used
  entry_inj first second inode hfirst hsecond := by
    by_cases hf : first = path
    · rw [hf, Function.update_self] at hfirst
      cases hfirst
    · by_cases hs : second = path
      · rw [hs, Function.update_self] at hsecond
        cases hsecond
      · rw [Function.update_of_ne hf] at hfirst
        rw [Function.update_of_ne hs] at hsecond
        exact disk.entry_inj first second inode hfirst hsecond
  entry_lt other inode hother := by
    by_cases h : other = path
    · rw [h, Function.update_self] at hother
      cases hother
    · rw [Function.update_of_ne h] at hother
      exact disk.entry_lt other inode hother

section
variable (disk : Disk P B) {path other source target : P} {inode : Nat}

@[simp] theorem truncate_entry_self :
    (disk.truncate path).entry path = some (disk.inodeFor path) := Function.update_self ..

@[simp] theorem truncate_entry_of_ne (h : other ≠ path) :
    (disk.truncate path).entry other = disk.entry other := Function.update_of_ne h ..

@[simp] theorem truncate_bytes_self : (disk.truncate path).bytes (disk.inodeFor path) = [] :=
  Function.update_self ..

theorem truncate_bytes_of_ne (h : inode ≠ disk.inodeFor path) :
    (disk.truncate path).bytes inode = disk.bytes inode := Function.update_of_ne h ..

theorem used_le_truncate : disk.used ≤ (disk.truncate path).used := Nat.le_max_left ..

theorem inodeFor_lt_truncate : disk.inodeFor path < (disk.truncate path).used :=
  Nat.lt_of_lt_of_le (Nat.lt_succ_self _) (Nat.le_max_right ..)

@[simp] theorem rename_entry_target : (disk.rename source target).entry target =
    disk.entry source := if_pos rfl

theorem rename_entry_source (h : source ≠ target) :
    (disk.rename source target).entry source = none :=
  (if_neg h).trans (if_pos rfl)

theorem rename_entry_of_ne (htarget : path ≠ target) (hsource : path ≠ source) :
    (disk.rename source target).entry path = disk.entry path :=
  (if_neg htarget).trans (if_neg hsource)

@[simp] theorem rename_bytes : (disk.rename source target).bytes = disk.bytes := rfl

@[simp] theorem rename_used : (disk.rename source target).used = disk.used := rfl

@[simp] theorem remove_entry_self : (disk.remove path).entry path = none := Function.update_self ..

@[simp] theorem remove_entry_of_ne (h : other ≠ path) :
    (disk.remove path).entry other = disk.entry other := Function.update_of_ne h ..

@[simp] theorem remove_bytes : (disk.remove path).bytes = disk.bytes := rfl

@[simp] theorem remove_used : (disk.remove path).used = disk.used := rfl

/-- A path that a removal leaves was there before. -/
theorem entry_of_remove (h : (disk.remove path).entry other = some inode) :
    disk.entry other = some inode := by
  by_cases hne : other = path
  · rw [hne, remove_entry_self] at h
    cases h
  · rwa [remove_entry_of_ne _ hne] at h

end

end Disk

end ParseX

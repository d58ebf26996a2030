import Mathlib.Data.List.Basic

/-!
Byte-addressed memory as a function, with block reads and block writes. The
lemmas say what a read sees after a write to a later or to the same block, and
how a block read splits.
-/
namespace ByteMemory

abbrev Bytes := List UInt8

abbrev Memory := Nat → UInt8

/-- The block of `n` bytes at an address. -/
def read (m : Memory) (start n : Nat) : Bytes := (List.range n).map fun i => m (start + i)

/-- Copy a block into memory at an address. -/
def write (m : Memory) (start : Nat) (block : Bytes) : Memory := fun i =>
  if start ≤ i then (block[i - start]?).getD (m i) else m i

@[simp] theorem read_length (m : Memory) (start n : Nat) : (read m start n).length = n := by
  simp [read]

@[simp] theorem read_zero (m : Memory) (start : Nat) : read m start 0 = [] := rfl

theorem read_add (m : Memory) (start n k : Nat) :
    read m start (n + k) = read m start n ++ read m (start + n) k := by
  simp [read, List.range_add, Nat.add_assoc, Function.comp_def]

theorem read_drop (m : Memory) (start n k : Nat) (h : k ≤ n) :
    (read m start n).drop k = read m (start + k) (n - k) := by
  obtain ⟨d, rfl⟩ : ∃ d, n = k + d := ⟨n - k, by omega⟩
  rw [read_add, Nat.add_sub_cancel_left]
  exact List.drop_left' (read_length m start k)

theorem read_take (m : Memory) (start n k : Nat) (h : k ≤ n) :
    (read m start n).take k = read m start k := by
  obtain ⟨d, rfl⟩ : ∃ d, n = k + d := ⟨n - k, by omega⟩
  rw [read_add]
  exact List.take_left' (read_length m start k)

/-- A write leaves every earlier block as it was. -/
theorem read_write_before (m : Memory) (start at' n : Nat) (block : Bytes) (h : start + n ≤ at') :
    read (write m at' block) start n = read m start n := by
  unfold read
  apply List.map_congr_left
  intro i hi
  have hi' : i < n := List.mem_range.mp hi
  simp [write, show ¬ at' ≤ start + i by omega]

/-- A write is read back as written. -/
theorem read_write_same (m : Memory) (start : Nat) (block : Bytes) :
    read (write m start block) start block.length = block := by
  apply List.ext_getElem
  · simp
  · intro i h₁ h₂
    simp [read, write, h₂]

/-- The first bytes of a written block are the first bytes that were written. -/
theorem read_write_prefix (m : Memory) (start n : Nat) (block : Bytes) (h : n ≤ block.length) :
    read (write m start block) start n = block.take n := by
  rw [← read_take _ _ _ _ h, read_write_same]

end ByteMemory

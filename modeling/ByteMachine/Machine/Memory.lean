/-!
# Memory

A fixed number of byte cells addressed from zero. A write is seen at its address and nowhere
else (`get?_set?_same`, `get?_set?_ne`), and a load covers the first cells with its image.
-/

set_option autoImplicit false

namespace ByteMachine

/-- A fixed-size array of byte cells. -/
structure Memory where
  cells : Array UInt8
deriving DecidableEq, Repr

namespace Memory

/-- A memory of `capacity` cells, all zero. -/
def new (capacity : Nat) : Memory := ⟨Array.replicate capacity 0⟩

def capacity (memory : Memory) : Nat := memory.cells.size

def get? (memory : Memory) (address : Nat) : Option UInt8 := memory.cells[address]?

/-- Memory with one cell changed, if memory has it. -/
def set? (memory : Memory) (address : Nat) (value : UInt8) : Option Memory :=
  if h : address < memory.cells.size then some ⟨memory.cells.set address value h⟩ else none

/-- The `length` cells from `address` on, if all of them are in memory. -/
def slice? (memory : Memory) (address length : Nat) : Option (List UInt8) :=
  if address + length ≤ memory.capacity then
    some (memory.cells.extract address (address + length)).toList
  else none

/-- Memory with an image copied to its first cells. An image longer than memory is refused
with the first address past the end, and then nothing is written. -/
def load (memory : Memory) (image : List UInt8) : Except Nat Memory :=
  if image.length ≤ memory.capacity then
    .ok ⟨image.toArray ++ memory.cells.extract image.length memory.cells.size⟩
  else .error memory.capacity

/-- The number of cells in a row when memory is shown as a grid. -/
def rowWidth : Nat := 16

/-- The number of rows of the grid; the last one may be short. -/
def rows (memory : Memory) : Nat := (memory.capacity + rowWidth - 1) / rowWidth

/-- The capacity in words: whole megabytes of a million cells from 1,024,000 cells on, whole
kilobytes of a thousand cells from 1000 cells on, else cells. -/
def describe (memory : Memory) : String :=
  let size := memory.capacity
  if 1024000 ≤ size then toString (size / 1000000) ++ " megabyte(s)"
  else if 1000 ≤ size then toString (size / 1000) ++ " kilobyte(s)"
  else toString size ++ " byte(s)"

/-- The cells that are not zero, with their addresses, in address order. -/
def occupied (memory : Memory) : List (Nat × UInt8) :=
  memory.cells.toList.zipIdx.filterMap fun (value, address) =>
    if value = 0 then none else some (address, value)

@[simp] theorem capacity_new (capacity : Nat) : (new capacity).capacity = capacity := by
  simp [new, Memory.capacity]

theorem get?_new (capacity address : Nat) :
    (new capacity).get? address = if address < capacity then some 0 else none := by
  simp [new, get?, Array.getElem?_replicate]

theorem get?_isSome_iff (memory : Memory) (address : Nat) :
    (memory.get? address).isSome ↔ address < memory.capacity := by
  simp [get?, Memory.capacity]

theorem set?_isSome_iff (memory : Memory) (address : Nat) (value : UInt8) :
    (memory.set? address value).isSome ↔ address < memory.capacity := by
  unfold set?
  split <;> simp_all [Memory.capacity]

theorem capacity_set? {memory updated : Memory} {address : Nat} {value : UInt8}
    (h : memory.set? address value = some updated) : updated.capacity = memory.capacity := by
  unfold set? at h
  split at h
  · cases h
    simp [Memory.capacity]
  · cases h

theorem get?_set?_same {memory updated : Memory} {address : Nat} {value : UInt8}
    (h : memory.set? address value = some updated) : updated.get? address = some value := by
  unfold set? at h
  split at h
  · cases h
    simp_all [get?]
  · cases h

theorem get?_set?_ne {memory updated : Memory} {address other : Nat} {value : UInt8}
    (h : memory.set? address value = some updated) (hne : other ≠ address) :
    updated.get? other = memory.get? other := by
  unfold set? at h
  split at h
  · cases h
    simp [get?, Ne.symm hne]
  · cases h

theorem slice?_isSome_iff (memory : Memory) (address length : Nat) :
    (memory.slice? address length).isSome ↔ address + length ≤ memory.capacity := by
  unfold slice?
  split <;> simp_all

theorem getElem?_slice? {memory : Memory} {address length : Nat} {bytes : List UInt8}
    (h : memory.slice? address length = some bytes) (i : Nat) :
    bytes[i]? = if i < length then memory.get? (address + i) else none := by
  unfold slice? at h
  split at h
  · cases h
    rename_i hle
    simp only [Memory.capacity] at hle
    have hmin : min (address + length) memory.cells.size - address = length := by omega
    simp only [Array.getElem?_toList, Array.getElem?_extract, get?, hmin]
  · cases h

theorem load_eq_error_iff (memory : Memory) (image : List UInt8) (address : Nat) :
    memory.load image = .error address ↔
      memory.capacity < image.length ∧ address = memory.capacity := by
  unfold load
  split
  · simp only [reduceCtorEq, false_iff, not_and]
    omega
  · simp only [Except.error.injEq]
    omega

theorem capacity_load {memory loaded : Memory} {image : List UInt8}
    (h : memory.load image = .ok loaded) : loaded.capacity = memory.capacity := by
  unfold load at h
  split at h
  · cases h
    simp only [Memory.capacity] at *
    simp only [Array.size_append, List.size_toArray, Array.size_extract, Nat.min_self]
    omega
  · cases h

theorem get?_load {memory loaded : Memory} {image : List UInt8}
    (h : memory.load image = .ok loaded) (address : Nat) :
    loaded.get? address =
      if address < image.length then image[address]? else memory.get? address := by
  unfold load at h
  split at h
  · cases h
    simp only [get?]
    split
    · rw [Array.getElem?_append_left (by simpa using ‹address < image.length›)]
      simp
    · rw [Array.getElem?_append_right (by simp; omega)]
      simp only [List.size_toArray, Array.getElem?_extract, Nat.min_self]
      split
      · congr 1
        omega
      · rw [eq_comm, Array.getElem?_eq_none]
        omega
  · cases h

end Memory

end ByteMachine

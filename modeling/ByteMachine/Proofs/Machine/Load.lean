import ByteMachine.Machine.Basic
/-!
# Memory bounds and loading

Memory accesses succeed exactly inside the capacity. Loading a program fails exactly when its
image is longer than memory, and otherwise resets the machine around the program.
-/

set_option autoImplicit false

namespace ByteMachine.Memory

theorem access_exact_at_bounds (memory : Memory) (address length : Nat) (value : UInt8)
    (image : List UInt8) :
    ((memory.slice? address length).isSome ↔ address + length ≤ memory.capacity) ∧
      (∀ bytes, memory.slice? address length = some bytes →
        ∀ i, bytes[i]? = if i < length then memory.get? (address + i) else none) ∧
      ((memory.get? address).isSome ↔ address < memory.capacity) ∧
      ((memory.set? address value).isSome ↔ address < memory.capacity) ∧
      (∀ stop, memory.load image = .error stop ↔
        memory.capacity < image.length ∧ stop = memory.capacity) ∧
      (∀ loaded, memory.load image = .ok loaded →
        loaded.capacity = memory.capacity ∧
          ∀ a, loaded.get? a = if a < image.length then image[a]? else memory.get? a) :=
  ⟨slice?_isSome_iff memory address length,
    fun _ h => getElem?_slice? h,
    get?_isSome_iff memory address,
    set?_isSome_iff memory address value,
    load_eq_error_iff memory image,
    fun _ h => ⟨capacity_load h, get?_load h⟩⟩

end ByteMachine.Memory

namespace ByteMachine.Machine

theorem count_new_count (registers : Registers) :
    (Registers.new registers.count).count = registers.count := by
  rw [Registers.count_new, Nat.min_eq_left registers.count_le_limit]

theorem load_isOk_iff (machine : Machine) (program : Program) :
    (∃ loaded, machine.load program = .ok loaded) ↔
      program.bytes.length ≤ machine.memory.capacity := by
  constructor
  · rintro ⟨loaded, h⟩
    refine Nat.le_of_not_lt fun hlt => ?_
    have herr := (load_eq_error_iff machine program _).mpr ⟨hlt, rfl⟩
    rw [h] at herr
    cases herr
  · intro hle
    cases h : machine.load program with
    | ok loaded => exact ⟨loaded, rfl⟩
    | error fault => exact absurd ((load_eq_error_iff machine program fault).mp h).1 (by omega)

theorem eq_of_load {machine loaded : Machine} {program : Program}
    (loadedOk : machine.load program = .ok loaded) :
    ∃ memory, (Memory.new machine.memory.capacity).load program.bytes = .ok memory ∧
      loaded =
        { memory
          registers := Registers.new machine.registers.count
          flags := {}
          pc := program.start.toNat
          start := program.start.toNat
          status := .running } := by
  unfold load at loadedOk
  split at loadedOk
  · rename_i memory loadedMemory
    cases loadedOk
    exact ⟨memory, loadedMemory, rfl⟩
  · cases loadedOk

theorem get?_memory_load {machine loaded : Machine} {program : Program}
    (loadedOk : machine.load program = .ok loaded) (address : Nat) :
    loaded.memory.get? address =
      if address < program.bytes.length then program.bytes[address]?
      else if address < machine.memory.capacity then some 0 else none := by
  obtain ⟨memory, loadedMemory, rfl⟩ := eq_of_load loadedOk
  rw [Memory.get?_load loadedMemory, Memory.get?_new]

theorem get?_registers_load {machine loaded : Machine} {program : Program}
    (loadedOk : machine.load program = .ok loaded) (register : Register) :
    loaded.registers.get? register =
      if register.index.toNat < machine.registers.count then some 0 else none := by
  obtain ⟨memory, loadedMemory, rfl⟩ := eq_of_load loadedOk
  rw [Registers.get?_new, Nat.min_eq_left machine.registers.count_le_limit]

theorem load_resets_or_refuses (machine : Machine) (program : Program) :
    (∀ fault, machine.load program = .error fault ↔
        machine.memory.capacity < program.bytes.length ∧
          fault = .outOfBounds program.start.toNat (.memory machine.memory.capacity)) ∧
      ((∃ loaded, machine.load program = .ok loaded) ↔
        program.bytes.length ≤ machine.memory.capacity) ∧
      (∀ loaded, machine.load program = .ok loaded →
        loaded.memory.capacity = machine.memory.capacity ∧
          (∀ address, loaded.memory.get? address =
            if address < program.bytes.length then program.bytes[address]?
            else if address < machine.memory.capacity then some 0 else none) ∧
          loaded.registers.count = machine.registers.count ∧
          (∀ register, loaded.registers.get? register =
            if register.index.toNat < machine.registers.count then some 0 else none) ∧
          loaded.flags = {} ∧ loaded.pc = program.start.toNat ∧
          loaded.start = program.start.toNat ∧ loaded.status = .running) := by
  refine ⟨load_eq_error_iff machine program, load_isOk_iff machine program, ?_⟩
  intro loaded loadedOk
  refine ⟨?_, get?_memory_load loadedOk, ?_, get?_registers_load loadedOk, ?_⟩
  all_goals obtain ⟨memory, loadedMemory, rfl⟩ := eq_of_load loadedOk
  · have capacity := Memory.capacity_load loadedMemory
    rwa [Memory.capacity_new] at capacity
  · exact count_new_count machine.registers
  · exact ⟨rfl, rfl, rfl, rfl⟩

end ByteMachine.Machine

import ByteMachine.Machine.Run
/-!
# Runs stop where the steps stop

A stopped machine is final, and a run to a stop is the step function iterated until the machine
stops, paced or not (`finish_iterates_step_to_stop`).
-/

set_option autoImplicit false

namespace ByteMachine.Machine

/-! ## What a stopped machine reports -/

theorem outcome_eq_error_iff (machine : Machine) (fault : Fault) :
    machine.outcome = .error fault ↔ machine.status = .faulted fault := by
  unfold outcome
  split <;> simp_all

theorem outcome_eq_ok_iff {machine : Machine} (stopped : machine.isRunning = false) :
    machine.outcome = .ok () ↔ machine.status = .halted := by
  unfold isRunning at stopped
  unfold outcome
  split <;> simp_all

theorem running_of_outcome_ne_ok {machine : Machine} {fault : Fault}
    (faulted : machine.outcome = .error fault) : machine.isRunning = false := by
  rw [outcome_eq_error_iff] at faulted
  simp [isRunning, faulted]

/-! ## One turn of the loop -/

theorem finish_of_not_running (budget : Nat) {machine : Machine}
    (stopped : machine.isRunning = false) : finish budget machine = some (machine.outcome, machine) := by
  rw [finish.eq_def, if_neg (by simp [stopped]), step_of_not_running stopped]

theorem finishPaced_of_not_running (clock : Clock) (budget : Nat) {machine : Machine}
    (stopped : machine.isRunning = false) :
    finishPaced clock budget machine = some (machine.outcome, machine, []) := by
  rw [finishPaced.eq_def, if_neg (by simp [stopped]), step_of_not_running stopped]

theorem finish_succ_of_ok (budget : Nat) {machine : Machine} (running : machine.isRunning = true)
    (reported : machine.step.outcome = .ok ()) :
    finish (budget + 1) machine = finish budget machine.step := by
  rw [finish, if_pos running]
  simp only [reported]

theorem finish_succ_of_error (budget : Nat) {machine : Machine} {fault : Fault}
    (running : machine.isRunning = true) (reported : machine.step.outcome = .error fault) :
    finish (budget + 1) machine = some (.error fault, machine.step) := by
  rw [finish, if_pos running]
  simp only [reported]

/-! ## Whole runs -/

theorem finish_of_repeat_step {machine : Machine} {steps : Nat}
    (running : ∀ k < steps, (Nat.repeat step k machine).isRunning = true)
    (stopped : (Nat.repeat step steps machine).isRunning = false) {budget : Nat}
    (enough : steps ≤ budget) :
    finish budget machine =
      some ((Nat.repeat step steps machine).outcome, Nat.repeat step steps machine) := by
  induction steps generalizing machine budget with
  | zero => exact finish_of_not_running budget stopped
  | succ steps ih =>
    obtain ⟨budget, rfl⟩ : ∃ rest, budget = rest + 1 := ⟨budget - 1, by omega⟩
    have first : machine.isRunning = true := running 0 (by omega)
    rw [repeat_step_succ] at stopped ⊢
    cases reported : machine.step.outcome with
    | ok =>
      rw [finish_succ_of_ok budget first reported]
      refine ih (fun k within => ?_) stopped (by omega)
      rw [← repeat_step_succ]
      exact running (k + 1) (by omega)
    | error fault =>
      rw [finish_succ_of_error budget first reported]
      cases steps with
      | zero => simp [Nat.repeat, reported]
      | succ steps =>
        have next := running 1 (by omega)
        rw [repeat_step_succ] at next
        simp [Nat.repeat, running_of_outcome_ne_ok reported] at next

theorem exists_repeat_of_finish {budget : Nat} {machine stopped : Machine}
    {outcome : Except Fault Unit} (finished : finish budget machine = some (outcome, stopped)) :
    ∃ steps, stopped = Nat.repeat step steps machine := by
  induction budget generalizing machine with
  | zero =>
    by_cases running : machine.isRunning = true
    · simp [finish, running] at finished
    · rw [finish_of_not_running 0 (Bool.eq_false_iff.mpr running)] at finished
      cases finished
      exact ⟨0, rfl⟩
  | succ budget ih =>
    by_cases running : machine.isRunning = true
    · cases reported : machine.step.outcome with
      | ok =>
        rw [finish_succ_of_ok budget running reported] at finished
        obtain ⟨steps, rfl⟩ := ih finished
        exact ⟨steps + 1, (repeat_step_succ steps machine).symm⟩
      | error fault =>
        rw [finish_succ_of_error budget running reported] at finished
        cases finished
        exact ⟨1, rfl⟩
    · rw [finish_of_not_running _ (Bool.eq_false_iff.mpr running)] at finished
      cases finished
      exact ⟨0, rfl⟩

theorem finishPaced_forget_waits (clock : Clock) (budget : Nat) (machine : Machine) :
    (finishPaced clock budget machine).map (fun paced => (paced.1, paced.2.1)) =
      finish budget machine := by
  induction budget generalizing machine with
  | zero =>
    by_cases running : machine.isRunning = true
    · simp [finishPaced, finish, running]
    · have stopped := Bool.eq_false_iff.mpr running
      rw [finishPaced_of_not_running clock 0 stopped, finish_of_not_running 0 stopped]
      rfl
  | succ budget ih =>
    by_cases running : machine.isRunning = true
    · cases reported : machine.step.outcome with
      | ok =>
        rw [finish_succ_of_ok budget running reported, ← ih machine.step, finishPaced,
          if_pos running]
        simp only [reported, Option.map_map]
        rfl
      | error fault =>
        rw [finish_succ_of_error budget running reported, finishPaced, if_pos running]
        simp only [reported, Option.map_some]
    · have stopped := Bool.eq_false_iff.mpr running
      rw [finishPaced_of_not_running clock _ stopped, finish_of_not_running _ stopped]
      rfl

/-- Run is step iterated to a stop, and stopped machines are final. A halted machine does not
change under a step or a run, and both report success; a faulted one does not change either, and
both report its fault. When `steps` steps keep a machine running before the last of them and
leave it stopped, a run with a budget of at least `steps` returns the machine those steps reach,
reporting success exactly if it halted and a fault exactly if it stopped on it. A paced run
returns what a run returns, with any clock. -/
theorem finish_iterates_step_to_stop (machine : Machine) :
    (machine.status = .halted →
      machine.step = machine ∧ machine.step.outcome = .ok () ∧
        ∀ budget, finish budget machine = some (.ok (), machine)) ∧
    (∀ fault, machine.status = .faulted fault →
      machine.step = machine ∧ machine.step.outcome = .error fault ∧
        ∀ budget, finish budget machine = some (.error fault, machine)) ∧
    (∀ steps, (∀ k < steps, (Nat.repeat step k machine).isRunning = true) →
      (Nat.repeat step steps machine).isRunning = false →
      ∀ budget, steps ≤ budget →
        ∃ outcome, finish budget machine = some (outcome, Nat.repeat step steps machine) ∧
          (outcome = .ok () ↔ (Nat.repeat step steps machine).status = .halted) ∧
          ∀ fault, outcome = .error fault ↔
            (Nat.repeat step steps machine).status = .faulted fault) ∧
    ∀ clock budget, (finishPaced clock budget machine).map (fun paced => (paced.1, paced.2.1)) =
      finish budget machine := by
  refine ⟨fun halted => ?_, fun fault faulted => ?_, fun steps running stopped budget enough => ?_,
    fun clock budget => finishPaced_forget_waits clock budget machine⟩
  · have stopped : machine.isRunning = false := by simp [isRunning, halted]
    have reported : machine.outcome = .ok () := (outcome_eq_ok_iff stopped).mpr halted
    refine ⟨step_of_not_running stopped, ?_, fun budget => ?_⟩
    · rw [step_of_not_running stopped, reported]
    · rw [finish_of_not_running budget stopped, reported]
  · have stopped : machine.isRunning = false := by simp [isRunning, faulted]
    have reported : machine.outcome = .error fault := (outcome_eq_error_iff machine fault).mpr faulted
    refine ⟨step_of_not_running stopped, ?_, fun budget => ?_⟩
    · rw [step_of_not_running stopped, reported]
    · rw [finish_of_not_running budget stopped, reported]
  · exact ⟨_, finish_of_repeat_step running stopped enough, outcome_eq_ok_iff stopped,
      outcome_eq_error_iff _⟩

/-- A running machine with `noop` then `halt` in memory. -/
def noopThenHalt : Machine where
  memory := ⟨#[0x06, 0x0d]⟩
  registers := Registers.new 1
  flags := {}
  pc := 0
  start := 0
  status := .running

theorem finish_iterates_step_to_stop_on_noop_then_halt :
    (Machine.new {}).status = .halted ∧
      ((Machine.new {}).step = Machine.new {} ∧ (Machine.new {}).step.outcome = .ok () ∧
        ∀ budget, finish budget (Machine.new {}) = some (.ok (), Machine.new {})) ∧
    { noopThenHalt with status := .faulted (.divisionByZero 0) }.status =
        .faulted (.divisionByZero 0) ∧
      ({ noopThenHalt with status := .faulted (.divisionByZero 0) }.step =
          { noopThenHalt with status := .faulted (.divisionByZero 0) } ∧
        { noopThenHalt with status := .faulted (.divisionByZero 0) }.step.outcome =
          .error (.divisionByZero 0) ∧
        ∀ budget, finish budget { noopThenHalt with status := .faulted (.divisionByZero 0) } =
          some (.error (.divisionByZero 0),
            { noopThenHalt with status := .faulted (.divisionByZero 0) })) ∧
    (∀ k < 2, (Nat.repeat step k noopThenHalt).isRunning = true) ∧
    (Nat.repeat step 2 noopThenHalt).isRunning = false ∧
    ∃ outcome, finish 2 noopThenHalt = some (outcome, Nat.repeat step 2 noopThenHalt) ∧
      (outcome = .ok () ↔ (Nat.repeat step 2 noopThenHalt).status = .halted) ∧
      ∀ fault, outcome = .error fault ↔
        (Nat.repeat step 2 noopThenHalt).status = .faulted fault := by
  have running : ∀ k < 2, (Nat.repeat step k noopThenHalt).isRunning = true := by decide
  have stopped : (Nat.repeat step 2 noopThenHalt).isRunning = false := by decide
  refine ⟨rfl, (finish_iterates_step_to_stop (Machine.new {})).1 rfl, rfl,
    (finish_iterates_step_to_stop _).2.1 _ rfl, running, stopped, ?_⟩
  exact (finish_iterates_step_to_stop noopThenHalt).2.2.1 2 running stopped 2 (Nat.le_refl 2)

end ByteMachine.Machine

import ByteMachine.Machine.Step
import ByteMachine.Clock
/-!
# Runs

A run steps the machine while it runs, up to a budget of steps; a run to a stop also reports
how the machine stopped, and a paced run waits a tick after each step. A run is the step
function iterated (`run_eq_repeat`) and runs compose (`run_add`).
-/

set_option autoImplicit false

namespace ByteMachine

namespace Machine

/-- Steps while the machine runs, at most `budget` times. -/
def run : Nat → Machine → Machine
  | 0, machine => machine
  | budget + 1, machine => if machine.isRunning then run budget machine.step else machine

/-- The machines after each step while the machine runs, at most `budget` of them. -/
def trace : Nat → Machine → List Machine
  | 0, _ => []
  | budget + 1, machine =>
    if machine.isRunning then machine.step :: trace budget machine.step else []

/-- Steps the machine until it stops and reports how, as `step` reports: `none` if the machine
still runs after `budget` steps, a run that has not returned. -/
def finish (budget : Nat) (machine : Machine) : Option (Except Fault Unit × Machine) :=
  if machine.isRunning then
    match budget with
    | 0 => none
    | budget + 1 =>
      match machine.step.outcome with
      | .ok () => finish budget machine.step
      | .error fault => some (.error fault, machine.step)
  else some (machine.step.outcome, machine.step)

/-- As `finish`, waiting one tick of the clock after every step that the machine takes while it
runs and that reports no fault. The waits are listed in nanoseconds, in the order they are
made. -/
def finishPaced (clock : Clock) (budget : Nat) (machine : Machine) :
    Option (Except Fault Unit × Machine × List Nat) :=
  if machine.isRunning then
    match budget with
    | 0 => none
    | budget + 1 =>
      match machine.step.outcome with
      | .ok () =>
        (finishPaced clock budget machine.step).map fun (outcome, stopped, waits) =>
          (outcome, stopped, clock.tickNanos :: waits)
      | .error fault => some (.error fault, machine.step, [])
  else some (machine.step.outcome, machine.step, [])

theorem repeat_step_succ (steps : Nat) (machine : Machine) :
    Nat.repeat step (steps + 1) machine = Nat.repeat step steps machine.step := by
  induction steps with
  | zero => rfl
  | succ steps ih => rw [Nat.repeat, ih, Nat.repeat]

theorem run_of_not_running (budget : Nat) {machine : Machine} (h : machine.isRunning = false) :
    run budget machine = machine := by
  cases budget <;> simp [run, h]

theorem run_succ (budget : Nat) (machine : Machine) :
    run (budget + 1) machine = run budget machine.step := by
  by_cases h : machine.isRunning
  · simp [run, h]
  · have hstopped := Bool.eq_false_iff.mpr h
    simp [run, h, step_of_not_running hstopped, run_of_not_running budget hstopped]

theorem run_eq_repeat (budget : Nat) (machine : Machine) :
    run budget machine = Nat.repeat step budget machine := by
  induction budget generalizing machine with
  | zero => rfl
  | succ budget ih =>
    rw [run_succ, ih, repeat_step_succ]

theorem run_add (m n : Nat) (machine : Machine) :
    run (m + n) machine = run n (run m machine) := by
  induction m generalizing machine with
  | zero => simp [run]
  | succ m ih =>
    rw [Nat.add_right_comm]
    by_cases h : machine.isRunning
    · simp [run, h, ih]
    · simp [run, h, run_of_not_running n (Bool.eq_false_iff.mpr h)]

theorem getLast?_trace (budget : Nat) (machine : Machine) :
    ((trace budget machine).getLast?).getD machine = run budget machine := by
  induction budget generalizing machine with
  | zero => rfl
  | succ budget ih =>
    by_cases h : machine.isRunning
    · simp only [trace, h, if_true, run]
      cases hrest : trace budget machine.step with
      | nil =>
        rw [← ih, hrest]
        rfl
      | cons first rest =>
        rw [← ih, hrest]
        simp [List.getLast?_cons]
    · simp [trace, run, h]

end Machine

end ByteMachine

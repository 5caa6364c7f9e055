/-!
# Schedules

Tasks that share a state run under a virtual clock. A task that can go on is ready; ready tasks take
their turns in the order in which they became ready, each until it has to wait. The clock stands
still while a task is ready, and then jumps to the next time that a task waits for.

* `System` says what the tasks are and what their steps do. Nothing in it depends on the order of
  the turns, so a run of steps in any order is a run of the system too.
* `Run.settle` lets all ready tasks take their turns; `Run.advance` moves the clock.
-/

namespace ChangeFeed.Simulation

/-- Tasks that share a state. -/
structure System (σ τ : Type) where
  /-- The tasks, in the order in which one cause makes them ready. -/
  tasks : σ → List τ
  /-- A step of a task at a time; none if the task waits. -/
  step? : σ → Nat → τ → Option σ
  /-- The times that tasks wait for. -/
  alarms : σ → List Nat

/-- A state at a time, with the tasks that are ready. -/
structure Run (σ τ : Type) where
  now : Nat
  state : σ
  ready : List τ
  deriving Inhabited

namespace Run

variable {σ τ : Type} [DecidableEq τ]

/-- A run that begins at time 0. -/
def start (state : σ) : Run σ τ := ⟨0, state, []⟩

def change (r : Run σ τ) (f : σ → σ) : Run σ τ := { r with state := f r.state }

/-- The steps of one task until it waits. -/
def turn (system : System σ τ) (now : Nat) (task : τ) : Nat → σ → σ
  | 0, s => s
  | fuel + 1, s =>
    match system.step? s now task with
    | some s => turn system now task fuel s
    | none => s

/-- Makes every task ready that can go on. -/
def wake (system : System σ τ) (r : Run σ τ) : Run σ τ :=
  let more := (system.tasks r.state).filter fun task =>
    task ∉ r.ready && (system.step? r.state r.now task).isSome
  { r with ready := r.ready ++ more }

/-- The greatest number of steps of one turn. -/
def turnLimit : Nat := 100000

/-- Lets ready tasks take their turns until all tasks wait. -/
def settle (system : System σ τ) : Nat → Run σ τ → Run σ τ
  | 0, r => r
  | fuel + 1, r =>
    let r := r.wake system
    match r.ready with
    | [] => r
    | task :: ready =>
      settle system fuel
        { r with state := turn system r.now task turnLimit r.state, ready }

/-- The greatest number of turns at one time. -/
def settleLimit : Nat := 100000

/-- The next time that a task waits for. -/
def nextAlarm (system : System σ τ) (r : Run σ τ) : Option Nat :=
  ((system.alarms r.state).filter (r.now < ·)).min?

/-- Moves the clock, with a turn for every task that can go on at each time on the way. -/
def advanceTo (system : System σ τ) (target : Nat) : Nat → Run σ τ → Run σ τ
  | 0, r => r
  | fuel + 1, r =>
    let r := r.settle system settleLimit
    match r.nextAlarm system with
    | some time =>
      if time ≤ target then advanceTo system target fuel { r with now := time }
      else { r with now := target }
    | none => { r with now := target }

/-- The greatest number of times on the way of the clock. -/
def advanceLimit : Nat := 1000000

/-- Moves the clock by some milliseconds. -/
def advance (system : System σ τ) (r : Run σ τ) (millis : Nat) : Run σ τ :=
  (r.advanceTo system (r.now + millis) advanceLimit).settle system settleLimit

/-- Lets time pass until a condition holds, at the latest until the given time. -/
def await (system : System σ τ) (holds : σ → Bool) (latest : Nat) : Nat → Run σ τ → Run σ τ
  | 0, r => r
  | fuel + 1, r =>
    let r := r.settle system settleLimit
    if holds r.state then r
    else
      match r.nextAlarm system with
      | some time =>
        if time ≤ latest then await system holds latest fuel { r with now := time }
        else { r with now := latest }
      | none => { r with now := max r.now latest }

end Run

end ChangeFeed.Simulation

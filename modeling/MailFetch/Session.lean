import MailFetch.Scheduler.Dump
import MailFetch.Scheduler.Perform

/-! # Sessions

A session is a scheduler at work: its state and the tasks that take turns on it. Tasks go on in
the order in which they can; each goes on until it has to wait. Rounds and reviews are let in one
at a time, in the order in which they came. The clock stands still but for `advance`, which stops
at every alarm and every end of an idle wait on its way.

* `Session.step` is one turn of the session, `Session.run` all that can happen while the clock
  stands still.
* `Session.call` runs a task and gives its answer. -/

namespace MailFetch

/-- Something that can go on. -/
inductive Ready
  | task (id : Nat)
  /-- The watchdog's alarm. -/
  | alarm
  /-- The alarm of a second watchdog. -/
  | secondAlarm
deriving DecidableEq

/-- A task: its number and the errands that are before it. -/
structure Task where
  id : Nat
  errands : List Errand
deriving DecidableEq

/-- **A scheduler with its tasks.** -/
structure Session where
  setup : Setup := {}
  state : State := {}
  /-- The tasks, in the order in which they last had to wait. -/
  tasks : List Task := []
  nextTask : Nat := 0
  ready : List Ready := []
  /-- The tasks that wait to hold a round or a review, in the order in which they came. -/
  line : List Nat := []
  /-- The alarm of a second watchdog. -/
  second : Option Alarm := none
  /-- The numbers of the worker and of the main loop, once they have been started. -/
  started : Option (Nat × Nat) := none
  /-- Whether nobody but its own tasks holds on to the scheduler. -/
  released : Bool := false
  answers : List (Nat × Answer) := []
deriving Inhabited

namespace Session

/-- A session over a world. -/
def ofWorld (setup : Setup) (w : World) : Session := { setup := setup, state := { world := w } }

/-- The time at which an alarm goes off: timers count whole milliseconds. -/
def dueAt (a : Alarm) : Nat := (a.deadline + (millis 1 - 1)) / millis 1 * millis 1

/-- Whether an alarm has to go off. -/
def isDue (s : Session) : Option Alarm → Bool
  | some a => dueAt a ≤ s.state.world.now
  | none => false

/-- Whether a task can do an errand now. -/
def canGo (s : Session) (id : Nat) (e : Errand) : Bool :=
  !e.isHeldUp s.state && (!e.needsRound || s.line.head?.all (· == id))

/-- Whether a task that is not ready could go on. -/
def isWoken (s : Session) (t : Task) : Bool :=
  !s.ready.contains (.task t.id) &&
    match t.errands with
    | e :: _ => s.canGo t.id e
    | [] => true

/-- The session with everything ready that can go on. -/
def wake (s : Session) : Session :=
  let alarm := if s.isDue s.state.scheduler.alarm && !s.ready.contains .alarm then [.alarm] else []
  let second := if s.isDue s.second && !s.ready.contains .secondAlarm then [.secondAlarm] else []
  { s with ready := s.ready ++ alarm ++ second ++
    (s.tasks.filter s.isWoken).map fun t => .task t.id }

/-- Add a task. -/
def addTask (s : Session) (errands : List Errand) : Session :=
  { s with tasks := s.tasks ++ [⟨s.nextTask, errands⟩], nextTask := s.nextTask + 1 }

/-- Whether anybody holds on to the scheduler. -/
def isAlive (s : Session) : Bool := !s.released || !s.tasks.isEmpty

/-- Take a task out. -/
def removeTask (s : Session) (id : Nat) : Session :=
  { s with tasks := s.tasks.filter fun t => t.id ≠ id }

/-- Give a task other errands. -/
def setErrands (s : Session) (id : Nat) (errands : List Errand) : Session :=
  { s with tasks := s.tasks.map fun t => if t.id = id then ⟨id, errands⟩ else t }

/-- Start a task ahead of all others. -/
def startFirst (s : Session) (errands : List Errand) : Session :=
  { s.addTask errands with ready := .task s.nextTask :: s.ready }

/-- Start a task after all others. -/
def startLast (s : Session) (errands : List Errand) : Session :=
  { s.addTask errands with ready := s.ready ++ [.task s.nextTask] }

/-- An alarm goes off: if the scheduler is still there, the watchdog ticks. -/
def goOff (s : Session) (a : Option Alarm) : Session :=
  match a with
  | some a => if s.isAlive then s.startFirst [.tick a.timeout] else s
  | none => s

/-- Let a task that has to wait step back. -/
def stepBack (s : Session) (t : Task) (e : Errand) : Session :=
  { s with
    tasks := s.tasks.filter (fun u => u.id ≠ t.id) ++ [t]
    line := if e.needsRound && !s.line.contains t.id then s.line ++ [t.id] else s.line }

/-- A task that can go on does its next errand. -/
def turn (s : Session) (t : Task) (e : Errand) (rest : List Errand) : Session :=
  let turn := e.perform s.setup s.state
  let s := { s with
    state := turn.state
    line := if e.needsRound then s.line.filter (· ≠ t.id) else s.line }
  let s := s.setErrands t.id (if turn.collapses then [] else turn.next ++ rest)
  (turn.started.foldl startLast s).wake

/-- **One turn of the session**, if anything can go on. -/
def step (s : Session) : Option Session :=
  match s.ready with
  | [] => none
  | .alarm :: rest =>
    let s := { s with ready := rest }
    let pending := s.state.scheduler.alarm
    if s.isDue pending then
      let scheduler := { s.state.scheduler with alarm := none }
      some ({ s with state := { s.state with scheduler := scheduler } }.goOff pending)
    else some s
  | .secondAlarm :: rest =>
    let s := { s with ready := rest }
    let pending := s.second
    if s.isDue pending then some ({ s with second := none }.goOff pending) else some s
  | .task id :: rest =>
    match s.tasks.find? fun t => t.id == id with
    | none => some { s with ready := rest }
    | some t =>
      match t.errands with
      | [] => some { s.removeTask id with ready := rest }
      | [.answer a] =>
        some { s.removeTask id with ready := rest, answers := (id, a) :: s.answers }
      | e :: more =>
        if s.canGo id e then some (s.turn t e more)
        else some { s.stepBack t e with ready := rest }

/-- All that can happen while the clock stands still, in at most `fuel` turns. -/
def runFor : Nat → Session → Session
  | 0, s => s
  | fuel + 1, s =>
    match s.step with
    | none => s
    | some s => runFor fuel s

/-- How many turns a session gets while the clock stands still. -/
def patience : Nat := 100000000

/-- **All that can happen while the clock stands still.** -/
def run (s : Session) : Session := runFor patience s.wake

/-- Run a task ahead of all others, and then all that can go on. The answer is the task's. -/
def call (s : Session) (errands : List Errand) : Option Answer × Session :=
  let id := s.nextTask
  let s := (s.startFirst errands).run
  (((s.answers.find? fun a => a.1 == id).map (·.2)), { s with answers := [] })

/-- Run a task and forget its answer. -/
def does (s : Session) (errands : List Errand) : Session := (s.call errands).2

/-! ### The clock -/

/-- The times at which something happens by the clock alone. -/
def timers (s : Session) : List Nat :=
  (s.state.scheduler.alarm.map dueAt).toList ++ (s.second.map dueAt).toList ++
    s.tasks.filterMap fun t =>
      match t.errands with
      | .idle deadline :: _ => some deadline
      | _ => none

/-- The first of these times up to a limit. -/
def nextTimer (s : Session) (limit : Nat) : Option Nat :=
  (s.timers.filter (· ≤ limit)).min?

/-- Set the clock. -/
def setClock (s : Session) (t : Nat) : Session :=
  { s with state := { s.state with world := { s.state.world with now := t } } }

/-- Move the clock to a time, stopping at most `fuel` times on the way. -/
def advanceFor : Nat → Session → Nat → Session
  | 0, s, target => (s.setClock target).run
  | fuel + 1, s, target =>
    match s.nextTimer target with
    | none => (s.setClock target).run
    | some t => advanceFor fuel (s.setClock (max t s.state.world.now)).run target

/-- **Move the clock on** by a time in nanoseconds. -/
def advance (s : Session) (nanos : Nat) : Session :=
  advanceFor (nanos + 1000) s (s.state.world.now + nanos)

/-! ### The life of a scheduler -/

/-- Start the worker and the main loop, once. -/
def start (s : Session) : Option Session :=
  match s.started with
  | some _ => none
  | none =>
    let worker := s.nextTask
    let s := (s.startLast [.listen]).startLast [.sweep, .loop]
    some { s with started := some (worker, worker + 1) }.run

/-- Whether the worker and the main loop have ended; nothing before they have been started. -/
def hasEnded (s : Session) : Option Bool :=
  s.started.map fun (worker, loop) =>
    !s.tasks.any fun t => t.id == worker || t.id == loop

/-- Change the scheduler, and run what can go on then. -/
def change (s : Session) (f : Scheduler → Scheduler) : Session :=
  { s with state := { s.state with scheduler := f s.state.scheduler } }.run

/-- Change the world, and run what can go on then. -/
def changeWorld (s : Session) (f : World → World) : Session :=
  { s with state := { s.state with world := f s.state.world } }.run

/-- Stop the scheduler. -/
def stop (s : Session) : Session := s.change Scheduler.stop

/-- Take a report of a transfer, if the scheduler is still there. -/
def report (s : Session) (r : Report) : Session := if s.isAlive then s.does [.hear r] else s

end Session

end MailFetch

import MailFetch.Flights
import MailFetch.Ledger
import MailFetch.Policy
import MailFetch.Queue
import MailFetch.Settings
import MailFetch.World

/-! # The state of the scheduler

What the scheduler remembers, and the changes that it makes to it in one go. Between these changes
it waits for answers of the world, and other tasks may change the state.

* `Scheduler.requeue` is the one way back into the queue for a transfer that was broken off.
* `Scheduler.retryAfterError` is the way back after a connection error.
* `Alarm.arm` is the rule of the watchdog: an alarm that is still to come, and comes no later than
  the new one, stays. -/

namespace MailFetch

/-- The alarm of the watchdog: when it goes off, and which silence then counts as a stall. -/
structure Alarm where
  deadline : Nat
  timeout : Nat
deriving DecidableEq, Inhabited

/-- **Set the alarm** to go off after a delay. An alarm still to come, and no later, stays. -/
def Alarm.arm (pending : Option Alarm) (now delay timeout : Nat) : Alarm :=
  match pending with
  | some a => if now < a.deadline ∧ a.deadline ≤ now + delay then a else ⟨now + delay, timeout⟩
  | none => ⟨now + delay, timeout⟩

/-- The bell that wakes the main loop. One ring is kept for later; a loop that listens takes one
more. -/
structure Bell where
  rings : Nat := 0
  listening : Bool := false
deriving DecidableEq, Inhabited

namespace Bell

/-- How many rings the bell can hold. -/
def room (b : Bell) : Nat := if b.listening then 2 else 1

/-- Ring the bell. -/
def ring (b : Bell) : Bell := { b with rings := min (b.rings + 1) b.room }

/-- Take a ring that has come, and stop listening. -/
def take (b : Bell) : Bell := ⟨b.rings - 1, false⟩

/-- Start listening. -/
def listen (b : Bell) : Bell := { b with listening := true }

/-- Stop listening without a ring. -/
def leave (b : Bell) : Bell := { b with listening := false }

end Bell

/-- What is waiting for the worker that applies changes of records. -/
inductive Notice
  | changed (id : Int) (flags : Flags)
  | shutDown
deriving DecidableEq, Inhabited

/-- **The scheduler's memory.** -/
structure Scheduler where
  queue : Queue := .empty
  flights : Flights := .empty
  usage : UsageLedger := {}
  failures : FailureLedger := {}
  alarm : Option Alarm := none
  bell : Bell := {}
  notices : List Notice := []
  stopped : Bool := false
  /-- Whether a round of admissions is under way; there is one at a time. -/
  inRound : Bool := false
deriving DecidableEq, Inhabited

/-- What the scheduler is run with. -/
structure Setup where
  settings : Settings := {}
  policy : Policy := {}
deriving Inhabited

/-- What becomes of a request after a connection error. -/
inductive Retry
  | abandoned (r : Request)
  | delayed
  | immediate
deriving DecidableEq

namespace Scheduler

/-- Wake the main loop. -/
def ring (s : Scheduler) : Scheduler := { s with bell := s.bell.ring }

/-- Set the watchdog's alarm. -/
def arm (s : Scheduler) (now delay timeout : Nat) : Scheduler :=
  { s with alarm := some (Alarm.arm s.alarm now delay timeout) }

/-- Whether there is room for one more download. -/
def hasRoom (s : Scheduler) (limits : Settings) : Bool := s.flights.size < limits.maxConcurrent

/-- Whether there is room for one more download of an account. -/
def hasRoomFor (s : Scheduler) (limits : Settings) (account : Int) : Bool :=
  s.flights.countFor account < limits.maxPerAccount

/-- **Count a retry and let the request join the queue again**, at the back of its class. The
answer is the request if it has used up its retries. -/
def requeue (s : Scheduler) (limits : Settings) (now : Nat) (r : Request) :
    Option Request × Scheduler :=
  let s := { s with queue := s.queue.drop r.id }
  let r := r.countRetry
  if limits.maxRetries < r.retries then (some r, s)
  else (none, { s with queue := s.queue.push (r.retryCopy now) })

/-- Break off a transfer: its request goes back into the queue. The answer is the request if it
has used up its retries. -/
def breakOff (s : Scheduler) (limits : Settings) (now : Nat) (id : Int) :
    Option Request × Scheduler :=
  match s.flights.get? id with
  | none => (none, s)
  | some r => { s with flights := s.flights.erase id }.requeue limits now r.land

/-- Break off several transfers. The answer is the requests that have used up their retries. -/
def breakOffAll (s : Scheduler) (limits : Settings) (now : Nat) :
    List Int → List Request × Scheduler
  | [] => ([], s)
  | id :: rest =>
    let (exhausted, s) := s.breakOff limits now id
    let (more, s) := s.breakOffAll limits now rest
    (exhausted.toList ++ more, s)

/-- **Retry after a connection error**: at once for the first few times, then after a wait. The
request keeps its place. -/
def retryAfterError (s : Scheduler) (limits : Settings) (now : Nat) (r : Request) :
    Retry × Scheduler :=
  let r := r.countRetry
  let s := { s with queue := s.queue.drop r.id }
  if limits.maxRetries < r.retries then (.abandoned r, s)
  else if limits.delayThreshold < r.retries then
    (.delayed,
      { s with queue := s.queue.push { r with notBefore := some (now + limits.retryDelay) } })
  else (.immediate, { s with queue := s.queue.push { r with notBefore := none } })

/-- Hand a request over: it is entered as in flight from the time `now` on. -/
def takeOff (s : Scheduler) (now : Nat) (r : Request) : Scheduler :=
  { s with flights := s.flights.insert (r.dispatch now) }

/-- Put requests that were set aside back into the queue, except where one for the same
attachment is in flight. -/
def restore (s : Scheduler) (aside : List Request) : Scheduler :=
  { s with
    queue := aside.foldl (fun q r => if s.flights.contains r.id then q else q.push r) s.queue }

/-- The scheduler after `stop`: no alarm is left, and both tasks are told. -/
def stop (s : Scheduler) : Scheduler :=
  Scheduler.ring { s with stopped := true, alarm := none, notices := s.notices ++ [.shutDown] }

/-- Take note of a changed record, unless the scheduler has been stopped. -/
def notify (s : Scheduler) (id : Int) (flags : Flags) : Scheduler :=
  if s.stopped then s else { s with notices := s.notices ++ [.changed id flags] }

end Scheduler

end MailFetch

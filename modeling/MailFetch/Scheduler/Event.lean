import MailFetch.Scheduler.State

/-! # Events

What the scheduler does to the world is written down, with the time, in a log. The log is only ever
added to, so it tells the whole history of a run. -/

namespace MailFetch

/-- **Something that the scheduler did.** Calls are noted whether or not they go through. -/
inductive Event
  /-- A request was handed over to the carrier, which took it or did not. -/
  | start (r : Request) (accepted : Bool)
  /-- The pending mail of an account was sent. -/
  | mail (account : Int)
  | update (id : Int) (u : Update)
  | delete (id : Int)
  /-- The bytes stored for an account were counted. -/
  | scan (account : Int)
  /-- The user was told that a forwarded attachment is gone. -/
  | forwardFailed (id : Int)
  /-- The user was told that a request was given up. -/
  | abandoned (r : Request)
deriving DecidableEq

/-- An event with its time. -/
structure LogEntry where
  time : Nat
  event : Event
deriving DecidableEq

/-- **The scheduler in its world**, with the log of what it has done, latest first. -/
structure State where
  scheduler : Scheduler := {}
  world : World := {}
  log : List LogEntry := []
deriving DecidableEq, Inhabited

namespace State

/-- Write an event into the log. -/
def note (s : State) (e : Event) : State := { s with log := ⟨s.world.now, e⟩ :: s.log }

/-- Tell the user of the requests that are given up. -/
def abandon (s : State) (rs : List Request) : State := rs.foldl (fun s r => s.note (.abandoned r)) s

/-- Wake the main loop. -/
def ring (s : State) : State := { s with scheduler := s.scheduler.ring }

/-- Set the watchdog's alarm, with the usual silence as a stall. -/
def arm (s : State) (setup : Setup) (delay : Nat) : State :=
  { s with scheduler := s.scheduler.arm s.world.now delay setup.settings.callbackTimeout }

/-- Update a record. -/
def update (s : State) (id : Int) (u : Update) : State :=
  { s.note (.update id u) with world := s.world.update id u }

/-- Delete a record. The answer is whether the call went through. -/
def delete (s : State) (id : Int) : Bool × State :=
  let (done, world) := s.world.delete id
  (done, { s.note (.delete id) with world := world })

/-- Break off a transfer, and give its request up if it has used up its retries. -/
def breakOff (s : State) (setup : Setup) (id : Int) : State :=
  let (exhausted, scheduler) := s.scheduler.breakOff setup.settings s.world.now id
  { s with scheduler := scheduler }.abandon exhausted.toList

/-- Let a request whose transfer was broken off join the queue again, or give it up. -/
def requeue (s : State) (setup : Setup) (r : Request) : State :=
  let (exhausted, scheduler) := s.scheduler.requeue setup.settings s.world.now r
  { s with scheduler := scheduler }.abandon exhausted.toList

end State

end MailFetch

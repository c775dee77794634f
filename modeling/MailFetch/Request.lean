import MailFetch.Priority
import MailFetch.Status

/-! # Download requests

A request is one wanted download of one attachment. It waits in the queue, is in flight, or is on
its way between the two; its retries are copies of it. Times are nanoseconds of the clock.

* `Request.enqueuedAt_lt_retryCopy`: a retry is enqueued strictly later than what it repeats. -/

namespace MailFetch

/-- **A request to download an attachment**, waiting or in flight. -/
structure Request where
  id : Int
  account : Int
  message : Int
  priority : Priority
  /-- When the request joined its class; it decides the order there. -/
  enqueuedAt : Nat
  /-- Whether the transfer has been handed over. -/
  active : Bool := false
  status : Option Status := none
  /-- The last reported percentage. -/
  progress : Nat := 0
  /-- The last percentage written to the record. -/
  persisted : Nat := 0
  /-- The last sign of life of the transfer. -/
  heardAt : Option Nat := none
  startedAt : Option Nat := none
  retries : UInt32 := 0
  /-- The end of the wait before a delayed retry. -/
  notBefore : Option Nat := none
deriving DecidableEq, Inhabited

namespace Request

/-- Two requests are for the same download if they name the same attachment. -/
def sameDownload (r s : Request) : Bool := r.id == s.id

/-- A copy that joins the back of its class at the time `now`. -/
def retryCopy (r : Request) (now : Nat) : Request :=
  { r with enqueuedAt := if r.enqueuedAt < now then now else r.enqueuedAt + 1 }

/-- The request with one more retry on its count. -/
def countRetry (r : Request) : Request := { r with retries := r.retries + 1 }

/-- The request after it has left the air. -/
def land (r : Request) : Request := { r with active := false }

/-- Whether the transfer runs in the background: all do that no user asked for. -/
def isBackground (r : Request) : Bool := r.priority != .foreground

/-- The request as it is handed over at the time `now`. -/
def dispatch (r : Request) (now : Nat) : Request :=
  { r with active := true, startedAt := some now, heardAt := some now }

/-- How long nothing has been heard of the transfer. -/
def silence (r : Request) (now : Nat) : Nat :=
  now - (r.heardAt.orElse fun _ => r.startedAt).getD r.enqueuedAt

/-- Whether the wait before a delayed retry still runs. -/
def isDeferred (r : Request) (now : Nat) : Bool :=
  match r.notBefore with
  | some t => now < t
  | none => false

theorem enqueuedAt_lt_retryCopy (r : Request) (now : Nat) :
    r.enqueuedAt < (r.retryCopy now).enqueuedAt := by
  unfold retryCopy
  split <;> simp only <;> omega

end Request

end MailFetch

import MailFetch.Request
import MailFetch.Table

/-! # Requests in flight

The requests whose transfers have been handed over, by attachment. -/

namespace MailFetch

/-- **The requests in flight.** -/
structure Flights where
  table : Table Request := .empty
deriving DecidableEq, Inhabited

/-- Whether an optional time comes before another; no time comes first of all. -/
def startsBefore : Option Nat → Option Nat → Bool
  | none, none => false
  | none, some _ => true
  | some _, none => false
  | some a, some b => a < b

namespace Flights

/-- Nothing is in flight. -/
def empty : Flights := {}

/-- Enter a request, in place of any other for its attachment. -/
def insert (f : Flights) (r : Request) : Flights := ⟨f.table.insert r.id r⟩

/-- Take out the request for an attachment. -/
def erase (f : Flights) (id : Int) : Flights := ⟨f.table.erase id⟩

/-- The request in flight for an attachment. -/
def get? (f : Flights) (id : Int) : Option Request := f.table.get? id

/-- Whether a request for an attachment is in flight. -/
def contains (f : Flights) (id : Int) : Bool := f.table.contains id

/-- How many requests are in flight. -/
def size (f : Flights) : Nat := f.table.size

/-- Whether nothing is in flight. -/
def isEmpty (f : Flights) : Bool := f.table.isEmpty

/-- How many requests of an account are in flight. -/
def countFor (f : Flights) (account : Int) : Nat :=
  (f.table.values.filter fun r => r.account == account).length

/-- The attachments of which nothing has been heard for longer than `timeout`, in ascending
order. -/
def stalled (f : Flights) (timeout now : Nat) : List Int :=
  (f.table.values.filter fun r => timeout < r.silence now).map (·.id)

/-- The requests in flight, the earliest started first and those started together by
attachment. -/
def byStart (f : Flights) : List Request :=
  f.table.values.mergeSort fun a b =>
    startsBefore a.startedAt b.startedAt || (a.startedAt == b.startedAt && a.id ≤ b.id)

end Flights

end MailFetch

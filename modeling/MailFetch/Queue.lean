import MailFetch.Request
import MailFetch.Table
import MailFetch.Text.Decimal

/-! # The queue of waiting requests

Requests leave the queue by urgency: first by class, then by the time they joined it, then by
attachment. The queue keeps the sort keys of its requests in that order, and beside them the
requests by attachment. -/

namespace MailFetch

/-- What a request is sorted by. -/
structure SortKey where
  priority : Priority
  enqueuedAt : Nat
  id : Int
deriving DecidableEq, Inhabited

namespace SortKey

/-- Whether the first key comes before the second. -/
def before (a b : SortKey) : Bool :=
  a.priority.rank < b.priority.rank ||
    (a.priority.rank == b.priority.rank &&
      (a.enqueuedAt < b.enqueuedAt || (a.enqueuedAt == b.enqueuedAt && a.id < b.id)))

/-- Put a key into an ordered list, unless it is there. -/
def insertInto (k : SortKey) : List SortKey → List SortKey
  | [] => [k]
  | a :: rest =>
    if k.before a then k :: a :: rest
    else if a.before k then a :: insertInto k rest
    else a :: rest

end SortKey

/-- What this request is sorted by. -/
def Request.sortKey (r : Request) : SortKey := ⟨r.priority, r.enqueuedAt, r.id⟩

/-- **The waiting requests**: their keys in the order in which they leave, and an index by
attachment. -/
structure Queue where
  order : List SortKey := []
  index : Table Request := .empty
deriving DecidableEq, Inhabited

/-- Why the queue refuses a request: its attachment cannot have a record. -/
structure InvalidRequestId where
  id : Int
deriving DecidableEq

/-- The text of the refusal. -/
def InvalidRequestId.message (e : InvalidRequestId) : String :=
  "Invalid request id: " ++ Text.intText e.id

namespace Queue

/-- The queue without requests. -/
def empty : Queue := {}

/-- Let a request join, unless one for its attachment waits already. The answer is whether it
joined. -/
def add (q : Queue) (r : Request) : Except InvalidRequestId (Bool × Queue) :=
  if r.id < 0 then .error ⟨r.id⟩
  else if q.index.contains r.id then .ok (false, q)
  else .ok (true, ⟨r.sortKey.insertInto q.order, q.index.insert r.id r⟩)

/-- The queue after a request has been let in; it is unchanged where the request is refused. -/
def push (q : Queue) (r : Request) : Queue :=
  match q.add r with
  | .ok (_, q') => q'
  | .error _ => q

/-- Take out the request for an attachment. -/
def remove (q : Queue) (id : Int) : Option Request × Queue :=
  match q.index.get? id with
  | none => (none, q)
  | some r => (some r, ⟨q.order.filter (· ≠ r.sortKey), q.index.erase id⟩)

/-- The queue without the request for an attachment. -/
def drop (q : Queue) (id : Int) : Queue := (q.remove id).2

/-- Take out the most urgent request. -/
def pop (q : Queue) : Option Request × Queue :=
  match q.order with
  | [] => (none, q)
  | k :: rest => (q.index.get? k.id, ⟨rest, q.index.erase k.id⟩)

/-- The waiting request for an attachment. -/
def find? (q : Queue) (id : Int) : Option Request := if id < 0 then none else q.index.get? id

/-- Whether a request for an attachment waits. -/
def contains (q : Queue) (id : Int) : Bool := q.index.contains id

/-- How many requests wait. -/
def size (q : Queue) : Nat := q.index.size

/-- Whether no request waits. -/
def isEmpty (q : Queue) : Bool := q.index.isEmpty

/-- The waiting requests in the order in which they leave. -/
def toList (q : Queue) : List Request := q.order.filterMap fun k => q.index.get? k.id

end Queue

end MailFetch

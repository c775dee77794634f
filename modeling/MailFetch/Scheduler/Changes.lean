import MailFetch.Scheduler.Errand

/-! # Changes of records

A record that is inserted or changed is reviewed: if its download is asked for, a request joins the
queue; if it no longer is, a waiting request is taken out. A request in flight is left alone, and a
request that waits keeps its place. -/

namespace MailFetch

/-- What a review decides about a record. -/
inductive Verdict
  /-- The download is not asked for. -/
  | unasked
  /-- The request exists already. -/
  | known
  /-- The policy forbids what was asked for. -/
  | forbidden
  /-- A request of the given class is to join the queue. -/
  | wanted (p : Priority)
deriving DecidableEq

/-- Whether the policy is asked about a record: it is for users' requests and for barred records,
not for outgoing mail alone. -/
def Flags.callForPolicy (f : Flags) : Bool := f.intersects (.union .requested .barred)

/-- **The decision about a record.** -/
def Scheduler.verdict (s : Scheduler) (policy : Policy) (a : Attachment) : Verdict :=
  match Priority.ofFlags a.flags with
  | none => .unasked
  | some p =>
    if s.flights.contains a.id || s.queue.contains a.id then .known
    else if a.flags.callForPolicy && !policy.allows a then .forbidden
    else .wanted p

/-- A new request for an attachment. -/
def Attachment.request (a : Attachment) (p : Priority) (now : Nat) : Request where
  id := a.id
  account := a.account
  message := a.message
  priority := p
  enqueuedAt := now

namespace Errand

/-- Decide about a record, and wake the main loop. -/
def doReview (setup : Setup) (s : State) (a : Attachment) : Turn :=
  match s.scheduler.verdict setup.policy a with
  | .unasked =>
    { state := State.ring
        { s with scheduler := { s.scheduler with queue := s.scheduler.queue.drop a.id } } }
  | .known => { state := s.ring }
  | .forbidden => { state := s, next := [.refuse a] }
  | .wanted p =>
    let queue := s.scheduler.queue.push (a.request p s.world.now)
    { state := State.ring { s with scheduler := { s.scheduler with queue := queue } } }

/-- Mark a record as failed, by its flags as they were reviewed. -/
def doRefuse (s : State) (a : Attachment) : Turn :=
  { state := s.update a.id (.finished a.flags .failed), next := [.ring] }

/-- Review all records whose download is asked for. -/
def doSweep (s : State) : Turn :=
  match s.world.pending with
  | .error e => { state := s, next := [.answer (.notSwept e)] }
  | .ok found =>
    { state := s, next := found.map .review ++ [.answer (.swept found.length)] }

/-- Review a record that was reported as changed, with the flags that were reported. -/
def doApplyNotice (s : State) (id : Int) (flags : Flags) : Turn :=
  if s.world.fails .collapse id then { state := s, collapses := true }
  else
    match s.world.attachment id with
    | .ok (some a) => { state := s, next := [.review { a with flags := flags }] }
    | _ => { state := s }

/-- Take the next notice. -/
def doListen (s : State) : Turn :=
  match s.scheduler.notices with
  | [] => { state := s, next := [.listen] }
  | n :: rest =>
    let s := { s with scheduler := { s.scheduler with notices := rest } }
    match n with
    | .changed id flags => { state := s, next := [.applyNotice id flags, .listen] }
    | .shutDown => { state := s }

end Errand

end MailFetch

import MailFetch.Scheduler.Event

/-! # Errands

The scheduler's tasks are cut into errands. An errand is what a task does in one go; after it the
task may have to wait, and other tasks go on. A task is the list of the errands that are still
before it. This module says what errands there are; what each one does is said where its subject
is. -/

namespace MailFetch

/-- What a task answers when it is done. -/
inductive Answer
  | swept (count : Nat)
  | notSwept (e : StoreError)
  | mayFetch (yes : Bool)
deriving DecidableEq

/-- Where a round goes on after a request has been handed over. -/
inductive Onward
  /-- On through the queue, with the requests set aside so far. -/
  | queue (aside : List Request)
  /-- To the end: the request was the one that nobody asked for. -/
  | done
deriving DecidableEq

/-- Who asks whether an account has room for downloads that nobody asked for. -/
inductive Asker
  | caller
  /-- A round that looks at a record and has others to look at after it. -/
  | round (candidate : Attachment) (rest : List Attachment)
deriving DecidableEq

/-- **What a task does in one go.** -/
inductive Errand
  /-- Decide about a record that was inserted or changed. -/
  | review (a : Attachment)
  /-- Mark a record as failed that may not be downloaded. -/
  | refuse (a : Attachment)
  /-- Review all records whose download is asked for. -/
  | sweep
  /-- Look up a record that was reported as changed. -/
  | applyNotice (id : Int) (flags : Flags)
  /-- Begin a round of admissions. -/
  | beginRound
  /-- Take the next request from the queue. -/
  | takeNext (aside : List Request)
  /-- Look up the record of a request, and take the request off if it is due. -/
  | screen (r : Request) (aside : List Request)
  /-- Hand a request over to the carrier. -/
  | handOver (r : Request) (onward : Onward)
  /-- Take the carrier's answer. -/
  | landed (r : Request) (accepted : Bool) (onward : Onward)
  /-- Put back the requests that were set aside. -/
  | putBack (aside : List Request)
  /-- See whether something may be downloaded that nobody asked for. -/
  | lookAhead
  /-- Find the records to choose from. -/
  | browse
  /-- Look at the first of these records. -/
  | consider (candidates : List Attachment)
  /-- Look up the account of a record, and see whether the record may be downloaded. -/
  | vet (candidate : Attachment) (rest : List Attachment)
  /-- Delete a record without an account. -/
  | discard (id : Int)
  /-- See whether an account wants such downloads and the storage allows them. -/
  | budget (account : Account) (asker : Asker)
  /-- See whether an account has used up its share of the storage. -/
  | share (account : Account) (total : Nat) (asker : Asker)
  /-- Take off a record that nobody asked for. -/
  | claim (candidate : Attachment) (rest : List Attachment)
  | endRound
  /-- Take a report of a transfer. -/
  | hear (report : Report)
  /-- Look up the size of a record to write down its progress. -/
  | recordProgress (id : Int) (percent : Nat)
  | write (id : Int) (u : Update)
  /-- Take a request out of the air whose transfer has ended. -/
  | settle (id : Int) (status : Status)
  /-- Look up the record of a transfer that has ended. -/
  | conclude (r : Request) (status : Status)
  /-- Look up the message of a transfer that did not find it. -/
  | askParent (r : Request) (record : Option Attachment)
  /-- Delete the record of a transfer that has ended, and go on with what is left to do. -/
  | expunge (id : Int) (status : Status) (record : Option Attachment)
  /-- Enter the end of a transfer into its record. -/
  | close (status : Status) (record : Option Attachment) (deleted : Bool)
  /-- Send the message of an attachment if nothing of it is missing any more. -/
  | sendIfComplete (a : Attachment)
  | sendMail (account : Int)
  /-- Wake the main loop. -/
  | ring
  /-- Break off stalled transfers, and fill the places that they leave. -/
  | tick (timeout : Nat)
  /-- Set the alarm again while anything is in flight. -/
  | rearm (timeout : Nat)
  /-- The top of the main loop. -/
  | loop
  /-- Wait for a network or a ring. -/
  | awaitNetwork
  /-- The main loop after a round. -/
  | pause
  /-- Wait for a ring, at most to the given time. -/
  | idle (deadline : Nat)
  /-- Wait for the next notice. -/
  | listen
  /-- Carry out a transfer over the web. -/
  | fetch (job : Job)
  /-- The end of a task that was asked something. -/
  | answer (a : Answer)
deriving DecidableEq

/-- What an errand leads to: the state after it, the errands that its task does next, and tasks
that start beside it. A task that collapses drops all that was still before it. -/
structure Turn where
  state : State
  next : List Errand := []
  started : List (List Errand) := []
  collapses : Bool := false

end MailFetch

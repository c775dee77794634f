import MailFetch.Scheduler.Round

/-! # Reports of transfers

A report on a request that is not in flight is ignored. A progress report is entered into the
record whenever the percentage has grown by ten since it was last entered. Any other report ends
the transfer: its request leaves the air, the failure ledger is settled, and the request is
retried, its record is marked as saved or failed, or the record is deleted. When the last missing
attachment of a forwarded message is there, or gone, the message is sent. -/

namespace MailFetch

/-- By how many per cent a download has to grow before its progress is entered again. -/
def progressStep : Nat := 10

/-- The percentage at which progress is next entered; percentages are bytes. -/
def Request.nextPersisted (r : Request) : Nat := min (r.persisted + progressStep) 255

/-- The request after a report on it at the time `now`. -/
def Request.heard (r : Request) (now : Nat) (status : Status) (percent : Nat) : Request :=
  let r := { r with status := some status, heardAt := some now }
  if status.isTerminal then r
  else
    { r with
      progress := percent
      persisted := if r.nextPersisted ≤ percent then percent else r.persisted }

namespace Errand

/-- Take a report on a request in flight. -/
def doHear (s : State) (report : Report) : Turn :=
  match s.scheduler.flights.get? report.id with
  | none => { state := s }
  | some r =>
    let flights := s.scheduler.flights.insert (r.heard s.world.now report.status report.percent)
    { state := { s with scheduler := { s.scheduler with flights := flights } }
      next :=
        if report.status.isTerminal then [.settle report.id report.status]
        else if r.nextPersisted ≤ report.percent then [.recordProgress report.id report.percent]
        else [] }

/-- Look up the size of a record to enter its progress. -/
def doRecordProgress (s : State) (id : Int) (percent : Nat) : Turn :=
  match s.world.attachment id with
  | .ok (some a) => { state := s, next := [.write id (.progress a.size percent)] }
  | _ => { state := s }

/-- Take a request out of the air whose transfer has ended. After a connection error it is
retried or given up; after any other end nothing of it is left. -/
def doSettle (setup : Setup) (s : State) (id : Int) (status : Status) : Turn :=
  match s.scheduler.flights.get? id with
  | none => { state := s }
  | some r =>
    let r := r.land
    let scheduler := { s.scheduler with
      flights := s.scheduler.flights.erase id
      failures := s.scheduler.failures.settle id (status == Status.success) }
    if status = .connectionError then
      let (retry, scheduler) := scheduler.retryAfterError setup.settings s.world.now r
      let s := { s with scheduler := scheduler }
      match retry with
      | .abandoned r => { state := (s.abandon [r]).ring }
      | .delayed => { state := s.arm setup setup.settings.retryDelay }
      | .immediate => { state := s.ring }
    else
      { state := { s with scheduler := { scheduler with queue := scheduler.queue.drop id } }
        next := [.conclude r status] }

/-- Look up the record of a transfer that has ended, and see what is to be done with it. -/
def doConclude (s : State) (r : Request) (status : Status) : Turn :=
  match s.world.attachment r.id with
  | .error _ => { state := s.ring }
  | .ok record =>
    if status = .messageNotFound then { state := s, next := [.askParent r record] }
    else if status = .attachmentNotFound ∧ (record.map (·.isForwarded)).getD false then
      { state := s, next := [.expunge r.id status record] }
    else { state := s, next := [.close status record false] }

/-- Look up the message that a transfer did not find. If it is there, the transfer is tried again;
if it is gone, the record is deleted. -/
def doAskParent (setup : Setup) (s : State) (r : Request) (record : Option Attachment) : Turn :=
  match s.world.message r.message with
  | .ok (some _) => { state := (s.requeue setup r).ring }
  | .ok none => { state := s, next := [.expunge r.id .messageNotFound record] }
  | .error _ => { state := s, next := [.close .messageNotFound record false] }

/-- Delete the record of a transfer that has ended; the user is told of a forwarded attachment
that was not found. -/
def doExpunge (s : State) (id : Int) (status : Status) (record : Option Attachment) : Turn :=
  let (deleted, s) := s.delete id
  let s := match record with
    | some a => if status = .attachmentNotFound then s.note (.forwardFailed a.id) else s
    | none => s
  { state := s, next := [.close status record deleted] }

/-- Enter the end of a transfer into its record, if the record is left, and see whether the message
can be sent. -/
def doClose (s : State) (status : Status) (record : Option Attachment) (deleted : Bool) : Turn :=
  match record with
  | none => { state := s.ring }
  | some a =>
    let s :=
      if deleted then s
      else if status = .success then
        let usage := s.scheduler.usage.add a.account a.size
        State.update { s with scheduler := { s.scheduler with usage := usage } } a.id (.saved a)
      else s.update a.id (.finished a.flags .failed)
    { state := s
      next := if a.isForwarded && (status == Status.success || deleted) then [.sendIfComplete a]
        else [.ring] }

/-- Send the message of an attachment if nothing of it is missing any more. -/
def doSendIfComplete (s : State) (a : Attachment) : Turn :=
  match s.world.hasUnloaded a.message with
  | .ok false => { state := s, next := [.sendMail a.account] }
  | _ => { state := s, next := [.ring] }

/-- Send the pending mail of an account. -/
def doSendMail (s : State) (account : Int) : Turn :=
  { state := s.note (.mail account), next := [.ring] }

end Errand

end MailFetch

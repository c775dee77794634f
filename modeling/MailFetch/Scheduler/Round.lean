import MailFetch.Scheduler.Changes

/-! # Rounds of admissions

A round takes requests from the queue while there is room in the air. A request whose account is
busy, whose record cannot be looked up or whose retry is not yet due is set aside and put back at
the end; a request whose record is gone is dropped. There is one round at a time, and reviews wait
for it.

After the queue, a round may take off one attachment that nobody asked for, if two places are
free, the network is unmetered and background traffic is allowed: the newest one that may be
downloaded and whose account has storage left for it. -/

namespace MailFetch.Errand

/-! ### The queue -/

/-- Begin a round. -/
def doBeginRound (s : State) : Turn :=
  { state := { s with scheduler := { s.scheduler with inRound := true } }, next := [.takeNext []] }

/-- Take the next request from the queue, if there is room for it. -/
def doTakeNext (setup : Setup) (s : State) (aside : List Request) : Turn :=
  if s.scheduler.stopped || !s.scheduler.hasRoom setup.settings then
    { state := s, next := [.putBack aside] }
  else
    match s.scheduler.queue.pop with
    | (none, queue) =>
      { state := { s with scheduler := { s.scheduler with queue := queue } },
        next := [.putBack aside] }
    | (some r, queue) =>
      { state := { s with scheduler := { s.scheduler with queue := queue } }
        next :=
          if s.scheduler.hasRoomFor setup.settings r.account then [.screen r aside]
          else [.takeNext (aside ++ [r])] }

/-- Look up the record of a request, and take the request off if it is due. -/
def doScreen (setup : Setup) (s : State) (r : Request) (aside : List Request) : Turn :=
  match s.world.attachment r.id with
  | .ok none => { state := s, next := [.takeNext aside] }
  | .error _ => { state := s, next := [.takeNext (aside ++ [r])] }
  | .ok (some _) =>
    let now := s.world.now
    if r.isDeferred now then
      { state := s.arm setup (r.notBefore.getD now - now), next := [.takeNext (aside ++ [r])] }
    else if !s.scheduler.hasRoom setup.settings || !s.scheduler.hasRoomFor setup.settings r.account
    then { state := s, next := [.putBack (aside ++ [r])] }
    else
      { state := { s with scheduler := s.scheduler.takeOff now r }
        next := [.handOver (r.dispatch now) (.queue aside)] }

/-- Put back the requests that were set aside; a round that was not stopped goes on to look
ahead. -/
def doPutBack (s : State) (aside : List Request) : Turn :=
  { state := { s with scheduler := s.scheduler.restore aside }
    next := if s.scheduler.stopped then [.endRound] else [.lookAhead, .endRound] }

/-- End a round. -/
def doEndRound (s : State) : Turn :=
  { state := { s with scheduler := { s.scheduler with inRound := false } } }

/-! ### Handing over -/

/-- Ask the carrier to take a request. -/
def doHandOver (s : State) (r : Request) (onward : Onward) : Turn :=
  match s.world.carrier with
  | .noting failing early =>
    let broken := s.world.fails .startTransfer r.id
    let accepted := !broken && failing == 0
    let due := match early with
      | some e => if 0 < e.left then [.hear ⟨0, r.id, e.status, e.percent⟩] else []
      | none => []
    let carrier := .noting (failing - 1) (early.map fun e => { e with left := e.left - 1 })
    { state := { s.note (.start r accepted) with world := { s.world with carrier := carrier } }
      next := due ++ [.landed r accepted onward] }
  | .web files cache =>
    match beginTransfer cache (s.world.attachment r.id) files r.account r.id with
    | .error _ => { state := s.note (.start r false), next := [.landed r false onward] }
    | .ok (files, job) =>
      { state := { s.note (.start r true) with
          world := { s.world with carrier := .web files cache } }
        next := [.landed r true onward], started := [[.fetch job]] }

/-- Take the carrier's answer. A request that was not taken goes back into the queue, and the
round takes no other one from there; the watchdog tries again later. -/
def doLanded (setup : Setup) (s : State) (r : Request) (accepted : Bool) (onward : Onward) : Turn :=
  if accepted then
    { state := s.arm setup setup.settings.watchdogInterval
      next := match onward with
        | .queue aside => [.takeNext aside]
        | .done => [] }
  else
    { state := (s.breakOff setup r.id).arm setup setup.settings.retryDelay
      next := match onward with
        | .queue aside => [.putBack aside]
        | .done => [] }

/-- Carry out a transfer over the web, where nobody answers. -/
def doFetch (s : State) (job : Job) : Turn :=
  match s.world.carrier with
  | .noting _ _ => { state := s }
  | .web files cache =>
    let (files, reports) := job.run (fun _ => .noConnection) files
    { state := { s with world := { s.world with carrier := .web files cache } }
      next := reports.map .hear }

/-! ### Looking ahead -/

/-- See whether something may be downloaded that nobody asked for. One place is kept free for
requests that are still to come. -/
def doLookAhead (setup : Setup) (s : State) : Turn :=
  if setup.settings.maxConcurrent - s.scheduler.flights.size < 2 then { state := s }
  else if !s.world.connectivity.allowsBackground then { state := s }
  else { state := s, next := [.browse] }

/-- Find the records to choose from. -/
def doBrowse (setup : Setup) (s : State) : Turn :=
  match s.world.newest setup.settings.candidates with
  | .error _ => { state := s }
  | .ok found => { state := s, next := [.consider found] }

/-- Look at the first of the records to choose from. -/
def doConsider (s : State) : List Attachment → Turn
  | [] => { state := s }
  | a :: rest =>
    if s.scheduler.stopped then { state := s } else { state := s, next := [.vet a rest] }

/-- Whether an attachment has failed too often to be fetched unasked. -/
def hasFailedTooOften (setup : Setup) (s : Scheduler) (id : Int) : Bool :=
  match s.failures.get? id with
  | some n => setup.settings.maxFailures < n
  | none => false

/-- Look up the account of a record. A record without an account is deleted; any other has to be
allowed, must not have failed too often and must not be waiting. Inline parts need no budget. -/
def doVet (setup : Setup) (s : State) (a : Attachment) (rest : List Attachment) : Turn :=
  match s.world.account a.account with
  | .ok none => { state := s, next := [.discard a.id, .consider rest] }
  | .error _ => { state := s, next := [.consider rest] }
  | .ok (some account) =>
    if !setup.policy.allows a || hasFailedTooOften setup s.scheduler a.id ||
        s.scheduler.queue.contains a.id then
      { state := s, next := [.consider rest] }
    else if a.isInline then { state := s, next := [.claim a rest] }
    else { state := s, next := [.budget account (.round a rest)] }

/-- Delete a record without an account. -/
def doDiscard (s : State) (id : Int) : Turn := { state := (s.delete id).2 }

/-- What follows from the answer about a budget. -/
def afterBudget (yes : Bool) : Asker → List Errand
  | .caller => [.answer (.mayFetch yes)]
  | .round a rest => if yes then [.claim a rest] else [.consider rest]

/-- See whether an account wants such downloads, and enough of the storage is free. -/
def doBudget (setup : Setup) (s : State) (account : Account) (asker : Asker) : Turn :=
  if !account.background then { state := s, next := afterBudget false asker }
  else
    match s.world.storage with
    | none => { state := s, next := afterBudget false asker }
    | some c =>
      if c.available < setup.settings.minAvailable c.total then
        { state := s, next := afterBudget false asker }
      else { state := s, next := [.share account c.total asker] }

/-- See whether an account has used up its share of the storage. The ledger is trusted while it is
not above the share; otherwise the bytes are counted. -/
def doShare (setup : Setup) (s : State) (account : Account) (total : Nat) (asker : Asker) : Turn :=
  match s.world.accountCount with
  | .error _ => { state := s, next := afterBudget false asker }
  | .ok n =>
    let share := setup.settings.share total (max n 1)
    let trusted := (s.scheduler.usage.get? account.id).filter (· ≤ share)
    match trusted with
    | some used => { state := s, next := afterBudget (used < share) asker }
    | none =>
      match s.world.count account.id with
      | none => { state := s.note (.scan account.id), next := afterBudget false asker }
      | some used =>
        let scheduler := { s.scheduler with usage := s.scheduler.usage.set account.id used }
        { state := { s.note (.scan account.id) with scheduler := scheduler }
          next := afterBudget (used < share) asker }

/-- Take off a record that nobody asked for, unless it is in flight or its account is busy. -/
def doClaim (setup : Setup) (s : State) (a : Attachment) (rest : List Attachment) : Turn :=
  if s.scheduler.flights.contains a.id || !s.scheduler.hasRoomFor setup.settings a.account then
    { state := s, next := [.consider rest] }
  else
    let r := a.request .background s.world.now
    { state := { s with scheduler := s.scheduler.takeOff s.world.now r }
      next := [.handOver (r.dispatch s.world.now) .done] }

end MailFetch.Errand

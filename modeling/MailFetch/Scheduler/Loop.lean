import MailFetch.Scheduler.Settlement

/-! # The watchdog and the main loop

The watchdog's tick breaks off transfers that have been silent for too long and fills their places.
The main loop sweeps the records once, and then goes round: it waits for a network, holds a round
of admissions, and waits for a ring of the bell. If none comes for long, it sweeps again. -/

namespace MailFetch.Errand

/-- Break off the transfers that have been silent for longer than `timeout`. -/
def doTick (setup : Setup) (s : State) (timeout : Nat) : Turn :=
  if s.scheduler.stopped then { state := s }
  else
    let stalled := s.scheduler.flights.stalled timeout s.world.now
    let (exhausted, scheduler) := s.scheduler.breakOffAll setup.settings s.world.now stalled
    let s := { s with scheduler := scheduler }.abandon exhausted
    { state := if stalled.isEmpty then s else s.ring
      next := if s.world.connectivity.isConnected then [.beginRound, .rearm timeout]
        else [.rearm timeout] }

/-- Set the alarm again while anything is in flight. -/
def doRearm (setup : Setup) (s : State) (timeout : Nat) : Turn :=
  if s.scheduler.flights.isEmpty || s.scheduler.stopped then { state := s }
  else
    let delay := setup.settings.watchdogInterval
    { state := { s with scheduler := s.scheduler.arm s.world.now delay timeout } }

/-- Take a ring if there is one, else listen for it. -/
def listenFor (s : State) (wait : Errand) : Turn :=
  let bell := s.scheduler.bell
  if 0 < bell.rings then
    { state := { s with scheduler := { s.scheduler with bell := bell.take } }, next := [.loop] }
  else { state := { s with scheduler := { s.scheduler with bell := bell.listen } }, next := [wait] }

/-- The top of the main loop. -/
def doLoop (s : State) : Turn :=
  if s.scheduler.stopped then { state := s }
  else if s.world.connectivity.isConnected then { state := s, next := [.beginRound, .pause] }
  else listenFor s .awaitNetwork

/-- The end of a wait: with a ring back to the top, without one to what was waited for. -/
def endWait (s : State) (otherwise : List Errand) : Turn :=
  let bell := s.scheduler.bell
  if 0 < bell.rings then
    { state := { s with scheduler := { s.scheduler with bell := bell.take } }, next := [.loop] }
  else
    { state := { s with scheduler := { s.scheduler with bell := bell.leave } }, next := otherwise }

/-- The main loop after a round: wait for a ring, at most for the idle time. -/
def doPause (setup : Setup) (s : State) : Turn :=
  if s.scheduler.stopped then { state := s }
  else listenFor s (.idle (s.world.now + setup.settings.idleWait))

end MailFetch.Errand

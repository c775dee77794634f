import MailFetch.Scheduler.Loop

/-! # What the errands do

* `Errand.perform` is one turn of a task: all that happens to the state between two waits.
* `Errand.isHeldUp` tells when an errand has to wait before it can be done. -/

namespace MailFetch.Errand

/-- Whether an errand needs to be the only one that changes the queue by rounds and reviews. -/
def needsRound : Errand → Bool
  | review _ | beginRound => true
  | _ => false

/-- **Whether an errand has to wait.** -/
def isHeldUp (s : State) : Errand → Bool
  | review _ | beginRound => s.scheduler.inRound
  | applyNotice id _ | recordProgress id _ => s.world.holds .attachment id
  | screen r _ | conclude r _ => s.world.holds .attachment r.id
  | vet a _ => s.world.holds .account a.account
  | askParent r _ => s.world.holds .message r.message
  | awaitNetwork => !s.world.connectivity.isConnected && s.scheduler.bell.rings == 0
  | idle deadline => s.scheduler.bell.rings == 0 && s.world.now < deadline
  | listen => s.scheduler.notices.isEmpty
  | _ => false

/-- **One turn of a task.** -/
def perform (setup : Setup) (s : State) : Errand → Turn
  | review a => doReview setup s a
  | refuse a => doRefuse s a
  | sweep => doSweep s
  | applyNotice id flags => doApplyNotice s id flags
  | beginRound => doBeginRound s
  | takeNext aside => doTakeNext setup s aside
  | screen r aside => doScreen setup s r aside
  | handOver r onward => doHandOver s r onward
  | landed r accepted onward => doLanded setup s r accepted onward
  | putBack aside => doPutBack s aside
  | lookAhead => doLookAhead setup s
  | browse => doBrowse setup s
  | consider candidates => doConsider s candidates
  | vet a others => doVet setup s a others
  | discard id => doDiscard s id
  | budget account asker => doBudget setup s account asker
  | share account total asker => doShare setup s account total asker
  | claim a others => doClaim setup s a others
  | endRound => doEndRound s
  | hear report => doHear s report
  | recordProgress id percent => doRecordProgress s id percent
  | write id u => { state := s.update id u }
  | settle id status => doSettle setup s id status
  | conclude r status => doConclude s r status
  | askParent r record => doAskParent setup s r record
  | expunge id status record => doExpunge s id status record
  | close status record deleted => doClose s status record deleted
  | sendIfComplete a => doSendIfComplete s a
  | sendMail account => doSendMail s account
  | ring => { state := s.ring }
  | tick timeout => doTick setup s timeout
  | rearm timeout => doRearm setup s timeout
  | loop => doLoop s
  | awaitNetwork => endWait s [.beginRound, .pause]
  | pause => doPause setup s
  | idle _ => endWait s [.sweep, .loop]
  | listen => doListen s
  | fetch job => doFetch s job
  | answer _ => { state := s }

end MailFetch.Errand

import MailFetch.Proofs.Books
import MailFetch.Scheduler.Perform

/-! # What an errand leaves alone

An errand changes little of the state. `Errand.Frame` collects what it leaves alone: the clock and
the stop flag always, and the books, the alarm and the mark of a round under way unless it is one of
the few errands that are there to change them. `Errand.perform_frame` says this of every errand, so
that later proofs look only at those few. Of the world it changes one record or the carrier
(`Errand.perform_world`). -/

namespace MailFetch

/-! ### Changes of the world -/

@[simp] theorem World.update_now (w : World) (id : Int) (u : Update) :
    (w.update id u).now = w.now := by
  unfold World.update
  split_ifs
  · rfl
  · split <;> rfl

@[simp] theorem World.delete_now (w : World) (id : Int) : (w.delete id).2.now = w.now := by
  unfold World.delete
  split_ifs <;> rfl

@[simp] theorem World.update_connectivity (w : World) (id : Int) (u : Update) :
    (w.update id u).connectivity = w.connectivity := by
  unfold World.update
  split_ifs
  · rfl
  · split <;> rfl

@[simp] theorem World.delete_connectivity (w : World) (id : Int) :
    (w.delete id).2.connectivity = w.connectivity := by
  unfold World.delete
  split_ifs <;> rfl

/-! ### Changes of the state -/

namespace State

variable (s : State) (setup : Setup)

@[simp] theorem note_scheduler (e : Event) : (s.note e).scheduler = s.scheduler := rfl

@[simp] theorem note_world (e : Event) : (s.note e).world = s.world := rfl

@[simp] theorem abandon_scheduler (rs : List Request) : (s.abandon rs).scheduler = s.scheduler := by
  unfold abandon
  induction rs generalizing s with
  | nil => rfl
  | cons r rest ih => rw [List.foldl_cons, ih, note_scheduler]

@[simp] theorem abandon_world (rs : List Request) : (s.abandon rs).world = s.world := by
  unfold abandon
  induction rs generalizing s with
  | nil => rfl
  | cons r rest ih => rw [List.foldl_cons, ih, note_world]

@[simp] theorem ring_queue : s.ring.scheduler.queue = s.scheduler.queue := rfl

@[simp] theorem ring_flights : s.ring.scheduler.flights = s.scheduler.flights := rfl

@[simp] theorem ring_world : s.ring.world = s.world := rfl

@[simp] theorem arm_queue (delay : Nat) :
    (s.arm setup delay).scheduler.queue = s.scheduler.queue := rfl

@[simp] theorem arm_flights (delay : Nat) :
    (s.arm setup delay).scheduler.flights = s.scheduler.flights := rfl

@[simp] theorem arm_world (delay : Nat) : (s.arm setup delay).world = s.world := rfl

@[simp] theorem update_scheduler (id : Int) (u : Update) :
    (s.update id u).scheduler = s.scheduler := rfl

@[simp] theorem update_now (id : Int) (u : Update) : (s.update id u).world.now = s.world.now :=
  s.world.update_now id u

@[simp] theorem delete_scheduler (id : Int) : (s.delete id).2.scheduler = s.scheduler := rfl

@[simp] theorem delete_now (id : Int) : (s.delete id).2.world.now = s.world.now :=
  s.world.delete_now id

@[simp] theorem breakOff_scheduler (id : Int) : (s.breakOff setup id).scheduler =
    (s.scheduler.breakOff setup.settings s.world.now id).2 := by
  simp [breakOff]

@[simp] theorem breakOff_world (id : Int) : (s.breakOff setup id).world = s.world := by
  simp [breakOff]

@[simp] theorem requeue_scheduler (r : Request) : (s.requeue setup r).scheduler =
    (s.scheduler.requeue setup.settings s.world.now r).2 := by
  simp [requeue]

@[simp] theorem requeue_world (r : Request) : (s.requeue setup r).world = s.world := by
  simp [requeue]

end State

namespace Errand

/-- **Whether an errand may change the books.** -/
def touchesBooks : Errand → Bool
  | review _ | takeNext _ | screen _ _ | landed _ _ _ | putBack _ | claim _ _ | hear _ | settle _ _
  | askParent _ _ | tick _ => true
  | _ => false

/-- Whether an errand may set the watchdog's alarm. -/
def touchesAlarm : Errand → Bool
  | screen _ _ | landed _ _ _ | settle _ _ | rearm _ => true
  | _ => false

/-- Whether an errand begins or ends a round. -/
def touchesRound : Errand → Bool
  | beginRound | endRound => true
  | _ => false

/-- **What an errand leaves alone.** -/
structure Frame (e : Errand) (s s' : State) : Prop where
  now : s'.world.now = s.world.now
  stopped : s'.scheduler.stopped = s.scheduler.stopped
  queue : e.touchesBooks = false → s'.scheduler.queue = s.scheduler.queue
  flights : e.touchesBooks = false → s'.scheduler.flights = s.scheduler.flights
  alarm : e.touchesAlarm = false → s'.scheduler.alarm = s.scheduler.alarm
  inRound : e.touchesRound = false → s'.scheduler.inRound = s.scheduler.inRound

namespace Frame

variable {e : Errand} {s s' : State}

/-- An errand that leaves the scheduler's memory alone. -/
theorem of_scheduler (hs : s'.scheduler = s.scheduler) (hn : s'.world.now = s.world.now) :
    e.Frame s s' where
  now := hn
  stopped := by rw [hs]
  queue _ := by rw [hs]
  flights _ := by rw [hs]
  alarm _ := by rw [hs]
  inRound _ := by rw [hs]

theorem refl (e : Errand) (s : State) : e.Frame s s := of_scheduler rfl rfl

/-- Waking the main loop afterwards adds nothing. -/
theorem ring (h : e.Frame s s') : e.Frame s s'.ring := ⟨h.1, h.2, h.3, h.4, h.5, h.6⟩

end Frame

/-! ### Errand by errand -/

section Perform

variable (setup : Setup) (s : State)

theorem frame_review (a : Attachment) : (review a).Frame s (doReview setup s a).state := by
  unfold doReview
  cases s.scheduler.verdict setup.policy a <;>
    exact ⟨rfl, rfl, nofun, nofun, fun _ => rfl, fun _ => rfl⟩

theorem frame_applyNotice (id : Int) (flags : Flags) :
    (applyNotice id flags).Frame s (doApplyNotice s id flags).state := by
  unfold doApplyNotice
  split_ifs
  · exact Frame.refl _ s
  · split <;> exact Frame.refl _ s

theorem frame_takeNext (aside : List Request) :
    (takeNext aside).Frame s (doTakeNext setup s aside).state := by
  unfold doTakeNext
  split_ifs
  · exact Frame.refl _ s
  · split <;> exact ⟨rfl, rfl, nofun, nofun, fun _ => rfl, fun _ => rfl⟩

theorem frame_screen (r : Request) (aside : List Request) :
    (screen r aside).Frame s (doScreen setup s r aside).state := by
  unfold doScreen
  split
  · exact Frame.refl _ s
  · exact Frame.refl _ s
  · dsimp only
    split_ifs <;> exact ⟨rfl, rfl, nofun, nofun, nofun, fun _ => rfl⟩

theorem frame_handOver (r : Request) (onward : Onward) :
    (handOver r onward).Frame s (doHandOver s r onward).state := by
  unfold doHandOver
  split
  · exact Frame.of_scheduler rfl rfl
  · split <;> exact Frame.of_scheduler rfl rfl

theorem frame_landed (r : Request) (accepted : Bool) (onward : Onward) :
    (landed r accepted onward).Frame s (doLanded setup s r accepted onward).state := by
  unfold doLanded
  split_ifs
  · exact ⟨rfl, rfl, nofun, nofun, nofun, fun _ => rfl⟩
  · refine ⟨?_, ?_, nofun, nofun, nofun, fun _ => ?_⟩
    · simp
    · simp only [State.arm, Scheduler.arm, State.breakOff_scheduler]
      rw [Scheduler.breakOff_eq]
    · simp only [State.arm, Scheduler.arm, State.breakOff_scheduler]
      rw [Scheduler.breakOff_eq]

theorem frame_fetch (job : Job) : (fetch job).Frame s (doFetch s job).state := by
  unfold doFetch
  split <;> exact Frame.of_scheduler rfl rfl

theorem frame_share (account : Account) (total : Nat) (asker : Asker) :
    (share account total asker).Frame s (doShare setup s account total asker).state := by
  unfold doShare
  split
  · exact Frame.refl _ s
  · dsimp only
    split
    · exact Frame.refl _ s
    · split
      · exact Frame.of_scheduler rfl rfl
      · exact ⟨rfl, rfl, fun _ => rfl, fun _ => rfl, fun _ => rfl, fun _ => rfl⟩

theorem frame_budget (account : Account) (asker : Asker) :
    (budget account asker).Frame s (doBudget setup s account asker).state := by
  unfold doBudget
  split_ifs
  · exact Frame.refl _ s
  · split
    · exact Frame.refl _ s
    · split_ifs <;> exact Frame.refl _ s

theorem frame_vet (a : Attachment) (rest : List Attachment) :
    (vet a rest).Frame s (doVet setup s a rest).state := by
  unfold doVet
  split
  · exact Frame.refl _ s
  · exact Frame.refl _ s
  · split_ifs <;> exact Frame.refl _ s

theorem frame_claim (a : Attachment) (rest : List Attachment) :
    (claim a rest).Frame s (doClaim setup s a rest).state := by
  unfold doClaim
  split_ifs
  · exact Frame.refl _ s
  · exact ⟨rfl, rfl, nofun, nofun, fun _ => rfl, fun _ => rfl⟩

theorem frame_hear (report : Report) : (hear report).Frame s (doHear s report).state := by
  unfold doHear
  split
  · exact Frame.refl _ s
  · exact ⟨rfl, rfl, nofun, nofun, fun _ => rfl, fun _ => rfl⟩

theorem frame_settle (id : Int) (status : Status) :
    (settle id status).Frame s (doSettle setup s id status).state := by
  unfold doSettle
  split
  · exact Frame.refl _ s
  · dsimp only
    split_ifs
    · have hother := Scheduler.retryAfterError_eq
      split <;>
      · refine ⟨by simp, ?_, nofun, nofun, nofun, fun _ => ?_⟩
        · simp only [State.ring, Scheduler.ring, State.arm, Scheduler.arm, State.abandon_scheduler]
          rw [hother]
        · simp only [State.ring, Scheduler.ring, State.arm, Scheduler.arm, State.abandon_scheduler]
          rw [hother]
    · exact ⟨rfl, rfl, nofun, nofun, nofun, fun _ => rfl⟩

theorem frame_askParent (r : Request) (record : Option Attachment) :
    (askParent r record).Frame s (doAskParent setup s r record).state := by
  unfold doAskParent
  split
  · refine ⟨by simp, ?_, nofun, nofun, fun _ => ?_, fun _ => ?_⟩ <;>
    · simp only [State.ring, Scheduler.ring, State.requeue_scheduler]
      rw [Scheduler.requeue_eq]
  · exact Frame.refl _ s
  · exact Frame.refl _ s

theorem frame_expunge (id : Int) (status : Status) (record : Option Attachment) :
    (expunge id status record).Frame s (doExpunge s id status record).state := by
  unfold doExpunge
  dsimp only
  split
  · split_ifs <;> exact Frame.of_scheduler rfl (by simp)
  · exact Frame.of_scheduler rfl (by simp)

theorem frame_close (status : Status) (record : Option Attachment) (deleted : Bool) :
    (close status record deleted).Frame s (doClose s status record deleted).state := by
  unfold doClose
  split
  · exact (Frame.refl _ s).ring
  · dsimp only
    split_ifs
    · exact Frame.refl _ s
    · exact ⟨by simp, rfl, fun _ => rfl, fun _ => rfl, fun _ => rfl, fun _ => rfl⟩
    · exact Frame.of_scheduler rfl (by simp)

theorem frame_tick (timeout : Nat) : (tick timeout).Frame s (doTick setup s timeout).state := by
  unfold doTick
  split_ifs
  · exact Frame.refl _ s
  · dsimp only
    have hother := Scheduler.breakOffAll_eq
    refine ⟨?_, ?_, nofun, nofun, fun _ => ?_, fun _ => ?_⟩
    · split_ifs <;> simp
    all_goals
      split_ifs <;> simp only [State.ring, Scheduler.ring, State.abandon_scheduler] <;> rw [hother]

theorem frame_rearm (timeout : Nat) : (rearm timeout).Frame s (doRearm setup s timeout).state := by
  unfold doRearm
  split_ifs
  · exact Frame.refl _ s
  · exact ⟨rfl, rfl, fun _ => rfl, fun _ => rfl, nofun, fun _ => rfl⟩

/-- Taking a ring or listening for one touches the bell alone. -/
theorem frame_listenFor (e wait : Errand) : e.Frame s (listenFor s wait).state := by
  unfold listenFor
  dsimp only
  split_ifs <;> exact ⟨rfl, rfl, fun _ => rfl, fun _ => rfl, fun _ => rfl, fun _ => rfl⟩

theorem frame_endWait (e : Errand) (otherwise : List Errand) :
    e.Frame s (endWait s otherwise).state := by
  unfold endWait
  dsimp only
  split_ifs <;> exact ⟨rfl, rfl, fun _ => rfl, fun _ => rfl, fun _ => rfl, fun _ => rfl⟩

theorem frame_listen : listen.Frame s (doListen s).state := by
  unfold doListen
  split
  · exact Frame.refl _ s
  · dsimp only
    split <;> exact ⟨rfl, rfl, fun _ => rfl, fun _ => rfl, fun _ => rfl, fun _ => rfl⟩

end Perform

/-- **An errand leaves alone what it is not there to change.** -/
theorem perform_frame (setup : Setup) (s : State) (e : Errand) :
    e.Frame s (e.perform setup s).state := by
  cases e with
  | review a => exact frame_review setup s a
  | refuse a => exact Frame.of_scheduler rfl (by simp [perform, doRefuse])
  | sweep =>
    unfold perform doSweep
    dsimp only
    split <;> exact Frame.refl _ s
  | applyNotice id flags => exact frame_applyNotice s id flags
  | beginRound => exact ⟨rfl, rfl, fun _ => rfl, fun _ => rfl, fun _ => rfl, fun h => by cases h⟩
  | takeNext aside => exact frame_takeNext setup s aside
  | screen r aside => exact frame_screen setup s r aside
  | handOver r onward => exact frame_handOver s r onward
  | landed r accepted onward => exact frame_landed setup s r accepted onward
  | putBack aside =>
    exact ⟨rfl, rfl, (fun h => by cases h), (fun h => by cases h), fun _ => rfl, fun _ => rfl⟩
  | lookAhead =>
    unfold perform doLookAhead
    dsimp only
    split_ifs <;> exact Frame.refl _ s
  | browse =>
    unfold perform doBrowse
    dsimp only
    split <;> exact Frame.refl _ s
  | consider candidates =>
    unfold perform doConsider
    dsimp only
    split
    · exact Frame.refl _ s
    · split_ifs <;> exact Frame.refl _ s
  | vet a rest => exact frame_vet setup s a rest
  | discard id => exact Frame.of_scheduler rfl (by simp [perform, doDiscard])
  | budget account asker => exact frame_budget setup s account asker
  | share account total asker => exact frame_share setup s account total asker
  | claim a rest => exact frame_claim setup s a rest
  | endRound => exact ⟨rfl, rfl, fun _ => rfl, fun _ => rfl, fun _ => rfl, fun h => by cases h⟩
  | hear report => exact frame_hear s report
  | recordProgress id percent =>
    unfold perform doRecordProgress
    dsimp only
    split <;> exact Frame.refl _ s
  | write id u => exact Frame.of_scheduler rfl (by simp [perform])
  | settle id status => exact frame_settle setup s id status
  | conclude r status =>
    unfold perform doConclude
    dsimp only
    split
    · exact (Frame.refl _ s).ring
    · split_ifs <;> exact Frame.refl _ s
  | askParent r record => exact frame_askParent setup s r record
  | expunge id status record => exact frame_expunge s id status record
  | close status record deleted => exact frame_close s status record deleted
  | sendIfComplete a =>
    unfold perform doSendIfComplete
    dsimp only
    split <;> exact Frame.refl _ s
  | sendMail account => exact Frame.of_scheduler rfl rfl
  | ring => exact (Frame.refl _ s).ring
  | tick timeout => exact frame_tick setup s timeout
  | rearm timeout => exact frame_rearm setup s timeout
  | loop =>
    unfold perform doLoop
    dsimp only
    split_ifs
    · exact Frame.refl _ s
    · exact Frame.refl _ s
    · exact frame_listenFor s _ _
  | awaitNetwork => exact frame_endWait s _ _
  | pause =>
    unfold perform doPause
    dsimp only
    split_ifs
    · exact Frame.refl _ s
    · exact frame_listenFor s _ _
  | idle deadline => exact frame_endWait s _ _
  | listen => exact frame_listen s
  | fetch job => exact frame_fetch s job
  | answer a => exact Frame.refl _ s

/-! ### What becomes of the world -/

/-- **Which update of a record an errand makes**, if the store takes it. -/
def Updates (id : Int) (u : Update) : Errand → Prop
  | refuse a => id = a.id ∧ u = .finished a.flags .failed
  | write j v => id = j ∧ u = v
  | close _ (some a) false => id = a.id ∧ (u = .saved a ∨ u = .finished a.flags .failed)
  | _ => False

/-- **What an errand changes in the world**: nothing but the carrier, or one record is updated or
deleted. -/
theorem perform_world (setup : Setup) (s : State) (e : Errand) :
    (∃ carrier, (e.perform setup s).state.world = { s.world with carrier := carrier }) ∨
      (∃ id u, e.Updates id u ∧ (e.perform setup s).state.world = s.world.update id u) ∨
      ∃ id, (e.perform setup s).state.world = (s.world.delete id).2 := by
  cases e with
  | refuse a => exact .inr (.inl ⟨_, _, ⟨rfl, rfl⟩, rfl⟩)
  | write id u => exact .inr (.inl ⟨_, _, ⟨rfl, rfl⟩, rfl⟩)
  | discard id => exact .inr (.inr ⟨id, rfl⟩)
  | expunge id status record =>
    refine .inr (.inr ⟨id, ?_⟩)
    rw [perform, doExpunge]
    dsimp only
    split
    · split_ifs <;> rfl
    · rfl
  | close status record deleted =>
    cases record with
    | none => exact .inl ⟨_, rfl⟩
    | some a =>
      rw [perform, doClose]
      dsimp only
      split_ifs with hdeleted hsuccess
      · exact .inl ⟨_, rfl⟩
      · obtain rfl : deleted = false := by simpa using hdeleted
        exact .inr (.inl ⟨_, _, ⟨rfl, .inl rfl⟩, rfl⟩)
      · obtain rfl : deleted = false := by simpa using hdeleted
        exact .inr (.inl ⟨_, _, ⟨rfl, .inr rfl⟩, rfl⟩)
  | _ =>
    refine .inl ?_
    simp only [perform, doReview, doSweep, doApplyNotice, doBeginRound, doTakeNext, doScreen,
      doHandOver, doLanded, doPutBack, doLookAhead, doBrowse, doConsider, doVet, doBudget, doShare,
      doClaim, doEndRound, doHear, doRecordProgress, doSettle, doConclude, doAskParent,
      doSendIfComplete, doSendMail, doTick, doRearm, doLoop, listenFor, endWait, doPause, doListen,
      doFetch]
    repeat' split
    all_goals first | exact ⟨_, rfl⟩ | exact ⟨s.world.carrier, by simp⟩

/-- No errand changes the network. -/
theorem perform_connectivity (setup : Setup) (s : State) (e : Errand) :
    (e.perform setup s).state.world.connectivity = s.world.connectivity := by
  rcases perform_world setup s e with ⟨carrier, hw⟩ | ⟨id, u, -, hw⟩ | ⟨id, hw⟩ <;> rw [hw]
  · exact s.world.update_connectivity id u
  · exact s.world.delete_connectivity id

end Errand

end MailFetch

import MailFetch.Proofs.Aloft

/-! # Sending a request back

A transfer that came to nothing sends its request back: when the carrier refuses it, when the
connection fails, when nothing has been heard of it for too long, and when it did not find a message
that is there after all. The request then waits again with one more retry on its count, or is given
up if it has used up its retries.

* `Errand.SendsBack` says which request an errand sends back. What becomes of the request is the
  same in all four cases: `Errand.perform_returned`, `Errand.givenUp_of_sendsBack`.
* `State.starts` and `State.givenUp` count in the log how often the carrier was asked for a transfer
  and how often its request was given up.
* `Errand.Notes` is what an errand may write into the log. `Errand.log_perform`: it writes nothing
  else there, and takes nothing away. -/

namespace MailFetch

/-- **What a request comes back as** that is sent back at the time `now`: with one more retry and at
the back of its class, unless this is more than it may have, or no record can have its number. -/
def Request.rejoining (r : Request) (limits : Settings) (now : Nat) : Option Request :=
  if limits.maxRetries < r.countRetry.retries ∨ r.id < 0 then none
  else some (r.countRetry.retryCopy now)

/-! ### The queue -/

namespace Queue

/-- A request that comes in place of the one for its attachment. -/
theorem get?_drop_push (q : Queue) (r : Request) (id : Int) :
    ((q.drop r.id).push r).index.get? id =
      if id = r.id then if 0 ≤ r.id then some r else none else q.index.get? id := by
  have hgone : (q.drop r.id).contains r.id = false := by
    rw [contains_eq_false_iff, get?_drop, if_pos rfl]
  rw [get?_push, hgone, get?_drop]
  by_cases hid : id = r.id
  · simp [hid]
  · simp [hid]

/-- **What the queue has of a request that was sent back**: it waits with one more retry, or not at
all if this is more than it may have, or if no record can have its number. -/
structure Returned (limits : Settings) (r : Request) (q : Queue) : Prop where
  again : ∀ x, q.index.get? r.id = some x →
    x.id = r.id ∧ x.retries = r.countRetry.retries ∧ r.countRetry.retries ≤ limits.maxRetries
  waits : 0 ≤ r.id → r.countRetry.retries ≤ limits.maxRetries → q.contains r.id = true

variable {limits : Settings} {r : Request} {q : Queue}

/-- A request with one more retry that joins in place of another. -/
theorem returned_drop_push {x : Request} (hid : x.id = r.id)
    (hretries : x.retries = r.countRetry.retries) (hle : r.countRetry.retries ≤ limits.maxRetries) :
    Returned limits r ((q.drop r.id).push x) := by
  have hget : ∀ j, ((q.drop r.id).push x).index.get? j =
      if j = r.id then if 0 ≤ r.id then some x else none else q.index.get? j := by
    rw [← hid]
    exact q.get?_drop_push x
  refine ⟨fun y hy => ?_, fun hpos _ => ?_⟩
  · rw [hget, if_pos rfl] at hy
    split_ifs at hy
    obtain rfl := Option.some.inj hy
    exact ⟨hid, hretries, hle⟩
  · refine contains_iff.mpr ⟨x, ?_⟩
    rw [hget, if_pos rfl, if_pos hpos]

/-- That it has left the air does not matter. -/
theorem Returned.of_land (h : Returned limits r.land q) : Returned limits r q :=
  ⟨h.again, h.waits⟩

theorem returned_of_rejoining {now : Nat} (h : q.index.get? r.id = r.rejoining limits now) :
    Returned limits r q := by
  unfold Request.rejoining at h
  refine ⟨fun x hx => ?_, fun hpos hle => contains_iff.mpr ⟨r.countRetry.retryCopy now, ?_⟩⟩
  · rw [h] at hx
    split_ifs at hx with hgone
    obtain rfl := Option.some.inj hx
    exact ⟨rfl, rfl, UInt32.not_lt.mp fun hlt => hgone (.inl hlt)⟩
  · rw [h, if_neg]
    rintro (hlt | hneg)
    · exact UInt32.not_lt.mpr hle hlt
    · omega

/-- A request that is given up does not wait. -/
theorem returned_drop (hlt : limits.maxRetries < r.countRetry.retries) :
    Returned limits r (q.drop r.id) := by
  refine ⟨fun y hy => ?_, fun _ hle => absurd hlt (UInt32.not_lt.mpr hle)⟩
  rw [get?_drop, if_pos rfl] at hy
  cases hy

end Queue

namespace Scheduler

variable (s : Scheduler) (limits : Settings) (now : Nat)

theorem requeue_fst (r : Request) : (s.requeue limits now r).1 =
    if limits.maxRetries < r.countRetry.retries then some r.countRetry else none := by
  unfold requeue
  dsimp only
  split_ifs <;> rfl

/-- What the queue has of a request afterwards depends on the request alone. -/
theorem get?_requeue_self (r : Request) :
    (s.requeue limits now r).2.queue.index.get? r.id = r.rejoining limits now := by
  unfold requeue Request.rejoining
  dsimp only
  by_cases hmax : limits.maxRetries < r.countRetry.retries
  · rw [if_pos hmax, if_pos (.inl hmax)]
    exact (s.queue.get?_drop r.id r.id).trans (if_pos rfl)
  · rw [if_neg hmax]
    refine ((s.queue.get?_drop_push (r.countRetry.retryCopy now) r.id).trans (if_pos rfl)).trans ?_
    split_ifs with hpos hgone hgone
    · rcases hgone with hlt | hneg
      · exact absurd hlt hmax
      · exact absurd (show 0 ≤ r.id from hpos) (Int.not_le.mpr hneg)
    · rfl
    · rfl
    · exact absurd (.inr (Int.not_le.mp hpos)) hgone

theorem returned_requeue (r : Request) :
    Queue.Returned limits r (s.requeue limits now r).2.queue :=
  Queue.returned_of_rejoining (s.get?_requeue_self limits now r)

theorem get?_requeue (r : Request) {j : Int} (hj : j ≠ r.id) :
    (s.requeue limits now r).2.queue.index.get? j = s.queue.index.get? j := by
  unfold requeue
  dsimp only
  split_ifs
  · exact (s.queue.get?_drop r.id j).trans (if_neg hj)
  · exact (s.queue.get?_drop_push (r.countRetry.retryCopy now) j).trans (if_neg hj)

theorem matched_requeue (h : s.queue.Matched) (r : Request) :
    (s.requeue limits now r).2.queue.Matched := by
  unfold requeue
  dsimp only
  split_ifs
  · exact h.drop _
  · exact (h.drop _).push _

theorem retryAfterError_fst (r : Request) : (s.retryAfterError limits now r).1 =
    if limits.maxRetries < r.countRetry.retries then .abandoned r.countRetry
    else if limits.delayThreshold < r.countRetry.retries then .delayed else .immediate := by
  unfold retryAfterError
  dsimp only
  split_ifs <;> rfl

theorem returned_retryAfterError (r : Request) :
    Queue.Returned limits r (s.retryAfterError limits now r).2.queue := by
  unfold retryAfterError
  dsimp only
  split_ifs with hmax
  · exact Queue.returned_drop hmax
  all_goals exact Queue.returned_drop_push rfl rfl (UInt32.not_lt.mp hmax)

theorem get?_retryAfterError (r : Request) {j : Int} (hj : j ≠ r.id) :
    (s.retryAfterError limits now r).2.queue.index.get? j = s.queue.index.get? j := by
  unfold retryAfterError
  dsimp only
  split_ifs
  · exact (s.queue.get?_drop r.id j).trans (if_neg hj)
  · exact (s.queue.get?_drop_push
      { r.countRetry with notBefore := some (now + limits.retryDelay) } j).trans (if_neg hj)
  · exact (s.queue.get?_drop_push { r.countRetry with notBefore := none } j).trans (if_neg hj)

theorem matched_retryAfterError (h : s.queue.Matched) (r : Request) :
    (s.retryAfterError limits now r).2.queue.Matched := by
  unfold retryAfterError
  dsimp only
  split_ifs
  · exact h.drop _
  all_goals exact (h.drop _).push _

theorem breakOff_of_none {id : Int} (h : s.flights.get? id = none) :
    s.breakOff limits now id = (none, s) := by
  unfold breakOff
  rw [h]

theorem breakOff_of_some {id : Int} {r : Request} (h : s.flights.get? id = some r) :
    s.breakOff limits now id =
      Scheduler.requeue { s with flights := s.flights.erase id } limits now r.land := by
  unfold breakOff
  rw [h]

theorem matched_breakOff (h : s.queue.Matched) (id : Int) :
    (s.breakOff limits now id).2.queue.Matched := by
  cases hr : s.flights.get? id with
  | none =>
    rw [s.breakOff_of_none limits now hr]
    exact h
  | some r =>
    rw [s.breakOff_of_some limits now hr]
    exact matched_requeue { s with flights := s.flights.erase id } limits now h r.land

theorem matched_breakOffAll (h : s.queue.Matched) (ids : List Int) :
    (s.breakOffAll limits now ids).2.queue.Matched := by
  induction ids generalizing s with
  | nil => exact h
  | cons id rest ih => exact ih _ (s.matched_breakOff limits now h id)

theorem get?_breakOff {id j : Int} (hfiled : s.flights.Filed) (hj : j ≠ id) :
    (s.breakOff limits now id).2.queue.index.get? j = s.queue.index.get? j := by
  cases hr : s.flights.get? id with
  | none => rw [s.breakOff_of_none limits now hr]
  | some r =>
    rw [s.breakOff_of_some limits now hr]
    rw [← hfiled id r hr] at hj
    exact get?_requeue _ limits now r.land hj

/-- What breaking several transfers off does to the others: nothing. -/
theorem breakOffAll_other (hfiled : s.flights.Filed) {ids : List Int} {id : Int}
    (h : id ∉ ids ∨ s.flights.get? id = none) :
    (s.breakOffAll limits now ids).2.queue.index.get? id = s.queue.index.get? id ∧
      (s.breakOffAll limits now ids).1.countP (·.id == id) = 0 := by
  induction ids generalizing s with
  | nil => exact ⟨rfl, rfl⟩
  | cons j rest ih =>
    have hpart := s.part_breakOff limits now j
    have hfiled' : (s.breakOff limits now j).2.flights.Filed :=
      fun i x hx => hfiled i x (hpart i x hx)
    have hrest : id ∉ rest ∨ (s.breakOff limits now j).2.flights.get? id = none := by
      rcases h with hnot | hnone
      · exact .inl fun hmem => hnot (.tail _ hmem)
      · refine .inr (Option.eq_none_iff_forall_ne_some.mpr fun x hx => ?_)
        rw [hpart id x hx] at hnone
        cases hnone
    obtain ⟨hqueue, hcount⟩ := ih (s.breakOff limits now j).2 hfiled' hrest
    by_cases hj : id = j
    · subst hj
      have hnone : s.flights.get? id = none := h.resolve_left fun hnot => hnot List.mem_cons_self
      have hkept := s.breakOff_of_none limits now hnone
      unfold breakOffAll
      dsimp only
      rw [List.countP_append, hcount, hqueue, hkept]
      exact ⟨rfl, rfl⟩
    · have hfirst : (s.breakOff limits now j).1.toList.countP (·.id == id) = 0 := by
        refine List.countP_eq_zero.mpr fun x hx => ?_
        cases hr : s.flights.get? j with
        | none =>
          rw [s.breakOff_of_none limits now hr] at hx
          cases hx
        | some r =>
          rw [s.breakOff_of_some limits now hr, requeue_fst] at hx
          split_ifs at hx
          · have hxr : x = r.land.countRetry := by simpa using hx
            have hxid : x.id = j := by
              rw [hxr]
              exact hfiled j r hr
            simpa [hxid] using Ne.symm hj
          · cases hx
      unfold breakOffAll
      dsimp only
      rw [List.countP_append, hfirst, hcount, hqueue, s.get?_breakOff limits now hfiled hj]
      exact ⟨rfl, rfl⟩

/-- What breaking several transfers off does to each of them is what breaking it off alone does. -/
theorem breakOffAll_self (hfiled : s.flights.Filed) {ids : List Int} {r : Request}
    (hmem : r.id ∈ ids) (hr : s.flights.get? r.id = some r) :
    (s.breakOffAll limits now ids).2.queue.index.get? r.id = r.land.rejoining limits now ∧
      (s.breakOffAll limits now ids).1.countP (·.id == r.id) =
        if limits.maxRetries < r.countRetry.retries then 1 else 0 := by
  induction ids generalizing s with
  | nil => cases hmem
  | cons j rest ih =>
    have hpart := s.part_breakOff limits now j
    have hfiled' : (s.breakOff limits now j).2.flights.Filed :=
      fun i x hx => hfiled i x (hpart i x hx)
    unfold breakOffAll
    dsimp only
    rw [List.countP_append]
    by_cases hj : r.id = j
    · subst hj
      obtain ⟨hqueue, hcount⟩ := breakOffAll_other (s.breakOff limits now r.id).2 limits now hfiled'
        (show r.id ∉ rest ∨ _ from .inr (s.get?_breakOff_self limits now r.id))
      rw [hqueue, hcount, s.breakOff_of_some limits now hr, requeue_fst]
      refine ⟨get?_requeue_self _ limits now r.land, ?_⟩
      have hretries : r.land.countRetry.retries = r.countRetry.retries := rfl
      have hid : r.land.countRetry.id = r.id := rfl
      rw [hretries]
      split_ifs
      · simp [hid]
      · rfl
    · have hr' : (s.breakOff limits now j).2.flights.get? r.id = some r := by
        rw [flights_breakOff]
        split_ifs
        · rw [Flights.get?_erase, if_neg hj]
          exact hr
        · exact hr
      have hmem' : r.id ∈ rest := (List.mem_cons.mp hmem).resolve_left hj
      obtain ⟨hback, hcount⟩ := ih (s.breakOff limits now j).2 hfiled' hmem' hr'
      have hnone := (breakOffAll_other s limits now hfiled
        (show r.id ∉ [j] ∨ _ from .inl (by simpa using hj))).2
      have hfirst : (s.breakOff limits now j).1.toList.countP (·.id == r.id) = 0 := by
        simpa [breakOffAll] using hnone
      rw [hfirst, hcount, Nat.zero_add]
      exact ⟨hback, rfl⟩

/-- **Of several transfers that are broken off**, each sends its request back, and reports it once
if it has used up its retries. -/
theorem breakOffAll_mem (hfiled : s.flights.Filed) {ids : List Int} {r : Request}
    (hmem : r.id ∈ ids) (hr : s.flights.get? r.id = some r) :
    Queue.Returned limits r (s.breakOffAll limits now ids).2.queue ∧
      (s.breakOffAll limits now ids).1.countP (·.id == r.id) =
        if limits.maxRetries < r.countRetry.retries then 1 else 0 :=
  (s.breakOffAll_self limits now hfiled hmem hr).imp_left fun hback =>
    (Queue.returned_of_rejoining (r := r.land) hback).of_land

end Scheduler

/-! ### The log -/

namespace Event

/-- Whether the carrier was asked for the transfer of an attachment. -/
def asksFor (id : Int) : Event → Bool
  | start r _ => r.id == id
  | _ => false

/-- Whether the request for an attachment was given up. -/
def givesUp (id : Int) : Event → Bool
  | abandoned r => r.id == id
  | _ => false

end Event

namespace State

/-- **How often the carrier was asked** for the transfer of an attachment. -/
def starts (s : State) (id : Int) : Nat := s.log.countP fun l => l.event.asksFor id

/-- **How often a request was given up** for an attachment. -/
def givenUp (s : State) (id : Int) : Nat := s.log.countP fun l => l.event.givesUp id

variable (s : State) (id : Int)

theorem starts_note (e : Event) :
    (s.note e).starts id = s.starts id + (e.asksFor id).toNat := by
  unfold note starts
  rw [List.countP_cons]
  cases e.asksFor id <;> rfl

theorem givenUp_note (e : Event) :
    (s.note e).givenUp id = s.givenUp id + (e.givesUp id).toNat := by
  unfold note givenUp
  rw [List.countP_cons]
  cases e.givesUp id <;> rfl

theorem givenUp_abandon (rs : List Request) :
    (s.abandon rs).givenUp id = s.givenUp id + rs.countP (·.id == id) := by
  unfold abandon
  induction rs generalizing s with
  | nil => rfl
  | cons r rest ih =>
    rw [List.foldl_cons, ih, givenUp_note, List.countP_cons, Event.givesUp, Nat.add_assoc,
      Nat.add_comm (List.countP _ rest)]
    cases r.id == id <;> rfl

theorem log_abandon (rs : List Request) : (s.abandon rs).log =
    (rs.map fun r => ⟨s.world.now, .abandoned r⟩).reverse ++ s.log := by
  unfold abandon
  induction rs generalizing s with
  | nil => rfl
  | cons r rest ih =>
    rw [List.foldl_cons, ih, List.map_cons, List.reverse_cons, List.append_assoc]
    rfl

/-- A state with the same log counts the same. -/
theorem starts_congr {s s' : State} (h : s'.log = s.log) : s'.starts id = s.starts id := by
  rw [starts, h, starts]

theorem givenUp_congr {s s' : State} (h : s'.log = s.log) : s'.givenUp id = s.givenUp id := by
  rw [givenUp, h, givenUp]

end State

namespace Errand

variable {setup : Setup} {s : State} {e : Errand}

/-! ### Who is sent back -/

/-- **Which request an errand sends back.** -/
def SendsBack (s : State) (r : Request) : Errand → Prop
  | landed x accepted _ => accepted = false ∧ s.scheduler.flights.get? x.id = some r
  | settle id status => status = .connectionError ∧ s.scheduler.flights.get? id = some r
  | askParent x _ => x = r ∧ ∃ m, s.world.message x.message = .ok (some m)
  | tick timeout =>
    s.scheduler.stopped = false ∧ s.scheduler.flights.get? r.id = some r ∧
      r.id ∈ s.scheduler.flights.stalled timeout s.world.now
  | _ => False

theorem queue_tick (timeout : Nat) (hstopped : s.scheduler.stopped = false) :
    (doTick setup s timeout).state.scheduler.queue =
      (s.scheduler.breakOffAll setup.settings s.world.now
        (s.scheduler.flights.stalled timeout s.world.now)).2.queue := by
  unfold doTick
  rw [if_neg (by rw [hstopped]; nofun)]
  dsimp only
  split_ifs <;> simp only [State.ring_queue, State.abandon_scheduler]

theorem givenUp_tick (timeout : Nat) (id : Int) (hstopped : s.scheduler.stopped = false) :
    (doTick setup s timeout).state.givenUp id = s.givenUp id +
      (s.scheduler.breakOffAll setup.settings s.world.now
        (s.scheduler.flights.stalled timeout s.world.now)).1.countP (·.id == id) := by
  unfold doTick
  rw [if_neg (by rw [hstopped]; nofun)]
  dsimp only
  split_ifs <;> exact State.givenUp_abandon _ id _

/-- Whether an errand may give a request up. -/
def mayGiveUp : Errand → Bool
  | landed _ _ _ | settle _ _ | askParent _ _ | tick _ => true
  | _ => false

theorem givenUp_of_not_mayGiveUp (he : e.mayGiveUp = false) (id : Int) :
    (e.perform setup s).state.givenUp id = s.givenUp id := by
  cases e with
  | landed _ _ _ | settle _ _ | askParent _ _ | tick _ => cases he
  | _ =>
    simp only [perform, doReview, doRefuse, doSweep, doApplyNotice, doBeginRound, doTakeNext,
      doScreen, doHandOver, doPutBack, doLookAhead, doBrowse, doConsider, doVet, doDiscard,
      doBudget, doShare, doClaim, doEndRound, doHear, doRecordProgress, doConclude, doExpunge,
      doClose, doSendIfComplete, doSendMail, doRearm, doLoop, listenFor, endWait, doPause,
      doListen, doFetch]
    repeat' split
    all_goals rfl

/-- **A request that is sent back** waits again with one more retry, unless it has used up its
retries. -/
theorem perform_returned (setup : Setup) (hfiled : s.scheduler.flights.Filed) {r : Request}
    (h : e.SendsBack s r) :
    Queue.Returned setup.settings r (e.perform setup s).state.scheduler.queue := by
  cases e with
  | landed x accepted onward =>
    obtain ⟨rfl, hr⟩ := h
    change Queue.Returned _ r (s.breakOff setup x.id).scheduler.queue
    rw [State.breakOff_scheduler, Scheduler.breakOff_of_some _ _ _ hr]
    exact (Scheduler.returned_requeue _ _ _ r.land).of_land
  | settle id status =>
    obtain ⟨rfl, hr⟩ := h
    rw [perform, doSettle, hr]
    dsimp only
    rw [if_pos rfl]
    have hback := Scheduler.returned_retryAfterError { s.scheduler with
      flights := s.scheduler.flights.erase id
      failures := s.scheduler.failures.settle id (Status.connectionError == Status.success) }
      setup.settings s.world.now r.land
    split
    · simp only [State.ring_queue, State.abandon_scheduler]
      exact hback.of_land
    · exact hback.of_land
    · exact hback.of_land
  | askParent x record =>
    obtain ⟨rfl, m, hm⟩ := h
    rw [perform, doAskParent, hm]
    simp only [State.ring_queue, State.requeue_scheduler]
    exact Scheduler.returned_requeue _ _ _ x
  | tick timeout =>
    obtain ⟨hstopped, hr, hmem⟩ := h
    rw [perform, queue_tick timeout hstopped]
    exact (Scheduler.breakOffAll_mem _ _ _ hfiled hmem hr).1
  | _ => exact h.elim

/-- **A request that is sent back is given up** if it has used up its retries, and this is reported
once. -/
theorem givenUp_of_sendsBack (setup : Setup) (hfiled : s.scheduler.flights.Filed) {r : Request}
    (h : e.SendsBack s r) :
    (e.perform setup s).state.givenUp r.id = s.givenUp r.id +
      if setup.settings.maxRetries < r.countRetry.retries then 1 else 0 := by
  have hself : ∀ x : Request, x.id = r.id →
      (if setup.settings.maxRetries < r.countRetry.retries then some x else none).toList.countP
        (·.id == r.id) = if setup.settings.maxRetries < r.countRetry.retries then 1 else 0 := by
    intro x hx
    split_ifs
    · simp [hx]
    · rfl
  cases e with
  | landed x accepted onward =>
    obtain ⟨rfl, hr⟩ := h
    change (s.breakOff setup x.id).givenUp r.id = _
    unfold State.breakOff
    dsimp only
    rw [Scheduler.breakOff_of_some _ _ _ hr, State.givenUp_abandon, Scheduler.requeue_fst]
    exact congrArg _ (hself r.land.countRetry rfl)
  | settle id status =>
    obtain ⟨rfl, hr⟩ := h
    rw [perform, doSettle, hr]
    dsimp only
    rw [if_pos rfl, Scheduler.retryAfterError_fst]
    have hretries : r.land.countRetry.retries = r.countRetry.retries := rfl
    rw [hretries]
    split_ifs with hmax hdelay
    · exact (State.givenUp_abandon _ r.id [r.land.countRetry]).trans (by
        rw [List.countP_singleton]
        simp [Request.countRetry, Request.land, State.givenUp])
    · rfl
    · rfl
  | askParent x record =>
    obtain ⟨rfl, m, hm⟩ := h
    rw [perform, doAskParent, hm]
    change (s.requeue setup x).givenUp x.id = _
    unfold State.requeue
    dsimp only
    rw [State.givenUp_abandon, Scheduler.requeue_fst]
    exact congrArg _ (hself x.countRetry rfl)
  | tick timeout =>
    obtain ⟨hstopped, hr, hmem⟩ := h
    rw [perform, givenUp_tick timeout r.id hstopped]
    exact congrArg _ (Scheduler.breakOffAll_mem _ _ _ hfiled hmem hr).2
  | _ => exact h.elim

/-- **Nobody else is given up.** -/
theorem givenUp_of_not_sendsBack (setup : Setup) (hfiled : s.scheduler.flights.Filed) {id : Int}
    (h : ∀ r, e.SendsBack s r → r.id ≠ id) :
    (e.perform setup s).state.givenUp id = s.givenUp id := by
  have hother : ∀ x : Request, ∀ (p : Prop) [Decidable p], x.id ≠ id →
      (if p then some x else none).toList.countP (·.id == id) = 0 := by
    intro x p _ hx
    split_ifs
    · simpa using hx
    · rfl
  cases e with
  | landed x accepted onward =>
    cases accepted with
    | true => rfl
    | false =>
      change (s.breakOff setup x.id).givenUp id = _
      unfold State.breakOff
      dsimp only
      cases hr : s.scheduler.flights.get? x.id with
      | none =>
        rw [Scheduler.breakOff_of_none _ _ _ hr]
        rfl
      | some r =>
        rw [Scheduler.breakOff_of_some _ _ _ hr, State.givenUp_abandon, Scheduler.requeue_fst,
          hother r.land.countRetry _ (h r ⟨rfl, hr⟩)]
        rfl
  | settle j status =>
    rw [perform, doSettle]
    split
    · rfl
    next r hr =>
      dsimp only
      split_ifs with hstatus
      · rw [Scheduler.retryAfterError_fst]
        split_ifs
        · have hne : r.land.countRetry.id ≠ id := h r ⟨hstatus, hr⟩
          exact (State.givenUp_abandon _ id [r.land.countRetry]).trans (by
            rw [List.countP_singleton]
            simp [hne, State.givenUp])
        · rfl
        · rfl
      · rfl
  | askParent x record =>
    rw [perform, doAskParent]
    split
    next m hm =>
      change (s.requeue setup x).givenUp id = _
      unfold State.requeue
      dsimp only
      rw [State.givenUp_abandon, Scheduler.requeue_fst, hother x.countRetry _ (h x ⟨rfl, m, hm⟩)]
      rfl
    · rfl
    · rfl
  | tick timeout =>
    by_cases hstopped : s.scheduler.stopped = true
    · rw [perform, doTick, if_pos hstopped]
    · have hrunning : s.scheduler.stopped = false := by simpa using hstopped
      rw [perform, givenUp_tick timeout id hrunning]
      have hnot : id ∉ s.scheduler.flights.stalled timeout s.world.now := by
        intro hmem
        obtain ⟨r, hr, -⟩ := (Flights.mem_stalled hfiled).mp hmem
        obtain rfl := hfiled id r hr
        exact h r ⟨hrunning, hr, hmem⟩ rfl
      rw [(Scheduler.breakOffAll_other _ _ _ hfiled (.inl hnot)).2]
      rfl
  | _ => exact givenUp_of_not_mayGiveUp rfl id

/-! ### What becomes of the log -/

/-- **What an errand may write into the log**: each kind of event has its kind of errand, but for
what the user is told. -/
def Notes (e : Errand) : Event → Prop
  | .start r _ => ∃ onward, e = handOver r onward
  | .mail account => e = sendMail account
  | .update id u => e.Updates id u
  | .delete id => e = discard id ∨ ∃ status record, e = expunge id status record
  | .scan account => ∃ owner total asker, e = share owner total asker ∧ owner.id = account
  | .forwardFailed _ | .abandoned _ => True

/-- **The log is only added to**, and only with what the errand may write. -/
def AddsTo (e : Errand) (s s' : State) : Prop :=
  ∃ news, s'.log = news ++ s.log ∧ ∀ l ∈ news, e.Notes l.event

theorem AddsTo.of_log {s' : State} (h : s'.log = s.log) : e.AddsTo s s' :=
  ⟨[], h, fun _ hl => by cases hl⟩

theorem AddsTo.note {s' : State} {l : LogEntry} (h : s'.log = l :: s.log) (hl : e.Notes l.event) :
    e.AddsTo s s' :=
  ⟨[l], h, fun _ hx => List.mem_singleton.mp hx ▸ hl⟩

theorem AddsTo.abandon {s' t : State} {rs : List Request} (h : s'.log = (t.abandon rs).log)
    (ht : t.log = s.log) : e.AddsTo s s' := by
  refine ⟨_, by rw [h, State.log_abandon, ht], fun l hl => ?_⟩
  obtain ⟨r, -, rfl⟩ := List.mem_map.mp (List.mem_reverse.mp hl)
  trivial

/-- **Every errand only adds to the log** what it may write there. -/
theorem log_perform (setup : Setup) (s : State) (e : Errand) :
    e.AddsTo s (e.perform setup s).state := by
  cases e with
  | handOver r onward =>
    rw [perform, doHandOver]
    split
    · exact .note rfl ⟨onward, rfl⟩
    · split <;> exact .note rfl ⟨onward, rfl⟩
  | landed r accepted onward =>
    rw [perform]
    unfold doLanded
    split_ifs
    · exact .of_log rfl
    · exact .abandon rfl rfl
  | settle id status =>
    rw [perform, doSettle]
    split
    · exact .of_log rfl
    · dsimp only
      split_ifs
      · split
        · exact .abandon rfl rfl
        · exact .of_log rfl
        · exact .of_log rfl
      · exact .of_log rfl
  | askParent r record =>
    rw [perform, doAskParent]
    split
    · exact .abandon rfl rfl
    · exact .of_log rfl
    · exact .of_log rfl
  | tick timeout =>
    rw [perform, doTick]
    split_ifs
    · exact .of_log rfl
    · dsimp only
      split_ifs <;> exact .abandon rfl rfl
  | share account total asker =>
    rw [perform, doShare]
    dsimp only
    split
    · exact .of_log rfl
    · split
      · exact .of_log rfl
      · split <;> exact .note rfl ⟨account, total, asker, rfl, rfl⟩
  | refuse a => exact .note rfl ⟨rfl, rfl⟩
  | discard id => exact .note rfl (.inl rfl)
  | write id u => exact .note rfl ⟨rfl, rfl⟩
  | sendMail account => exact .note rfl rfl
  | expunge id status record =>
    have hdelete : (expunge id status record).Notes (.delete id) := .inr ⟨status, record, rfl⟩
    rw [perform, doExpunge]
    dsimp only
    split
    · split_ifs
      · exact ⟨[_, _], rfl, by simpa using ⟨trivial, hdelete⟩⟩
      · exact .note rfl hdelete
    · exact .note rfl hdelete
  | close status record deleted =>
    cases record with
    | none => exact .of_log rfl
    | some a =>
      rw [perform, doClose]
      dsimp only
      split_ifs with hdeleted hsuccess
      · exact .of_log rfl
      · obtain rfl : deleted = false := by simpa using hdeleted
        exact .note rfl ⟨rfl, .inl rfl⟩
      · obtain rfl : deleted = false := by simpa using hdeleted
        exact .note rfl ⟨rfl, .inr rfl⟩
  | _ =>
    refine .of_log ?_
    simp only [perform, doReview, doSweep, doApplyNotice, doBeginRound, doTakeNext, doScreen,
      doPutBack, doLookAhead, doBrowse, doConsider, doVet, doBudget, doClaim, doEndRound, doHear,
      doRecordProgress, doConclude, doSendIfComplete, doRearm, doLoop, listenFor, endWait, doPause,
      doListen, doFetch]
    repeat' split
    all_goals rfl

theorem suffix_perform (setup : Setup) (s : State) (e : Errand) :
    s.log <:+ (e.perform setup s).state.log := by
  obtain ⟨news, hlog, -⟩ := log_perform setup s e
  exact ⟨news, hlog.symm⟩

/-- What an errand may not note, nobody reads more often in the log afterwards. -/
theorem filterMap_log {α : Type} {f : Event → Option α} (h : ∀ ev, e.Notes ev → f ev = none) :
    ((e.perform setup s).state.log.filterMap fun l => f l.event) =
      s.log.filterMap fun l => f l.event := by
  obtain ⟨news, hlog, hnotes⟩ := log_perform setup s e
  have hnone : (news.filterMap fun l => f l.event) = [] :=
    List.filterMap_eq_nil_iff.mpr fun l hl => h _ (hnotes l hl)
  rw [hlog, List.filterMap_append, hnone, List.nil_append]

theorem countP_log {p : Event → Bool} (h : ∀ ev, e.Notes ev → p ev = false) :
    ((e.perform setup s).state.log.countP fun l => p l.event) =
      s.log.countP fun l => p l.event := by
  obtain ⟨news, hlog, hnotes⟩ := log_perform setup s e
  have hnone : (news.countP fun l => p l.event) = 0 :=
    List.countP_eq_zero.mpr fun l hl => by simp [h _ (hnotes l hl)]
  rw [hlog, List.countP_append, hnone, Nat.zero_add]

/-! ### Who asks the carrier -/

/-- Whether an errand asks the carrier for the transfer of an attachment. -/
def asks (id : Int) : Errand → Bool
  | handOver r _ => r.id == id
  | _ => false

/-- **The carrier is asked where a request is handed over**, and nowhere else. -/
theorem starts_perform (setup : Setup) (s : State) (e : Errand) (id : Int) :
    (e.perform setup s).state.starts id = s.starts id + (e.asks id).toNat := by
  cases e with
  | handOver r onward =>
    rw [perform, doHandOver]
    split
    · exact s.starts_note id (.start r _)
    · split
      · exact s.starts_note id (.start r false)
      · exact s.starts_note id (.start r true)
  | _ =>
    refine countP_log fun ev hev => ?_
    cases ev with
    | start r accepted =>
      obtain ⟨onward, he⟩ := hev
      cases he
    | _ => rfl

end Errand

end MailFetch

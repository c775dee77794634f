import MailFetch.Proofs.Crew
import MailFetch.Proofs.OnePlace

/-! # A tick while the network is down

While the network is down, a tick of the watchdog does one thing: it sends back whoever has been
silent for too long. `State.Ticked` says what it leaves of the state, and `Crew.tick_sorts_out` that
it does this from every state that a run reaches, and that it does not matter in which order those
are sent back.

Two requests for the same attachment are the same request: both books are kept by attachments, and
so is what is said here. What becomes of one of several requests that are sent back depends on this
request alone (`Scheduler.breakOffAll_self`), and nothing becomes of the others
(`Scheduler.breakOffAll_other`). Since the queue is determined by who waits (`Queue.ext_get?`), the
order drops out. -/

namespace MailFetch

/-! ### A queue is determined by who waits -/

namespace Queue

theorem mem_order {q : Queue} (hq : q.Matched) {k : SortKey} :
    k ∈ q.order ↔ ∃ r, q.index.get? k.id = some r ∧ r.sortKey = k := by
  refine ⟨hq.keyed k, ?_⟩
  rintro ⟨r, hr, rfl⟩
  exact (hq.listed _ r hr).2.2

/-- **Two queues in which the same requests wait** are the same, if their halves agree. -/
theorem ext_get? {q q' : Queue} (hq : q.Matched) (hq' : q'.Matched)
    (h : ∀ id, q.index.get? id = q'.index.get? id) : q = q' := by
  have hindex : q.index = q'.index := Table.ext_get? h
  have hdistinct {p : Queue} (hp : p.Matched) : p.order.Nodup :=
    hp.sorted.imp fun {a b} (hab : a.before b = true) (heq : a = b) =>
      SortKey.not_before_self b (heq ▸ hab)
  have hperm : q.order.Perm q'.order := by
    rw [List.perm_ext_iff_of_nodup (hdistinct hq) (hdistinct hq')]
    intro k
    rw [mem_order hq, mem_order hq', hindex]
  have horder : q.order = q'.order :=
    hperm.eq_of_pairwise (fun a b _ _ hab hba =>
      absurd (SortKey.before_trans hab hba) (SortKey.not_before_self a)) hq.sorted hq'.sorted
  cases q
  cases q'
  congr

end Queue

/-! ### Several transfers that are broken off -/

namespace Scheduler

variable (s : Scheduler) (limits : Settings) (now : Nat)

/-- Whoever is not broken off stays in flight. -/
theorem get?_breakOffAll_other {ids : List Int} {id : Int} (h : id ∉ ids) :
    (s.breakOffAll limits now ids).2.flights.get? id = s.flights.get? id := by
  induction ids generalizing s with
  | nil => rfl
  | cons j rest ih =>
    have hj : id ≠ j := fun hj => h (hj ▸ List.mem_cons_self)
    refine (ih (s.breakOff limits now j).2 fun hrest => h (.tail _ hrest)).trans ?_
    rw [flights_breakOff]
    split_ifs
    · rw [Flights.get?_erase, if_neg hj]
    · rfl

/-- **It does not matter in which order transfers are broken off.** -/
theorem breakOffAll_congr (hq : s.queue.Matched) (hfiled : s.flights.Filed) {ids ids' : List Int}
    (h : ∀ id, id ∈ ids ↔ id ∈ ids') :
    (s.breakOffAll limits now ids).2 = (s.breakOffAll limits now ids').2 ∧
      ∀ id, (s.breakOffAll limits now ids).1.countP (·.id == id) =
        (s.breakOffAll limits now ids').1.countP (·.id == id) := by
  have hsame : ∀ id, (s.breakOffAll limits now ids).2.queue.index.get? id =
        (s.breakOffAll limits now ids').2.queue.index.get? id ∧
      (s.breakOffAll limits now ids).1.countP (·.id == id) =
        (s.breakOffAll limits now ids').1.countP (·.id == id) := by
    intro id
    by_cases hother : id ∉ ids ∨ s.flights.get? id = none
    · have hother' : id ∉ ids' ∨ s.flights.get? id = none := hother.imp_left (mt (h id).mpr)
      obtain ⟨hqueue, hcount⟩ := s.breakOffAll_other limits now hfiled hother
      obtain ⟨hqueue', hcount'⟩ := s.breakOffAll_other limits now hfiled hother'
      exact ⟨hqueue.trans hqueue'.symm, hcount.trans hcount'.symm⟩
    · rw [not_or, not_not] at hother
      obtain ⟨r, hr⟩ := Option.ne_none_iff_exists'.mp hother.2
      obtain rfl := hfiled id r hr
      obtain ⟨hqueue, hcount⟩ := s.breakOffAll_self limits now hfiled hother.1 hr
      obtain ⟨hqueue', hcount'⟩ := s.breakOffAll_self limits now hfiled ((h r.id).mp hother.1) hr
      exact ⟨hqueue.trans hqueue'.symm, hcount.trans hcount'.symm⟩
  have hqueue := Queue.ext_get? (s.matched_breakOffAll limits now hq ids)
    (s.matched_breakOffAll limits now hq ids') fun id => (hsame id).1
  have hflights : (s.breakOffAll limits now ids).2.flights =
      (s.breakOffAll limits now ids').2.flights := by
    refine congrArg Flights.mk (Table.ext_get? fun id => ?_)
    by_cases hid : id ∈ ids
    · exact (s.get?_breakOffAll limits now hid).trans
        (s.get?_breakOffAll limits now ((h id).mp hid)).symm
    · exact (s.get?_breakOffAll_other limits now hid).trans
        (s.get?_breakOffAll_other limits now (mt (h id).mpr hid)).symm
  refine ⟨?_, fun id => (hsame id).2⟩
  rw [breakOffAll_eq, hqueue, hflights, ← breakOffAll_eq]

end Scheduler

/-! ### What a tick does -/

/-- **What a tick makes of a state** in which the network is down, and a scheduler that runs:

* those stay in flight, as they are, who have not been silent for longer than the timeout;
* any other one is given up and in neither book if it has no retry left, and waits with one more
  retry and at a strictly later place otherwise; whoever else waited for its attachment gives way;
* for all other attachments, whoever waits goes on to wait, as it is, and nobody is given up;
* the ledgers and the world stay as they are. -/
structure State.Ticked (setup : Setup) (timeout : Nat) (s s' : State) : Prop where
  flights : ∀ id r, s'.scheduler.flights.get? id = some r ↔
    s.scheduler.flights.get? id = some r ∧ r.silence s.world.now ≤ timeout
  silent : ∀ id r, s.scheduler.flights.get? id = some r → timeout < r.silence s.world.now →
    if setup.settings.maxRetries < r.retries + 1 then
      s'.Unbooked id ∧ s'.givenUp id = s.givenUp id + 1
    else
      s'.givenUp id = s.givenUp id ∧ ∃ time, r.enqueuedAt < time ∧
        s'.scheduler.queue.index.get? id =
          some { r with active := false, retries := r.retries + 1, enqueuedAt := time }
  others : ∀ id, (∀ r, s.scheduler.flights.get? id = some r → r.silence s.world.now ≤ timeout) →
    s'.scheduler.queue.index.get? id = s.scheduler.queue.index.get? id ∧
      s'.givenUp id = s.givenUp id
  ledgers : s'.scheduler.usage = s.scheduler.usage ∧ s'.scheduler.failures = s.scheduler.failures
  world : s'.world = s.world

namespace Errand

variable {setup : Setup} {s : State} {timeout : Nat}

/-- A tick leaves the ledgers and the world alone. -/
theorem ledgers_tick (setup : Setup) (s : State) (timeout : Nat) :
    (doTick setup s timeout).state.scheduler.usage = s.scheduler.usage ∧
      (doTick setup s timeout).state.scheduler.failures = s.scheduler.failures ∧
      (doTick setup s timeout).state.world = s.world := by
  unfold doTick
  split_ifs
  · exact ⟨rfl, rfl, rfl⟩
  · dsimp only
    have hbooks := s.scheduler.breakOffAll_eq setup.settings s.world.now
      (s.scheduler.flights.stalled timeout s.world.now)
    split_ifs
    all_goals
      simp only [State.ring, Scheduler.ring, State.abandon_scheduler, State.abandon_world]
      rw [hbooks]
      exact ⟨rfl, rfl, trivial⟩

/-- **Whoever has been silent for too long** is given up without a retry left, and waits with one
more retry and at a later place otherwise. -/
theorem sent_back_tick {r : Request} (hfiled : s.scheduler.flights.Filed)
    (hrunning : s.scheduler.stopped = false) (hr : s.scheduler.flights.get? r.id = some r)
    (hsilent : timeout < r.silence s.world.now) (hid : 0 ≤ r.id) :
    if setup.settings.maxRetries < r.retries + 1 then
      (doTick setup s timeout).state.Unbooked r.id ∧
        (doTick setup s timeout).state.givenUp r.id = s.givenUp r.id + 1
    else
      (doTick setup s timeout).state.givenUp r.id = s.givenUp r.id ∧ ∃ time, r.enqueuedAt < time ∧
        (doTick setup s timeout).state.scheduler.queue.index.get? r.id =
          some { r with active := false, retries := r.retries + 1, enqueuedAt := time } := by
  have hmem := (Flights.mem_stalled hfiled).mpr ⟨r, hr, hsilent⟩
  obtain ⟨hqueue, hcount⟩ := s.scheduler.breakOffAll_self setup.settings s.world.now hfiled hmem hr
  rw [State.Unbooked, givenUp_tick timeout r.id hrunning, hcount, queue_tick timeout hrunning,
    flights_tick timeout hrunning, hqueue, Queue.contains_eq_false_iff, hqueue,
    Flights.contains_eq_false_iff, Scheduler.get?_breakOffAll _ _ _ hmem]
  unfold Request.rejoining
  have hretries : r.countRetry.retries = r.retries + 1 := rfl
  have hland : r.land.countRetry.retries = r.retries + 1 := rfl
  rw [hretries, hland]
  by_cases hmax : setup.settings.maxRetries < r.retries + 1
  · rw [if_pos hmax, if_pos hmax, if_pos (.inl hmax)]
    exact ⟨⟨rfl, rfl⟩, rfl⟩
  · have hgone : ¬ (setup.settings.maxRetries < r.retries + 1 ∨ r.land.id < 0) :=
      not_or.mpr ⟨hmax, Int.not_lt.mpr hid⟩
    rw [if_neg hmax, if_neg hmax, if_neg hgone]
    exact ⟨rfl, _, r.land.countRetry.enqueuedAt_lt_retryCopy s.world.now, rfl⟩

/-- **A tick sends back whoever has been silent for too long**, and nobody else. -/
theorem ticked_tick (hfiled : s.scheduler.flights.Filed) (hrunning : s.scheduler.stopped = false)
    (hids : ∀ id r, s.scheduler.flights.get? id = some r → 0 ≤ id) :
    s.Ticked setup timeout ((tick timeout).perform setup s).state := by
  rw [perform]
  have hloud {id : Int} {r : Request} (hr : s.scheduler.flights.get? id = some r) :
      id ∉ s.scheduler.flights.stalled timeout s.world.now ↔ r.silence s.world.now ≤ timeout :=
    Flights.not_mem_stalled hfiled hr
  obtain ⟨husage, hfailures, hworld⟩ := ledgers_tick setup s timeout
  refine ⟨fun id r => ?_, fun id r hr hlt => ?_, fun id hloud' => ?_, ⟨husage, hfailures⟩, hworld⟩
  · rw [flights_tick timeout hrunning]
    by_cases hid : id ∈ s.scheduler.flights.stalled timeout s.world.now
    · rw [Scheduler.get?_breakOffAll _ _ _ hid]
      refine ⟨fun h => (by cases h), fun h => absurd hid ((hloud h.1).mpr h.2)⟩
    · rw [Scheduler.get?_breakOffAll_other _ _ _ hid]
      exact ⟨fun hr => ⟨hr, (hloud hr).mp hid⟩, And.left⟩
  · obtain rfl := hfiled id r hr
    exact sent_back_tick hfiled hrunning hr hlt (hids r.id r hr)
  · have hother : id ∉ s.scheduler.flights.stalled timeout s.world.now ∨
        s.scheduler.flights.get? id = none := by
      cases hr : s.scheduler.flights.get? id with
      | none => exact .inr rfl
      | some r => exact .inl ((hloud hr).mpr (hloud' r hr))
    obtain ⟨hqueue, hcount⟩ :=
      s.scheduler.breakOffAll_other setup.settings s.world.now hfiled hother
    rw [queue_tick timeout hrunning, hqueue, givenUp_tick timeout id hrunning, hcount]
    exact ⟨rfl, rfl⟩

theorem ticked_rearm {s' : State} (h : s.Ticked setup timeout s') :
    s.Ticked setup timeout ((rearm timeout).perform setup s').state := by
  rw [perform, doRearm]
  split_ifs
  · exact h
  · exact ⟨h.flights, h.silent, h.others, h.ledgers, h.world⟩

/-- While the network is down, a tick is followed by no round. -/
theorem next_tick (timeout : Nat) (hrunning : s.scheduler.stopped = false)
    (hdown : s.world.connectivity.isConnected = false) :
    (doTick setup s timeout).next = [.rearm timeout] := by
  unfold doTick
  rw [if_neg (by rw [hrunning]; exact Bool.false_ne_true)]
  dsimp only
  rw [State.abandon_world, if_neg (by rw [hdown]; exact Bool.false_ne_true)]

/-- Setting the alarm again is the end of the tick's task, and moves no request. -/
theorem rearm_ends (setup : Setup) (s : State) (timeout : Nat) :
    (doRearm setup s timeout).next = [] ∧
      (doRearm setup s timeout).state.scheduler.queue = s.scheduler.queue ∧
      (doRearm setup s timeout).state.scheduler.flights = s.scheduler.flights ∧
      (doRearm setup s timeout).state.log = s.log := by
  unfold doRearm
  split_ifs <;> exact ⟨rfl, rfl, rfl, rfl⟩

end Errand

namespace Crew

variable {setup : Setup} {c : Crew}

/-- **A tick while the network is down** sorts out who has been silent for too long. In every state
that a run can reach, however its tasks are interleaved, of a scheduler that runs and has no
negative numbers in flight, and for every timeout, the tick comes to its end, and

* it makes of the state what `State.Ticked` says;
* in whatever order those who have been silent for too long are sent back, the queue, those in
  flight and whoever is given up are the same. -/
theorem tick_sorts_out (setup : Setup) (w : World) (moves : List CrewMove) (timeout : Nat)
    (hrun : (fresh w).run setup moves = some c) (hrunning : c.state.scheduler.stopped = false)
    (hdown : c.state.world.connectivity.isConnected = false)
    (hids : ∀ id r, c.state.scheduler.flights.get? id = some r → 0 ≤ id) :
    ∃ d, Desk.Finishes setup ⟨c.state, [.tick timeout]⟩ d ∧
      c.state.Ticked setup timeout d.state ∧
      ∀ order, order.Perm (c.state.scheduler.flights.stalled timeout c.state.world.now) →
        (c.state.scheduler.breakOffAll setup.settings c.state.world.now order).2.queue =
            d.state.scheduler.queue ∧
          (c.state.scheduler.breakOffAll setup.settings c.state.world.now order).2.flights =
            d.state.scheduler.flights ∧
          ∀ id, d.state.givenUp id = c.state.givenUp id +
            (c.state.scheduler.breakOffAll setup.settings c.state.world.now order).1.countP
              (·.id == id) := by
  have hlegible := legible_run hrun
  have hticked : c.state.Ticked setup timeout ((Errand.tick timeout).perform setup c.state).state :=
    Errand.ticked_tick hlegible.filed hrunning hids
  obtain ⟨hnext, hqueue, hflights, hlog⟩ :=
    Errand.rearm_ends setup (Errand.doTick setup c.state timeout).state timeout
  have hgivenUp (id : Int) : (Errand.doRearm setup (Errand.doTick setup c.state timeout).state
      timeout).state.givenUp id = (Errand.doTick setup c.state timeout).state.givenUp id := by
    rw [State.givenUp, State.givenUp, hlog]
  refine ⟨⟨_, []⟩, Desk.finishes_cons rfl ?_, Errand.ticked_rearm hticked, fun order hperm => ?_⟩
  · rw [Errand.perform, Errand.next_tick timeout hrunning hdown]
    refine Desk.finishes_cons rfl ?_
    rw [Errand.perform, hnext]
    exact Desk.finishes_nil setup _
  · obtain ⟨hbooks, hexhausted⟩ := c.state.scheduler.breakOffAll_congr setup.settings
      c.state.world.now hlegible.matched hlegible.filed fun id => hperm.mem_iff (a := id)
    rw [Errand.perform, Errand.perform, hqueue, hflights, hbooks,
      Errand.queue_tick timeout hrunning, Errand.flights_tick timeout hrunning]
    refine ⟨rfl, rfl, fun id => ?_⟩
    rw [hgivenUp, Errand.givenUp_tick timeout id hrunning, hexhausted id]

/-- A setup with one retry for each request. -/
def oneRetry : Setup := { settings := { maxRetries := 1 } }

/-- A world with three attachments that are wanted, two of them of one account, in which the first
transfer is refused. -/
def refusingWorld : World where
  records := .ofSeed
    { attachments := [{ id := 1, message := 10, account := 1, flags := .forward },
        { id := 2, message := 20, account := 2, flags := .forward },
        { id := 3, message := 20, account := 2, flags := .forward }] }
  carrier := .noting 1 none

/-- The same world half a minute later, without a network. -/
def severedWorld : World :=
  { refusingWorld with
    now := seconds 31, connectivity := { network := .offline }, carrier := .noting 0 none }

/-- All three join the queue; the first request is refused and has its retry, and the next round
takes it and the second one off. Then the network is gone. -/
def silenced : List CrewMove :=
  .begin .rescan :: List.replicate 5 (.turn 0) ++ .begin .round :: List.replicate 10 (.turn 1) ++
    .begin .round :: List.replicate 14 (.turn 2) ++ [.world severedWorld]

/-- What is then in flight and waits. -/
def silentCrew : Crew := ((fresh refusingWorld).run oneRetry silenced).getD (fresh refusingWorld)

/-- Of the two that are silent, the one without a retry left is given up and the other one waits
again; who waited goes on to wait. It is the same if the second one is sent back first. -/
theorem tick_sorts_out_two_silent :
    silentCrew.state.scheduler.flights.stalled (seconds 30) silentCrew.state.world.now = [1, 2] ∧
      ∃ d, Desk.Finishes oneRetry ⟨silentCrew.state, [.tick (seconds 30)]⟩ d ∧
        d.state.Unbooked 1 ∧ d.state.givenUp 1 = 1 ∧
        (∃ r, d.state.scheduler.queue.index.get? 2 = some r ∧ r.retries = 1) ∧
        d.state.scheduler.queue.index.get? 3 = silentCrew.state.scheduler.queue.index.get? 3 ∧
        (silentCrew.state.scheduler.breakOffAll oneRetry.settings silentCrew.state.world.now
          [2, 1]).2.queue = d.state.scheduler.queue := by
  have hids : ∀ e ∈ silentCrew.state.scheduler.flights.table.entries, 0 ≤ e.1 := by decide
  obtain ⟨d, hends, hticked, horder⟩ := tick_sorts_out (c := silentCrew) oneRetry refusingWorld
    silenced (seconds 30) rfl rfl rfl fun id r hr => hids _ (Table.get?_eq_some_iff.mp hr)
  obtain ⟨hunbooked, hgivenUp⟩ := hticked.silent 1 _ rfl (by decide)
  obtain ⟨-, time, -, htwo⟩ := hticked.silent 2 _ rfl (by decide)
  have hthree : silentCrew.state.scheduler.flights.get? 3 = none := rfl
  have hwaits := (hticked.others 3 fun r hr => absurd (hthree.symm.trans hr) nofun).1
  exact ⟨rfl, d, hends, hunbooked, hgivenUp, ⟨_, htwo, rfl⟩, hwaits, (horder [2, 1] (by decide)).1⟩

end Crew

end MailFetch

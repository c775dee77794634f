import MailFetch.Proofs.OfflineTick

/-! # The place of a request that is put back

A request whose transfer is broken off is put back with a new time, so that it goes to the back of
its class. The new time is the present, or the one after its old time if that is not past. So it is
the latest one as long as the clock has moved since the others joined; but who joined at this very
reading of the clock, or has been given a time beyond it, may stay behind the request.

* `Queue.AtBack`: nobody of its class comes after a request. `Queue.atBack_iff` reads this off the
  keys.
* `Errand.PutsBack`: the moments at which a request is put back, with the scheduler's memory then.
  `Errand.queue_of_putsBack`: what its errand makes of the queue afterwards.
* `Request.Outstays`: who stays behind a request that is put back.
* `Crew.back_of_class_iff`: a request goes to the back of its class exactly if nobody outstays it.
  `Crew.refused_goes_ahead`: a request that somebody outstays. -/

namespace MailFetch

/-! ### Times -/

namespace Request

/-- The time of a retry is the present, or the next one after the time of what it repeats. -/
theorem enqueuedAt_retryCopy (r : Request) (now : Nat) :
    (r.retryCopy now).enqueuedAt = max now (r.enqueuedAt + 1) := by
  unfold retryCopy
  dsimp only
  split_ifs <;> omega

/-- **Who stays behind a request** that is put back at the time `now`: one of its class whose time
is later than the one that is given out now, or is the same and goes with a greater number. -/
def Outstays (y r : Request) (now : Nat) : Prop :=
  y.priority = r.priority ∧ (max now (r.enqueuedAt + 1) < y.enqueuedAt ∨
    max now (r.enqueuedAt + 1) = y.enqueuedAt ∧ r.id < y.id)

instance (y r : Request) (now : Nat) : Decidable (y.Outstays r now) :=
  inferInstanceAs (Decidable (_ ∧ _))

variable {r x y : Request} {now : Nat}

/-- Only those outstay a request who have joined at this reading of the clock or later. -/
theorem Outstays.now_le (h : y.Outstays r now) : now ≤ y.enqueuedAt := by
  obtain ⟨-, hlater | ⟨hsame, -⟩⟩ := h <;> omega

/-- What a request comes back as, if it comes back. -/
theorem rejoining_eq_some {limits : Settings} (h : r.rejoining limits now = some x) :
    ¬ limits.maxRetries < r.countRetry.retries ∧ 0 ≤ r.id ∧ x = r.countRetry.retryCopy now := by
  unfold rejoining at h
  split_ifs at h with hgone
  obtain ⟨hleft, hpos⟩ := not_or.mp hgone
  exact ⟨hleft, Int.not_lt.mp hpos, (Option.some.inj h).symm⟩

/-- **Whoever of its class does not outstay a request** comes before its retry, and nobody else of
its class does. -/
theorem before_retryCopy_iff (hclass : y.priority = r.priority) (hid : y.id ≠ r.id) :
    y.sortKey.before (r.countRetry.retryCopy now).sortKey = true ↔ ¬ y.Outstays r now := by
  have htime : (r.countRetry.retryCopy now).sortKey.enqueuedAt = max now (r.enqueuedAt + 1) :=
    r.countRetry.enqueuedAt_retryCopy now
  have hrank : y.sortKey.priority.rank = (r.countRetry.retryCopy now).sortKey.priority.rank :=
    congrArg Priority.rank hclass
  have hself : (r.countRetry.retryCopy now).sortKey.id = r.id := rfl
  have hkey : y.sortKey.enqueuedAt = y.enqueuedAt ∧ y.sortKey.id = y.id := ⟨rfl, rfl⟩
  rw [SortKey.before_iff, htime, hrank, hself, hkey.1, hkey.2, Outstays]
  simp only [hclass, true_and, not_or, not_and, Nat.lt_irrefl, false_or]
  omega

end Request

/-! ### The back of a class -/

namespace Queue

/-- **A request is at the back of its class**: whoever leaves after it is of another class. -/
def AtBack (q : Queue) (x : Request) : Prop :=
  ∃ ahead behind, q.toList = ahead ++ x :: behind ∧ ∀ y ∈ behind, y.priority ≠ x.priority

variable {q : Queue} {x : Request}

/-- **At the back of its class** is the request with the last key of its class. -/
theorem atBack_iff (hq : q.Matched) (hx : x ∈ q.toList) :
    q.AtBack x ↔ ∀ y ∈ q.toList, y.priority = x.priority → y.id ≠ x.id →
      y.sortKey.before x.sortKey = true := by
  have hsorted := pairwise_toList hq
  constructor
  · rintro ⟨ahead, behind, hlist, hbehind⟩ y hy hclass hid
    rw [hlist] at hy hsorted
    rcases List.mem_append.mp hy with hahead | hrest
    · exact (List.pairwise_append.mp hsorted).2.2 y hahead x List.mem_cons_self
    · rcases List.mem_cons.mp hrest with rfl | hmem
      · exact absurd rfl hid
      · exact absurd hclass (hbehind y hmem)
  · intro hlast
    obtain ⟨ahead, behind, hlist⟩ := List.append_of_mem hx
    refine ⟨ahead, behind, hlist, fun y hy hclass => ?_⟩
    rw [hlist] at hsorted
    have hafter := (List.pairwise_cons.mp (List.pairwise_append.mp hsorted).2.1).1 y hy
    have hmem : y ∈ q.toList := hlist ▸ List.mem_append_right _ (.tail _ hy)
    by_cases hid : y.id = x.id
    · -- Two requests in the queue with one number are the same, and none comes after itself.
      have hsame := (mem_toList hq).mp hmem
      rw [hid, (mem_toList hq).mp hx] at hsame
      obtain rfl := Option.some.inj hsame
      exact SortKey.not_before_self _ hafter
    · exact SortKey.not_before_self _ (SortKey.before_trans hafter (hlast y hmem hclass hid))

end Queue

/-! ### The moments at which a request is put back -/

namespace Scheduler

variable (s : Scheduler) (limits : Settings) (now : Nat)

theorem breakOffAll_append (ids ids' : List Int) :
    (s.breakOffAll limits now (ids ++ ids')).2 =
      ((s.breakOffAll limits now ids).2.breakOffAll limits now ids').2 := by
  induction ids generalizing s with
  | nil => rfl
  | cons id rest ih => exact ih (s.breakOff limits now id).2

/-- The memory with a request taken out of the air. -/
def grounding (id : Int) : Scheduler := { s with flights := s.flights.erase id }

/-- **Who waits when a request has been put back**: its retry, and whoever else waited. -/
theorem mem_toList_requeue {r x y : Request} (hq : s.queue.Matched)
    (hback : r.rejoining limits now = some x) :
    y ∈ (s.requeue limits now r).2.queue.toList ↔ y = x ∨ y ∈ s.queue.toList ∧ y.id ≠ r.id := by
  have hself := s.get?_requeue_self limits now r
  rw [hback] at hself
  have hid : x.id = r.id := by
    rw [(Request.rejoining_eq_some hback).2.2]
    rfl
  rw [Queue.mem_toList (s.matched_requeue limits now hq r), Queue.mem_toList hq]
  by_cases hy : y.id = r.id
  · rw [hy, hself, Option.some.injEq, eq_comm]
    simp
  · rw [s.get?_requeue limits now r hy]
    refine ⟨fun hwaits => .inr ⟨hwaits, hy⟩, ?_⟩
    rintro (rfl | hwaits)
    · exact absurd hid hy
    · exact hwaits.1

/-- **A request that is put back** goes to the back of its class exactly if nobody who waits
outstays it. -/
theorem atBack_requeue_iff {r x : Request} (hq : s.queue.Matched)
    (hback : r.rejoining limits now = some x) :
    (s.requeue limits now r).2.queue.AtBack x ↔
      ∀ y ∈ s.queue.toList, y.id ≠ r.id → ¬ y.Outstays r now := by
  have hmem (y : Request) := s.mem_toList_requeue limits now (y := y) hq hback
  rw [Queue.atBack_iff (s.matched_requeue limits now hq r) ((hmem x).mpr (.inl rfl))]
  obtain ⟨-, -, rfl⟩ := Request.rejoining_eq_some hback
  constructor
  · intro hlast y hy hid houtstays
    exact (Request.before_retryCopy_iff houtstays.1 hid).mp
      (hlast y ((hmem y).mpr (.inr ⟨hy, hid⟩)) houtstays.1 hid) houtstays
  · intro hnone y hy hclass hid
    rcases (hmem y).mp hy with rfl | ⟨hwaits, hother⟩
    · exact absurd rfl hid
    · have hclass' : y.priority = r.priority := hclass
      exact (Request.before_retryCopy_iff hclass' hother).mpr (hnone y hwaits hother)

end Scheduler

namespace Errand

/-- **A request is put back** by an errand that is done in the state `s`: the scheduler's memory at
this moment, and the request. It is one whose start was refused, one whose message is there after
all, or one that has been silent for too long; those are broken off one after the other, in any
order. -/
inductive PutsBack (setup : Setup) (s : State) : Errand → Scheduler → Request → Prop
  | refused {x r : Request} {onward : Onward} (hr : s.scheduler.flights.get? x.id = some r) :
      PutsBack setup s (landed x false onward) (s.scheduler.grounding x.id) r.land
  | mistaken {r : Request} {record : Option Attachment} {m : Message}
      (hm : s.world.message r.message = .ok (some m)) :
      PutsBack setup s (askParent r record) s.scheduler r
  | silent {timeout : Nat} {r : Request} {earlier later : List Int}
      (hrunning : s.scheduler.stopped = false) (hr : s.scheduler.flights.get? r.id = some r)
      (horder : (earlier ++ r.id :: later).Perm
        (s.scheduler.flights.stalled timeout s.world.now)) :
      PutsBack setup s (tick timeout)
        ((s.scheduler.breakOffAll setup.settings s.world.now earlier).2.grounding r.id) r.land

variable {setup : Setup} {s : State} {e : Errand} {b : Scheduler} {r : Request}

theorem PutsBack.matched (h : e.PutsBack setup s b r) (hq : s.scheduler.queue.Matched) :
    b.queue.Matched := by
  cases h with
  | refused hr => exact hq
  | mistaken hm => exact hq
  | silent hrunning hr horder => exact s.scheduler.matched_breakOffAll _ _ hq _

end Errand

theorem Flights.nodup_stalled {f : Flights} (hfiled : f.Filed) (timeout now : Nat) :
    (f.stalled timeout now).Nodup := by
  have hkeys : f.stalled timeout now =
      f.table.keysWhere fun r => decide (timeout < r.silence now) := by
    unfold stalled Table.values Table.keysWhere
    rw [List.filter_map, List.map_map]
    refine List.map_congr_left fun e he => ?_
    exact hfiled e.1 e.2 (Table.get?_eq_some_iff.mpr (List.mem_of_mem_filter he))
  rw [hkeys]
  exact f.table.nodup_keysWhere _

namespace Errand

variable {setup : Setup} {s : State} {e : Errand} {b : Scheduler} {r : Request}

/-- **What an errand makes of the queue** after it has put a request back: nothing, or it goes on to
break off others. -/
theorem queue_of_putsBack (h : e.PutsBack setup s b r) (hq : s.scheduler.queue.Matched)
    (hfiled : s.scheduler.flights.Filed) :
    ∃ later, (e.perform setup s).state.scheduler.queue =
      ((b.requeue setup.settings s.world.now r).2.breakOffAll setup.settings s.world.now
        later).2.queue := by
  cases h with
  | @refused x r onward hr =>
    refine ⟨[], ?_⟩
    change (s.breakOff setup x.id).scheduler.queue = _
    rw [State.breakOff_scheduler, Scheduler.breakOff_of_some _ _ _ hr]
    rfl
  | mistaken hm =>
    refine ⟨[], ?_⟩
    rw [perform, doAskParent, hm]
    simp only [State.ring_queue, State.requeue_scheduler]
    rfl
  | @silent timeout r earlier later hrunning hr horder =>
    refine ⟨later, ?_⟩
    have hnodup := horder.nodup_iff.mpr (Flights.nodup_stalled hfiled timeout s.world.now)
    have hnew : r.id ∉ earlier := fun hmem =>
      (List.disjoint_of_nodup_append hnodup) hmem List.mem_cons_self
    have hflies := (s.scheduler.get?_breakOffAll_other setup.settings s.world.now hnew).trans hr
    rw [perform, queue_tick timeout hrunning,
      (s.scheduler.breakOffAll_congr setup.settings s.world.now hq hfiled
        fun id => horder.symm.mem_iff).1,
      Scheduler.breakOffAll_append]
    change (Scheduler.breakOffAll (Scheduler.breakOff _ _ _ r.id).2 _ _ later).2.queue = _
    rw [Scheduler.breakOff_of_some _ _ _ hflies]
    rfl

end Errand

namespace Crew

variable {setup : Setup} {c : Crew} {e : Errand} {b : Scheduler} {r x : Request}

/-- **A request that is put back** goes to the back of its class exactly if nobody of its class
outstays it. In every state that a run can reach, however its tasks are interleaved and however
often the clock shows the same time, at every moment at which a task puts a request back that has
retries left: its retry waits with whoever else waited; it is at the back of its class exactly if
nobody of them outstays it; and whoever does has a time that is not past. -/
theorem back_of_class_iff (setup : Setup) (w : World) (moves : List CrewMove)
    (hrun : (fresh w).run setup moves = some c) (hput : e.PutsBack setup c.state b r)
    (hback : r.rejoining setup.settings c.state.world.now = some x) :
    ∃ after later, after = (b.requeue setup.settings c.state.world.now r).2 ∧
      (∀ y, y ∈ after.queue.toList ↔ y = x ∨ y ∈ b.queue.toList ∧ y.id ≠ r.id) ∧
      (after.queue.AtBack x ↔
        ∀ y ∈ b.queue.toList, y.id ≠ r.id → ¬ y.Outstays r c.state.world.now) ∧
      (∀ y ∈ b.queue.toList, y.Outstays r c.state.world.now →
        c.state.world.now ≤ y.enqueuedAt) ∧
      (e.perform setup c.state).state.scheduler.queue =
        (after.breakOffAll setup.settings c.state.world.now later).2.queue := by
  have hlegible := legible_run hrun
  have hq := hput.matched hlegible.matched
  obtain ⟨later, hlater⟩ := Errand.queue_of_putsBack hput hlegible.matched hlegible.filed
  exact ⟨_, later, rfl, fun y => b.mem_toList_requeue _ _ hq hback,
    b.atBack_requeue_iff _ _ hq hback, fun y _ hy => hy.now_le, hlater⟩

/-- The second of the two transfers that are silent. -/
def silentTwo : Request := (silentCrew.state.scheduler.flights.get? 2).getD default

/-- Half a minute after a refused start, two transfers are silent and a third request waits. The
first one is given up, and the second one goes to the back, behind the third one. -/
theorem back_of_class_iff_silent :
    ∃ after : Scheduler, after.queue.toList.map (·.id) = [3, 2] ∧
      after.queue.AtBack (silentTwo.land.countRetry.retryCopy silentCrew.state.world.now) := by
  have hput : (Errand.tick (seconds 30)).PutsBack oneRetry silentCrew.state
      ((silentCrew.state.scheduler.breakOffAll oneRetry.settings silentCrew.state.world.now
        [1]).2.grounding 2) silentTwo.land :=
    @Errand.PutsBack.silent oneRetry silentCrew.state (seconds 30) silentTwo [1] [] rfl rfl
      (by decide)
  have hback : silentTwo.land.rejoining oneRetry.settings silentCrew.state.world.now =
      some (silentTwo.land.countRetry.retryCopy silentCrew.state.world.now) := rfl
  obtain ⟨after, -, rfl, -, hplace, -⟩ :=
    back_of_class_iff oneRetry refusingWorld silenced rfl hput hback
  exact ⟨_, rfl, hplace.mpr (by decide)⟩

/-- A wanted attachment. -/
def firstWanted : Attachment := { id := 1, message := 10, account := 1, flags := .requested }

/-- Another one, of another account. -/
def secondWanted : Attachment := { id := 2, message := 20, account := 2, flags := .requested }

/-- A world with the two of them, in which the first transfer is refused. -/
def pairWorld : World where
  records := .ofSeed { attachments := [firstWanted, secondWanted] }
  carrier := .noting 1 none

/-- The first one joins the queue, and a millisecond later the second one. At once a round hands
over the first one, and is refused. -/
def refusedAtOnce : List CrewMove :=
  .begin (.change firstWanted) :: .turn 0 :: .world { pairWorld with now := millis 1 } ::
    .begin (.change secondWanted) :: .turn 1 :: .begin .round :: List.replicate 4 (.turn 2)

/-- What is then in flight and waits. -/
def refusedCrew : Crew := ((fresh pairWorld).run {} refusedAtOnce).getD (fresh pairWorld)

/-- The request that was refused. -/
def refusedFirst : Request := (refusedCrew.state.scheduler.flights.get? 1).getD default

/-- **A request that is refused goes ahead of one that waited.** The second attachment has joined at
this very reading of the clock; so the retry of the first one has the same time, and its number is
smaller. -/
theorem refused_goes_ahead :
    (fresh pairWorld).run {} refusedAtOnce = some refusedCrew ∧
      refusedCrew.tasks[2]? = some [.landed refusedFirst false (.queue [])] ∧
      ∃ before x, (Errand.landed refusedFirst false (.queue [])).PutsBack {} refusedCrew.state
          before refusedFirst.land ∧
        refusedFirst.land.rejoining {} refusedCrew.state.world.now = some x ∧
        before.queue.toList.map (fun y => (y.id, y.priority)) = [(2, x.priority)] ∧
        ¬ (before.requeue {} refusedCrew.state.world.now refusedFirst.land).2.queue.AtBack x ∧
        ((Errand.landed refusedFirst false (.queue [])).perform {}
          refusedCrew.state).state.scheduler.queue.toList.map (·.id) = [1, 2] := by
  have hrun : (fresh pairWorld).run {} refusedAtOnce = some refusedCrew := rfl
  have hback : refusedFirst.land.rejoining {} refusedCrew.state.world.now =
      some (refusedFirst.land.countRetry.retryCopy refusedCrew.state.world.now) := rfl
  have hmatched : (refusedCrew.state.scheduler.grounding 1).queue.Matched :=
    (legible_run hrun).matched
  have hstays : ¬ ((refusedCrew.state.scheduler.grounding 1).requeue {}
      refusedCrew.state.world.now refusedFirst.land).2.queue.AtBack
        (refusedFirst.land.countRetry.retryCopy refusedCrew.state.world.now) := by
    rw [Scheduler.atBack_requeue_iff _ _ _ hmatched hback]
    decide
  exact ⟨hrun, rfl, _, _, .refused rfl, hback, rfl, hstays, rfl⟩

end Crew

end MailFetch

import MailFetch.Proofs.Attendance
import MailFetch.Proofs.Limits

/-! # Requests that are left lying

While the main loop waits for a ring, a request in the queue is seen to only when the alarm goes
off. The alarm is single-shot: a tick that finds the network down holds no round, and sets the alarm
again only if something is in flight. The network's return rings no bell. So a request that waits
for the alarm is left lying until the end of the idle time, if the network happens to be down when
the alarm goes off (`Crew.left_lying`).

* `Crew.attended_move`: apart from such ticks, no move leaves a request in the queue unattended,
  however the tasks are interleaved.
* `Crew.alarm_set_iff`: so while the main loop is parked and requests wait, the alarm is set if and
  only if no tick has missed them since it was set last. -/

namespace MailFetch

/-- A round that is not under way has laid nothing by. -/
theorem Errand.laidBy_eq_nil {e : Errand} (h : e.holdsRound = false) : e.laidBy = [] := by
  cases e with
  | handOver r onward | landed r accepted onward =>
    cases onward with
    | queue aside => cases h
    | done => rfl
  | takeNext _ | screen _ _ | putBack _ => cases h
  | _ => rfl

/-- A move that neither stops the scheduler nor brings a fault into the record store. -/
def CrewMove.IsFair : CrewMove → Prop
  | .world w => w.StoreUp
  | .begin op => op ≠ .stop
  | .start | .turn _ => True

instance : DecidablePred CrewMove.IsFair
  | .world w => inferInstanceAs (Decidable w.StoreUp)
  | .begin op => inferInstanceAs (Decidable (op ≠ .stop))
  | .start | .turn _ => inferInstanceAs (Decidable True)

namespace Crew

variable {setup : Setup} {c c' : Crew}

/-! ### Nobody is left unattended -/

/-- **Everybody who waits is seen to**, by whatever task. -/
def Attended (c : Crew) : Prop := c.state.Attended c.tasks.flatten

/-- A crew at work: it is not stopped, its store has no faults, and those in flight are overseen. -/
structure AtWork (c : Crew) : Prop where
  running : c.state.scheduler.stopped = false
  store : c.state.world.StoreUp
  overseen : c.state.Overseen c.tasks.flatten

/-- **A tick misses**: the move is the turn of a tick that finds the network down, with no alarm
set. -/
def Misses (c : Crew) (m : CrewMove) : Prop :=
  ∃ i e rest, m = .turn i ∧ c.tasks[i]? = some (e :: rest) ∧ e.Misses c.state

theorem atWork_fresh {w : World} (h : w.StoreUp) : (fresh w).AtWork where
  running := rfl
  store := h
  overseen := nofun

theorem attended_fresh (w : World) : (fresh w).Attended := by
  refine .inr ⟨List.forall_mem_nil _, fun hqueue => ?_⟩
  cases hqueue

theorem atWork_move {m : CrewMove} (hfair : m.IsFair) (hlegible : c.Legible) (hc : c.AtWork)
    (h : c.move setup m = some c') : c'.AtWork := by
  rcases move_cases h with ⟨w, rfl, rfl⟩ | ⟨op, rfl, rfl⟩ | ⟨rfl, rfl⟩ | ⟨i, rfl⟩
  · exact ⟨hc.running, hfair, hc.overseen⟩
  · refine ⟨?_, ?_, ?_⟩
    · rw [Operation.state_stopped hfair]
      exact hc.running
    · rw [Operation.state_world]
      exact hc.store
    · rw [List.flatten_append, List.flatten_singleton]
      exact Operation.overseen_begin hfair hc.overseen
  · refine ⟨hc.running, hc.store, fun hflights => ?_⟩
    rw [List.flatten_append]
    exact (hc.overseen hflights).imp_right fun ⟨e, he, ho⟩ => ⟨e, List.mem_append_left _ he, ho⟩
  · obtain ⟨e, rest, others, -, -, hstate, htasks, -, hstays⟩ := turn_errands h
    refine ⟨?_, ?_, fun hflights => ?_⟩
    · rw [hstate, (Errand.perform_frame setup c.state e).stopped]
      exact hc.running
    · rw [hstate, World.StoreUp, Errand.perform_faults]
      exact hc.store
    · rw [hstate] at hflights ⊢
      have hbefore : c.state.Overseen (e :: others) := fun hf =>
        (hc.overseen hf).imp_right fun ⟨x, hx, ho⟩ => ⟨x, (htasks x).mp hx, ho⟩
      exact (Errand.perform_overseen hlegible.filed hc.running hbefore hflights).imp_right
        fun ⟨x, hx, ho⟩ => ⟨x, hstays (Errand.collapses_eq_false hc.store) x hx, ho⟩

/-- **A move leaves nobody unattended**, unless it is the turn of a tick that misses. -/
theorem attended_move {m : CrewMove} (hmax : 0 < setup.settings.maxConcurrent)
    (hacc : 0 < setup.settings.maxPerAccount) (hfair : m.IsFair) (hc : c.AtWork)
    (hlegible : c.Legible) (hbounded : c.Bounded setup) (h : c.move setup m = some c')
    (hattended : c.Attended) : c'.Attended ∨ c.Misses m := by
  refine or_iff_not_imp_right.mpr fun hmisses => ?_
  rcases move_cases h with ⟨w, rfl, rfl⟩ | ⟨op, rfl, rfl⟩ | ⟨rfl, rfl⟩ | ⟨i, rfl⟩
  · exact hattended
  · unfold Attended
    rw [List.flatten_append, List.flatten_singleton]
    exact Operation.attended_begin hfair hattended
  · refine .inl (State.astir_of_heralds (e := .loop) ?_ rfl)
    simp
  · obtain ⟨e, rest, others, hi, hheld, hstate, htasks, hleft, hstays⟩ := turn_errands h
    have hround : e = .beginRound → ∀ x ∈ others, x.laidBy = [] := by
      rintro rfl x hx
      have hfree : c.state.scheduler.inRound = false := hheld
      have hrounds := hbounded.rounds
      rw [hfree, Bool.toNat_false, Nat.le_zero] at hrounds
      have hnone := List.countP_eq_zero.mp hrounds x ((htasks x).mpr (.tail _ hx))
      exact Errand.laidBy_eq_nil (by simpa using hnone)
    have hbefore : c.state.Attended (e :: others) := hattended.of_mem
      (fun x hx => (htasks x).mp hx) fun x hx => .inl ((htasks x).mpr hx)
    have hafter := Errand.perform_attended hmax hacc hc.store hlegible.matched
      hc.running (fun hm => hmisses ⟨i, e, rest, rfl, hi, hm⟩) hround hbefore
    unfold Attended
    rw [hstate]
    refine hafter.of_mem (hstays (Errand.collapses_eq_false hc.store)) fun x hx =>
      (hleft x hx).imp_right ?_
    rintro ⟨job, rfl⟩
    rfl

/-! ### The parked main loop -/

/-- **The main loop is parked**: it waits for a ring until its idle time is over, the bell has not
rung, and no task is about to see to the queue or to those in flight. -/
structure Parked (c : Crew) : Prop where
  waits : ∃ deadline, [.idle deadline] ∈ c.tasks
  quiet : c.state.scheduler.bell.rings = 0
  nobody : ∀ e ∈ c.tasks.flatten, e.heralds = false ∧ e.looks = false ∧ e.oversees = false

/-- A crew at rest is parked: the main loop waits for a ring, and every other task has come to an
end or waits as well. -/
theorem parked_of_rest {deadline : Nat} (hwaits : [.idle deadline] ∈ c.tasks)
    (hquiet : c.state.scheduler.bell.rings = 0)
    (hrest : ∀ task ∈ c.tasks, task = [] ∨ task = [.listen] ∨ task = [.idle deadline]) :
    c.Parked := by
  refine ⟨⟨deadline, hwaits⟩, hquiet, fun e he => ?_⟩
  obtain ⟨task, htask, he⟩ := List.mem_flatten.mp he
  rcases hrest task htask with rfl | rfl | rfl
  · cases he
  · rw [List.mem_singleton.mp he]
    exact ⟨rfl, rfl, rfl⟩
  · rw [List.mem_singleton.mp he]
    exact ⟨rfl, rfl, rfl⟩

/-- **A tick has missed, and no alarm has been set since.** -/
def MissedSince (setup : Setup) (c : Crew) (moves : List CrewMove) : Prop :=
  ∃ earlier m later u u', moves = earlier ++ m :: later ∧ c.run setup earlier = some u ∧
    u.Misses m ∧ u.move setup m = some u' ∧
    Lasting (move setup) (fun v => v.state.scheduler.alarm = none) u' later

/-- Who is parked with somebody in the queue who is seen to has the alarm set. -/
theorem Parked.alarm (hparked : c.Parked) (hc : c.AtWork) (hattended : c.Attended)
    (hqueue : c.state.scheduler.queue.isEmpty = false) :
    c.state.scheduler.alarm.isSome = true := by
  have hflights : c.state.scheduler.flights.isEmpty = false →
      c.state.scheduler.alarm.isSome = true := fun hflights => by
    refine (hc.overseen hflights).resolve_right ?_
    rintro ⟨e, he, ho⟩
    rw [(hparked.nobody e he).2.2] at ho
    cases ho
  rcases hattended with (halarm | hrings | hflying | ⟨e, he, hh⟩) | ⟨-, hlooks⟩
  · exact halarm
  · rw [hparked.quiet] at hrings
    cases hrings
  · exact hflights hflying
  · rw [(hparked.nobody e he).1] at hh
    cases hh
  · obtain ⟨e, he, hl⟩ := hlooks hqueue
    rw [(hparked.nobody e he).2.1] at hl
    cases hl

theorem atWork_run {w : World} {moves : List CrewMove} (hw : w.StoreUp)
    (hfair : ∀ m ∈ moves, m.IsFair) (h : (fresh w).run setup moves = some c) : c.AtWork := by
  have hmoves : Throughout (move setup) (fun _ m => m.IsFair) (fresh w) moves :=
    fun earlier m later _ heq _ => hfair m (by simp [heq])
  exact (follow_keeps_of (P := fun u : Crew => u.Legible ∧ u.AtWork)
    (fun u m u' hu hm hmove => ⟨legible_move hu.1 hmove, atWork_move hm hu.1 hu.2 hmove⟩)
    ⟨legible_fresh w, atWork_fresh hw⟩ hmoves h).2

/-- **Requests are left lying exactly after a tick that misses.** In every run of a crew that is not
stopped and whose store has no faults, with room for at least one request: whenever the main loop is
parked and somebody is in the queue, the alarm is set, with the network up or down, if and only if
there has been no tick that missed or an alarm has been set since. -/
theorem alarm_set_iff (setup : Setup) (w : World) (moves : List CrewMove)
    (hmax : 0 < setup.settings.maxConcurrent) (hacc : 0 < setup.settings.maxPerAccount)
    (hw : w.StoreUp) (hfair : ∀ m ∈ moves, m.IsFair) (h : (fresh w).run setup moves = some c)
    (hparked : c.Parked) (hqueue : c.state.scheduler.queue.isEmpty = false) :
    c.state.scheduler.alarm.isSome = true ↔ ¬ MissedSince setup (fresh w) moves := by
  constructor
  · rintro halarm ⟨earlier, m, later, u, u', rfl, hu, -, hm, hlasting⟩
    rw [run, follow_append hu, follow_cons hm] at h
    rw [hlasting later c (List.prefix_refl _) h] at halarm
    cases halarm
  · intro hnever
    have hmoves : Throughout (move setup) (fun u m => ∀ u', u.move setup m = some u' →
        u.Attended → u'.Attended ∨ u.Misses m) (fresh w) moves := by
      rintro earlier m later u rfl hu u' hm hattended
      have hearlier : ∀ n ∈ earlier, n.IsFair := fun n hn => hfair n (List.mem_append_left _ hn)
      exact attended_move hmax hacc (hfair m (by simp)) (atWork_run hw hearlier hu)
        (legible_run hu) (bounded_run hu) hm hattended
    have hend := holds_or_since (N := fun v : Crew => v.state.scheduler.alarm = none)
      (fun u hu => .inl (State.astir_of_alarm (Option.isSome_iff_ne_none.mpr hu)))
      (attended_fresh w) hmoves h
    exact hparked.alarm (atWork_run hw hfair h) (hend.resolve_right hnever) hqueue

/-! ### A tick that misses -/

/-- A world with one attachment that is wanted and whose transfer is refused twice. -/
def stubbornWorld : World where
  records := .ofSeed
    { attachments := [{ id := 1, message := 10, account := 1, flags := .forward }] }
  carrier := .noting 2 none

/-- That world later on, with the network up or down. -/
def stubbornWorldLater (network : Network) : World :=
  { stubbornWorld with
    now := seconds 10, connectivity := { network := network }, carrier := .noting 0 none }

/-- The main loop hands the transfer over twice, sets the alarm, and waits for a ring. -/
def refusedTwice : List CrewMove := .start :: List.replicate 27 (.turn 1)

/-- The alarm goes off while the network is down; then the network is back. -/
def missedLook : List CrewMove :=
  [.world (stubbornWorldLater .offline), .begin .alarm, .turn 2, .turn 2,
    .world (stubbornWorldLater .unmetered)]

theorem alarm_set_iff_refused_twice :
    ∃ c, (fresh stubbornWorld).run {} refusedTwice = some c ∧ c.Parked ∧
      c.state.scheduler.queue.isEmpty = false ∧ c.state.scheduler.alarm.isSome = true ∧
      ¬ MissedSince {} (fresh stubbornWorld) refusedTwice := by
  obtain ⟨c, hrun, htasks, hquiet, hqueue, halarm⟩ :
      ∃ c, (fresh stubbornWorld).run {} refusedTwice = some c ∧
        c.tasks = [[.listen], [.idle (seconds 1800)]] ∧ c.state.scheduler.bell.rings = 0 ∧
        c.state.scheduler.queue.isEmpty = false ∧ c.state.scheduler.alarm.isSome = true :=
    ⟨_, rfl, rfl, rfl, rfl, rfl⟩
  have hparked : c.Parked := parked_of_rest (by rw [htasks]; exact .tail _ (.head _)) hquiet
    (by rw [htasks]; decide)
  exact ⟨c, hrun, hparked, hqueue, halarm, (alarm_set_iff {} stubbornWorld refusedTwice (by decide)
    (by decide) (by decide) (by decide) hrun hparked hqueue).mp halarm⟩

/-- **Work is left lying.** The network is up, the main loop is parked, somebody is in the queue,
and no alarm is set: no task can do anything before the end of the idle time, unless something comes
from outside. -/
theorem left_lying :
    stubbornWorld.StoreUp ∧ (∀ m ∈ refusedTwice ++ missedLook, m.IsFair) ∧
      ∃ c, (fresh stubbornWorld).run {} (refusedTwice ++ missedLook) = some c ∧ c.Parked ∧
        c.state.world.connectivity.isConnected = true ∧
        c.state.scheduler.queue.isEmpty = false ∧ c.state.scheduler.alarm = none ∧
        c.state.world.now = seconds 10 ∧ [.idle (seconds 1800)] ∈ c.tasks ∧
        ∀ i, c.move {} (.turn i) = none := by
  obtain ⟨c, hrun, htasks, hquiet, hup, hqueue, halarm, hnow, hnotices⟩ :
      ∃ c, (fresh stubbornWorld).run {} (refusedTwice ++ missedLook) = some c ∧
        c.tasks = [[.listen], [.idle (seconds 1800)], []] ∧ c.state.scheduler.bell.rings = 0 ∧
        c.state.world.connectivity.isConnected = true ∧
        c.state.scheduler.queue.isEmpty = false ∧ c.state.scheduler.alarm = none ∧
        c.state.world.now = seconds 10 ∧ c.state.scheduler.notices = [] :=
    ⟨_, rfl, rfl, rfl, rfl, rfl, rfl, rfl, rfl⟩
  have hwaits : [Errand.idle (seconds 1800)] ∈ c.tasks := by
    rw [htasks]
    exact .tail _ (.head _)
  have hparked : c.Parked := parked_of_rest hwaits hquiet (by rw [htasks]; decide)
  refine ⟨by decide, by decide, c, hrun, hparked, hup, hqueue, halarm, hnow, hwaits, ?_⟩
  rintro (_ | _ | _ | i)
  · simp [move, htasks, Errand.isHeldUp, hnotices]
  · simp [move, htasks, Errand.isHeldUp, hquiet, hnow, seconds]
  · simp [move, htasks]
  · simp [move, htasks]

end Crew

end MailFetch

import MailFetch.Proofs.Whereabouts

/-! # What a request is for

A request is made for an attachment, with its account and its message, and in a class. Nothing on
its way changes this: not when it is set aside and put back, taken off, heard of, sent back
(`Request.IsNextTry`), or when the end of its transfer is looked into. So whoever is there after an
errand is there for what somebody was there for before it, or is new.

* `Errand.atHome_origin`, `Errand.abroad_origin`, `Errand.taken_origin` say this of those at home,
  of those abroad, and of those who are handed over. -/

namespace MailFetch

namespace Request

/-- **What a request is for**: an attachment with its account and message, and the class. -/
def purpose (r : Request) : Int × Int × Int × Priority := (r.id, r.account, r.message, r.priority)

variable (r : Request) (now : Nat)

@[simp] theorem purpose_dispatch : (r.dispatch now).purpose = r.purpose := rfl

@[simp] theorem purpose_land : r.land.purpose = r.purpose := rfl

@[simp] theorem purpose_countRetry : r.countRetry.purpose = r.purpose := rfl

@[simp] theorem purpose_retryCopy : (r.retryCopy now).purpose = r.purpose := rfl

@[simp] theorem purpose_heard (status : Status) (percent : Nat) :
    (r.heard now status percent).purpose = r.purpose := by
  unfold heard
  dsimp only
  split_ifs <;> rfl

theorem id_eq_of_purpose {r r' : Request} (h : r.purpose = r'.purpose) : r.id = r'.id :=
  congrArg (·.1) h

theorem priority_eq_of_purpose {r r' : Request} (h : r.purpose = r'.purpose) :
    r.priority = r'.priority :=
  congrArg (·.2.2.2) h

/-- **A request is the next try of another one**: it has one more retry, and nothing else of it has
changed but its time, the wait before it and whether it has been handed over. -/
def IsNextTry (x r : Request) : Prop :=
  ∃ active enqueuedAt notBefore,
    x = { r.countRetry with active := active, enqueuedAt := enqueuedAt, notBefore := notBefore }

theorem isNextTry_retryCopy : (r.countRetry.retryCopy now).IsNextTry r := ⟨_, _, _, rfl⟩

theorem isNextTry_land : (r.land.countRetry.retryCopy now).IsNextTry r := ⟨_, _, _, rfl⟩

theorem IsNextTry.purpose {x r : Request} (h : x.IsNextTry r) : r.purpose = x.purpose := by
  obtain ⟨_, _, _, rfl⟩ := h
  rfl

end Request

/-! ### Who waits after a transfer came to nothing -/

namespace Queue

variable {q : Queue} {id j : Int} {r x : Request}

theorem get?_of_drop (h : (q.drop id).index.get? j = some x) : q.index.get? j = some x := by
  rw [get?_drop] at h
  split_ifs at h
  exact h

/-- Whoever waits after a request has come in place of another waited before, or is this one. -/
theorem get?_of_drop_push (h : ((q.drop r.id).push r).index.get? j = some x) :
    q.index.get? j = some x ∨ j = r.id ∧ x = r := by
  rw [get?_drop_push] at h
  split_ifs at h with hid
  · exact .inr ⟨hid, (Option.some.inj h).symm⟩
  · exact .inl h

end Queue

namespace Scheduler

variable {s : Scheduler} {limits : Settings} {now : Nat} {r x : Request} {id j : Int}

theorem waiting_requeue (h : (s.requeue limits now r).2.queue.index.get? j = some x) :
    s.queue.index.get? j = some x ∨ j = r.id ∧ x = r.countRetry.retryCopy now := by
  unfold requeue at h
  dsimp only at h
  split_ifs at h
  · exact .inl (Queue.get?_of_drop h)
  · exact Queue.get?_of_drop_push (r := r.countRetry.retryCopy now) h

theorem waiting_retryAfterError
    (h : (s.retryAfterError limits now r).2.queue.index.get? j = some x) :
    s.queue.index.get? j = some x ∨ j = r.id ∧ x.IsNextTry r := by
  unfold retryAfterError at h
  dsimp only at h
  split_ifs at h
  · exact .inl (Queue.get?_of_drop h)
  · refine (Queue.get?_of_drop_push (r := { r.countRetry with notBefore := _ }) h).imp_right ?_
    rintro ⟨hj, rfl⟩
    exact ⟨hj, _, _, _, rfl⟩
  · refine (Queue.get?_of_drop_push (r := { r.countRetry with notBefore := _ }) h).imp_right ?_
    rintro ⟨hj, rfl⟩
    exact ⟨hj, _, _, _, rfl⟩

theorem waiting_breakOff (h : (s.breakOff limits now id).2.queue.index.get? j = some x) :
    s.queue.index.get? j = some x ∨
      ∃ r, s.flights.get? id = some r ∧ j = r.id ∧ x = r.land.countRetry.retryCopy now := by
  cases hr : s.flights.get? id with
  | none =>
    rw [s.breakOff_of_none limits now hr] at h
    exact .inl h
  | some r =>
    rw [s.breakOff_of_some limits now hr] at h
    exact (waiting_requeue h).imp_right fun ⟨hj, hx⟩ => ⟨r, rfl, hj, hx⟩

/-- **Whoever waits after several transfers have been broken off** waited before, or is the next try
of one of them. -/
theorem waiting_breakOffAll {ids : List Int}
    (h : (s.breakOffAll limits now ids).2.queue.index.get? j = some x) :
    s.queue.index.get? j = some x ∨ ∃ id ∈ ids, ∃ r, s.flights.get? id = some r ∧ j = r.id ∧
      x = r.land.countRetry.retryCopy now := by
  induction ids generalizing s with
  | nil => exact .inl h
  | cons i rest ih =>
    rcases ih h with hqueue | ⟨id, hid, r, hr, hx⟩
    · exact (waiting_breakOff hqueue).imp_right fun ⟨r, hr, hx⟩ =>
        ⟨i, List.mem_cons_self, r, hr, hx⟩
    · exact .inr ⟨id, .tail _ hid, r, s.part_breakOff limits now i id r hr, hx⟩

end Scheduler

namespace Errand

variable {setup : Setup} {s : State} {e : Errand} {r : Request}

/-! ### Where those come from who are there after an errand -/

/-- An errand makes a new request for the queue. -/
def Enqueues (setup : Setup) (s : State) (r : Request) : Errand → Prop
  | review a => ∃ p, s.scheduler.verdict setup.policy a = .wanted p ∧ r = a.request p s.world.now
  | _ => False

/-- **Whoever waits after an errand** waited before it or was set aside, has been sent back, or is
new. -/
theorem waiting_origin (hq : s.scheduler.queue.Matched) (hfiled : s.scheduler.flights.Filed)
    (h : (e.perform setup s).state.scheduler.queue.index.get? r.id = some r) :
    s.AtHome [e] r ∨ (∃ r₀, e.SendsBack s r₀ ∧ r.IsNextTry r₀) ∨ e.Enqueues setup s r := by
  by_cases htouch : e.touchesBooks = false
  · rw [(perform_frame setup s e).queue htouch] at h
    exact .inl (.inl h)
  cases e with
  | review a =>
    rw [perform, doReview] at h
    split at h
    · exact .inl (.inl (Queue.get?_of_drop h))
    · exact .inl (.inl h)
    · exact .inl (.inl h)
    next p hp =>
      simp only [State.ring_queue] at h
      rw [Queue.get?_push] at h
      split_ifs at h
      · exact .inr (.inr ⟨p, hp, (Option.some.inj h).symm⟩)
      · exact .inl (.inl h)
  | takeNext aside =>
    rw [perform, doTakeNext] at h
    split_ifs at h
    · exact .inl (.inl h)
    · rcases Queue.pop_cases hq with ⟨hpop, -⟩ | ⟨x, q, hpop, -, -, hget⟩
      · rw [hpop] at h
        exact .inl (.inl h)
      · rw [hpop] at h
        dsimp only at h
        rw [hget] at h
        split_ifs at h
        exact .inl (.inl h)
  | screen x aside =>
    rw [perform, doScreen] at h
    split at h
    · exact .inl (.inl h)
    · exact .inl (.inl h)
    · dsimp only at h
      split_ifs at h <;> exact .inl (.inl h)
  | landed x accepted onward =>
    rw [perform] at h
    unfold doLanded at h
    split_ifs at h with haccepted
    · exact .inl (.inl h)
    · simp only [State.arm_queue, State.breakOff_scheduler] at h
      rcases Scheduler.waiting_breakOff h with hbefore | ⟨r₀, hr₀, -, rfl⟩
      · exact .inl (.inl hbefore)
      · exact .inr (.inl ⟨r₀, ⟨by simpa using haccepted, hr₀⟩, r₀.isNextTry_land _⟩)
  | putBack aside =>
    exact .inl ((get?_restore _ h).imp_right fun haside => ⟨_, List.mem_singleton_self _, haside⟩)
  | claim a rest =>
    rw [perform, doClaim] at h
    split_ifs at h <;> exact .inl (.inl h)
  | hear report =>
    rw [perform, doHear] at h
    split at h <;> exact .inl (.inl h)
  | settle id status =>
    rw [perform, doSettle] at h
    split at h
    · exact .inl (.inl h)
    next r₀ hr₀ =>
      dsimp only at h
      split_ifs at h with hstatus
      · have hretry : (Scheduler.retryAfterError { s.scheduler with
            flights := s.scheduler.flights.erase id
            failures := s.scheduler.failures.settle id (status == Status.success) }
            setup.settings s.world.now r₀.land).2.queue.index.get? r.id = some r := by
          split at h
          · simp only [State.ring_queue, State.abandon_scheduler] at h
            exact h
          · exact h
          · exact h
        rcases Scheduler.waiting_retryAfterError hretry with hbefore | ⟨-, _, _, _, rfl⟩
        · exact .inl (.inl hbefore)
        · exact .inr (.inl ⟨r₀, ⟨hstatus, hr₀⟩, _, _, _, rfl⟩)
      · exact .inl (.inl (Queue.get?_of_drop h))
  | askParent x record =>
    rw [perform, doAskParent] at h
    split at h
    next m hm =>
      simp only [State.ring_queue, State.requeue_scheduler] at h
      rcases Scheduler.waiting_requeue h with hbefore | ⟨-, rfl⟩
      · exact .inl (.inl hbefore)
      · exact .inr (.inl ⟨x, ⟨rfl, m, hm⟩, x.isNextTry_retryCopy _⟩)
    · exact .inl (.inl h)
    · exact .inl (.inl h)
  | tick timeout =>
    by_cases hstopped : s.scheduler.stopped = true
    · rw [perform, doTick, if_pos hstopped] at h
      exact .inl (.inl h)
    · have hrunning : s.scheduler.stopped = false := by simpa using hstopped
      rw [perform, queue_tick timeout hrunning] at h
      rcases Scheduler.waiting_breakOffAll h with hbefore | ⟨id, hid, r₀, hr₀, -, rfl⟩
      · exact .inl (.inl hbefore)
      · obtain rfl := hfiled _ _ hr₀
        exact .inr (.inl ⟨r₀, ⟨hrunning, hr₀, hid⟩, r₀.isNextTry_land _⟩)
  | _ => exact absurd rfl htouch

/-- **Whoever is at home after an errand** was so before it, has been sent back, or is new. -/
theorem atHome_origin (hq : s.scheduler.queue.Matched) (hfiled : s.scheduler.flights.Filed)
    (h : (e.perform setup s).state.AtHome (e.perform setup s).next r) :
    s.AtHome [e] r ∨ (∃ r₀, e.SendsBack s r₀ ∧ r.IsNextTry r₀) ∨ e.Enqueues setup s r := by
  rcases h with h | ⟨x, hx, hr⟩
  · exact waiting_origin hq hfiled h
  · exact .inl (aside_perform hq hx hr)

/-- **Whoever is abroad after an errand** is there for what somebody abroad was there for before it,
or has just been taken off. -/
theorem abroad_origin (hfiled : s.scheduler.flights.Filed)
    (h : (e.perform setup s).state.Abroad (e.perform setup s).next r) :
    (∃ r₀, s.Abroad [e] r₀ ∧ r₀.purpose = r.purpose) ∨
      ∃ onward, handOver r onward ∈ (e.perform setup s).next := by
  rcases h with h | ⟨x, hx, hr⟩
  · refine (flying_cases hfiled h).imp_left ?_
    rintro ⟨r₀, hr₀, hsame⟩
    have hid := hfiled _ _ hr₀
    refine ⟨r₀, .inl (by rw [hid]; exact hr₀), ?_⟩
    rcases hsame with rfl | ⟨report, -, -, rfl⟩
    · rfl
    · exact (Request.purpose_heard ..).symm
  · obtain ⟨r₀, hr₀, hsame⟩ := settling_cases hfiled hx hr
    refine .inl ⟨r₀, hr₀, ?_⟩
    rcases hsame with rfl | ⟨rfl, -⟩ <;> rfl

/-- **Whoever is handed over next** was kept by a round, or is new: the request for a record that
nobody asked for. -/
theorem taken_origin {onward : Onward} (h : handOver r onward ∈ (e.perform setup s).next) :
    (∃ r₀ ∈ e.aside, (∃ aside, onward = .queue aside) ∧ r₀.purpose = r.purpose) ∨
      onward = .done ∧ ∃ a rest, e = claim a rest ∧ a.id = r.id ∧ e.Creates setup s r.id := by
  rcases taken_off h with ⟨r₀, aside, rfl, rfl, rfl, -⟩ | ⟨a, rest, rfl, rfl, rfl⟩
  · exact .inl ⟨r₀, List.mem_cons_self, ⟨aside, rfl⟩, rfl⟩
  · exact .inr ⟨rfl, a, rest, rfl, rfl, (creates_of_claim h).1⟩

end Errand

end MailFetch

import MailFetch.Proofs.Desk
import MailFetch.Proofs.Errand

/-! # What an errand needs, and how it keeps the books in order

An errand that carries a request, or the outcome of an earlier question, relies on what was found
before: `Errand.Ready` says on what. The errand at the head of a task has what it needs, and the
others need nothing that could be lost meanwhile (`Orderly`).

* `Errand.perform_tidy`: an errand that has what it needs keeps the books in order, unless it
  collides: it requeues a request of which another instance is in flight.
* `Errand.perform_orderly`: what an errand leads to has in turn what it needs. -/

namespace MailFetch

/-- The requests that a round has set aside for later. -/
def Onward.aside : Onward → List Request
  | .queue aside => aside
  | .done => []

/-- A round asks about a record only if no request for it waits. -/
def Asker.Unqueued (s : State) : Asker → Prop
  | .caller => True
  | .round a _ => s.scheduler.queue.contains a.id = false

/-- The books of a state are in order. -/
def State.InOrder (setup : Setup) (s : State) : Prop :=
  Tidy setup.settings s.world.now s.scheduler.queue s.scheduler.flights

namespace Errand

variable {setup : Setup} {s : State} {e : Errand}

/-- **What an errand needs** when its turn comes. -/
def Ready (setup : Setup) (s : State) : Errand → Prop
  | takeNext aside | putBack aside => ∀ r ∈ aside, r.FitToWait setup.settings s.world.now
  | screen r aside =>
    (∀ x ∈ r :: aside, x.FitToWait setup.settings s.world.now) ∧
      s.scheduler.queue.contains r.id = false ∧ s.scheduler.flights.contains r.id = false
  | handOver r onward =>
    s.scheduler.flights.contains r.id = true ∧
      ∀ x ∈ onward.aside, x.FitToWait setup.settings s.world.now
  | landed _ _ onward => ∀ x ∈ onward.aside, x.FitToWait setup.settings s.world.now
  | conclude r _ | askParent r _ => r.active = false ∧ r.Prompt setup.settings s.world.now
  | budget _ asker | share _ _ asker => asker.Unqueued s
  | claim a _ => s.scheduler.queue.contains a.id = false
  | _ => True

/-- What an errand needs it does not lose as the world goes on. -/
theorem Ready.withWorld (h : e.Ready setup s) {w : World} (hle : s.world.now ≤ w.now) :
    e.Ready setup (s.withWorld w) := by
  cases e with
  | takeNext _ | putBack _ | landed _ _ _ => exact fun x hx => (h x hx).later hle
  | screen _ _ => exact ⟨fun x hx => (h.1 x hx).later hle, h.2⟩
  | handOver _ _ => exact ⟨h.1, fun x hx => (h.2 x hx).later hle⟩
  | conclude _ _ | askParent _ _ => exact ⟨h.1, h.2.later hle⟩
  | budget _ _ | share _ _ _ | claim _ _ => exact h
  | _ => trivial

/-- An errand that needs nothing which may be lost while it waits for its turn. -/
def Standing (setup : Setup) (s : State) (e : Errand) : Prop :=
  ∀ t, s.world.now ≤ t.world.now → e.Ready setup t

/-- **A task in order**: its first errand has what it needs, and the others can wait. -/
def Orderly (setup : Setup) : State → List Errand → Prop := InLine (Ready setup)

/-- An errand that needs nothing at all. -/
def isPlain : Errand → Bool
  | takeNext _ | putBack _ | screen _ _ | handOver _ _ | landed _ _ _ | conclude _ _
  | askParent _ _ | budget _ _ | share _ _ _ | claim _ _ => false
  | _ => true

theorem standing_of_isPlain (h : e.isPlain = true) : e.Standing setup s := by
  intro t _
  cases e <;> trivial

/-- **A collision**: a request is put back into the queue although another instance of it is in
flight. Only a transfer that did not find its message does so, when the message is there after all
and the request still has retries left. -/
def Collides (setup : Setup) (s : State) : Errand → Prop
  | askParent r _ =>
    s.scheduler.flights.contains r.id = true ∧ 0 ≤ r.id ∧
      r.countRetry.retries ≤ setup.settings.maxRetries ∧
      ∃ m, s.world.message r.message = .ok (some m)
  | _ => False

/-! ### The books -/

theorem tidy_review (h : s.InOrder setup) (a : Attachment) :
    (doReview setup s a).state.InOrder setup := by
  unfold doReview
  cases hv : s.scheduler.verdict setup.policy a with
  | unasked => exact h.drop a.id
  | known => exact h
  | forbidden => exact h
  | wanted p =>
    have hfree : s.scheduler.flights.contains a.id = false := by
      unfold Scheduler.verdict at hv
      split at hv
      · cases hv
      · split_ifs at hv with hknown
        simp only [Bool.or_eq_true, not_or, Bool.not_eq_true] at hknown
        exact hknown.1
    exact Tidy.push h fun hpos => ⟨⟨rfl, hpos, UInt32.zero_le, nofun⟩, hfree⟩

theorem tidy_takeNext (h : s.InOrder setup) (aside : List Request) :
    (doTakeNext setup s aside).state.InOrder setup := by
  unfold doTakeNext
  split_ifs
  · exact h
  · rcases Queue.pop_cases (Tidy.matched h) with ⟨hpop, -⟩ | ⟨r, q, hpop, -⟩
    · rw [hpop]
      exact h
    · rw [hpop]
      exact (Tidy.pop h hpop).1

theorem tidy_screen (h : s.InOrder setup) {r : Request} {aside : List Request}
    (hr : (screen r aside).Ready setup s) : (doScreen setup s r aside).state.InOrder setup := by
  obtain ⟨hall, hq, -⟩ := hr
  unfold doScreen
  split
  · exact h
  · exact h
  · dsimp only
    split_ifs
    · exact h
    · exact h
    · exact Tidy.insert h (Request.airborne_dispatch (hall r List.mem_cons_self).prompt) hq

theorem tidy_landed (h : s.InOrder setup) (r : Request) (accepted : Bool) (onward : Onward) :
    (doLanded setup s r accepted onward).state.InOrder setup := by
  unfold doLanded
  split_ifs
  · exact h
  · unfold State.InOrder
    simp only [State.arm_world, State.arm_queue, State.arm_flights, State.breakOff_world,
      State.breakOff_scheduler]
    exact Tidy.breakOff h r.id

theorem tidy_claim (h : s.InOrder setup) {a : Attachment} {rest : List Attachment}
    (hr : (claim a rest).Ready setup s) : (doClaim setup s a rest).state.InOrder setup := by
  unfold doClaim
  split_ifs
  · exact h
  · exact Tidy.insert h (Request.airborne_dispatch nofun) hr

/-- A report on a request in flight leaves it in flight. -/
theorem tidy_hear (h : s.InOrder setup) (report : Report) :
    (doHear s report).state.InOrder setup := by
  unfold doHear
  split
  · exact h
  next r hr =>
    obtain ⟨hid, hact, ⟨start, heard, hstart, hheard, hle, hnow⟩, hprompt⟩ := Tidy.flying h _ r hr
    have hid' : (r.heard s.world.now report.status report.percent).id = report.id := by
      unfold Request.heard
      dsimp only
      split_ifs <;> exact hid
    refine Tidy.insert h ⟨?_, ⟨start, s.world.now, ?_, ?_, by omega, by omega⟩, ?_⟩ ?_
    · unfold Request.heard
      dsimp only
      split_ifs <;> exact hact
    · unfold Request.heard
      dsimp only
      split_ifs <;> exact hstart
    · unfold Request.heard
      dsimp only
      split_ifs <;> rfl
    · unfold Request.heard
      dsimp only
      split_ifs <;> exact hprompt
    · rw [hid']
      exact Tidy.not_waiting_of_flying h (Flights.contains_iff.mpr ⟨r, hr⟩)

theorem tidy_settle (h : s.InOrder setup) (id : Int) (status : Status) :
    (doSettle setup s id status).state.InOrder setup := by
  unfold doSettle
  split
  · exact h
  next r hr =>
    have hid : r.land.id = id := (Tidy.flying h id r hr).1
    have hgone : (s.scheduler.flights.erase id).contains r.land.id = false := by
      rw [Flights.contains_eq_false_iff, Flights.get?_erase, if_pos hid]
    dsimp only
    split_ifs
    · have hretry := Tidy.retryAfterError (s := { s.scheduler with
        flights := s.scheduler.flights.erase id
        failures := s.scheduler.failures.settle id (status == Status.success) })
        (Tidy.erase h id) (r := r.land) rfl hgone
      split
      · unfold State.InOrder
        simp only [State.ring_world, State.ring_queue, State.ring_flights, State.abandon_world,
          State.abandon_scheduler]
        exact hretry
      · exact hretry
      · exact hretry
    · exact (Tidy.erase h id).drop id

theorem tidy_askParent (h : s.InOrder setup) {r : Request} {record : Option Attachment}
    (hr : (askParent r record).Ready setup s) (hc : ¬ (askParent r record).Collides setup s) :
    (doAskParent setup s r record).state.InOrder setup := by
  unfold doAskParent
  split
  next m hm =>
    unfold State.InOrder
    simp only [State.ring_world, State.ring_queue, State.ring_flights, State.requeue_world,
      State.requeue_scheduler]
    refine Tidy.requeue h hr.1 hr.2 fun hpos hle => ?_
    by_contra hf
    exact hc ⟨by simpa using hf, hpos, hle, m, hm⟩
  · exact h
  · exact h

theorem tidy_tick (h : s.InOrder setup) (timeout : Nat) :
    (doTick setup s timeout).state.InOrder setup := by
  unfold doTick
  split_ifs
  · exact h
  · have hbroken := Tidy.breakOffAll h (s.scheduler.flights.stalled timeout s.world.now)
    unfold State.InOrder
    dsimp only
    split_ifs <;>
      simpa only [State.ring_world, State.ring_queue, State.ring_flights, State.abandon_world,
        State.abandon_scheduler] using hbroken

/-- **An errand that has what it needs keeps the books in order**, unless it collides. -/
theorem perform_tidy (h : s.InOrder setup) (hr : e.Ready setup s) (hc : ¬ e.Collides setup s) :
    (e.perform setup s).state.InOrder setup := by
  by_cases htouch : e.touchesBooks = false
  · have hframe := perform_frame setup s e
    unfold State.InOrder
    rw [hframe.now, hframe.queue htouch, hframe.flights htouch]
    exact h
  cases e with
  | review a => exact tidy_review h a
  | takeNext aside => exact tidy_takeNext h aside
  | screen r aside => exact tidy_screen h hr
  | landed r accepted onward => exact tidy_landed h r accepted onward
  | putBack aside => exact Tidy.restore hr h
  | claim a rest => exact tidy_claim h hr
  | hear report => exact tidy_hear h report
  | settle id status => exact tidy_settle h id status
  | askParent r record => exact tidy_askParent h hr hc
  | tick timeout => exact tidy_tick h timeout
  | _ => exact absurd rfl htouch

/-! ### What comes next -/

theorem orderly_takeNext (h : s.InOrder setup) {aside : List Request}
    (hr : (takeNext aside).Ready setup s) :
    Orderly setup (doTakeNext setup s aside).state (doTakeNext setup s aside).next := by
  unfold doTakeNext
  split_ifs
  · exact inLine_singleton hr
  · rcases hp : s.scheduler.queue.pop with ⟨_ | r, q⟩
    · exact inLine_singleton hr
    · obtain ⟨-, hfit, hq, hf⟩ := Tidy.pop h hp
      have hall : ∀ x ∈ r :: aside, x.FitToWait setup.settings s.world.now := by
        rintro x (_ | ⟨_, hx⟩)
        · exact hfit
        · exact hr x hx
      dsimp only
      split_ifs
      · exact inLine_singleton ⟨hall, hq, hf⟩
      · refine inLine_singleton fun x hx => ?_
        rcases List.mem_append.mp hx with hx | hx
        · exact hr x hx
        · exact hall x (by simp_all)

theorem orderly_screen {r : Request} {aside : List Request} (hr : (screen r aside).Ready setup s) :
    Orderly setup (doScreen setup s r aside).state (doScreen setup s r aside).next := by
  obtain ⟨hall, -, -⟩ := hr
  have haside : ∀ x ∈ aside, x.FitToWait setup.settings s.world.now :=
    fun x hx => hall x (.tail _ hx)
  have hboth : ∀ x ∈ aside ++ [r], x.FitToWait setup.settings s.world.now := by
    intro x hx
    rcases List.mem_append.mp hx with hx | hx
    · exact haside x hx
    · exact hall x (by simp_all)
  unfold doScreen
  split
  · exact inLine_singleton haside
  · exact inLine_singleton hboth
  · dsimp only
    split_ifs
    · exact inLine_singleton hboth
    · exact inLine_singleton hboth
    · refine inLine_singleton ⟨?_, haside⟩
      exact Flights.contains_iff.mpr
        ⟨r.dispatch s.world.now, by simp [Scheduler.takeOff, Request.dispatch]⟩

theorem orderly_handOver {r : Request} {onward : Onward}
    (hr : (handOver r onward).Ready setup s) :
    Orderly setup (doHandOver s r onward).state (doHandOver s r onward).next := by
  have hnow := (frame_handOver s r onward).now
  have hlanded : ∀ accepted,
      (landed r accepted onward).Standing setup (doHandOver s r onward).state := by
    intro accepted t hle x hx
    rw [hnow] at hle
    exact (hr.2 x hx).later hle
  obtain ⟨accepted, hnext | ⟨report, hnext⟩⟩ := leads_handOver s r onward
  · rw [hnext]
    exact inLine_singleton (hlanded accepted _ (Nat.le_refl _))
  · rw [hnext]
    exact ⟨trivial, fun x hx => by rw [List.mem_singleton.mp hx]; exact hlanded accepted⟩

theorem orderly_landed {r : Request} {accepted : Bool} {onward : Onward}
    (hr : (landed r accepted onward).Ready setup s) :
    Orderly setup (doLanded setup s r accepted onward).state
      (doLanded setup s r accepted onward).next := by
  have hnow := (frame_landed setup s r accepted onward).now
  have haside : ∀ x ∈ onward.aside,
      x.FitToWait setup.settings (doLanded setup s r accepted onward).state.world.now := by
    rw [hnow]
    exact hr
  rcases leads_landed setup s r accepted onward with ⟨-, hnext⟩ | ⟨aside, rfl, hnext | hnext⟩
  · rw [hnext]
    trivial
  · rw [hnext]
    exact inLine_singleton haside
  · rw [hnext]
    exact inLine_singleton haside

theorem orderly_vet (a : Attachment) (rest : List Attachment) :
    Orderly setup (doVet setup s a rest).state (doVet setup s a rest).next := by
  unfold doVet
  split
  · exact inLine_of_forall (by simp [Ready])
  · exact inLine_singleton trivial
  · split_ifs with hbarred
    · exact inLine_singleton trivial
    all_goals
      simp only [Bool.or_eq_true, not_or, Bool.not_eq_true] at hbarred
      exact inLine_singleton hbarred.2

/-- After the answer about a budget, a round either claims the record or goes on. -/
theorem orderly_afterBudget {asker : Asker} (h : asker.Unqueued s) (yes : Bool) :
    Orderly setup s (afterBudget yes asker) := by
  cases asker with
  | caller => exact inLine_singleton trivial
  | round a rest =>
    cases yes with
    | false => exact inLine_singleton trivial
    | true => exact inLine_singleton h

theorem orderly_budget {account : Account} {asker : Asker} (h : asker.Unqueued s) :
    Orderly setup (doBudget setup s account asker).state
      (doBudget setup s account asker).next := by
  unfold doBudget
  split_ifs
  · exact orderly_afterBudget h _
  · split
    · exact orderly_afterBudget h _
    · split_ifs
      · exact orderly_afterBudget h _
      · exact inLine_singleton h

theorem orderly_share {account : Account} {total : Nat} {asker : Asker} (h : asker.Unqueued s) :
    Orderly setup (doShare setup s account total asker).state
      (doShare setup s account total asker).next := by
  have hqueue : ∀ s' : State, s'.scheduler.queue = s.scheduler.queue → asker.Unqueued s' := by
    intro s' hs'
    cases asker with
    | caller => trivial
    | round a rest =>
      unfold Asker.Unqueued
      rw [hs']
      exact h
  unfold doShare
  split
  · exact orderly_afterBudget h _
  · dsimp only
    split
    · exact orderly_afterBudget h _
    · split <;> exact orderly_afterBudget (hqueue _ rfl) _

theorem orderly_claim (a : Attachment) (rest : List Attachment) :
    Orderly setup (doClaim setup s a rest).state (doClaim setup s a rest).next := by
  unfold doClaim
  split_ifs
  · exact inLine_singleton trivial
  · refine inLine_singleton ⟨?_, by simp [Onward.aside]⟩
    exact Flights.contains_iff.mpr ⟨(a.request .background s.world.now).dispatch s.world.now,
      by simp [Scheduler.takeOff, Request.dispatch]⟩

theorem orderly_settle (h : s.InOrder setup) (id : Int) (status : Status) :
    Orderly setup (doSettle setup s id status).state (doSettle setup s id status).next := by
  unfold doSettle
  split
  · trivial
  next r hr =>
    dsimp only
    split_ifs
    · split <;> trivial
    · exact inLine_singleton ⟨rfl, (Tidy.flying h id r hr).2.prompt⟩

theorem orderly_conclude {r : Request} {status : Status} (hr : (conclude r status).Ready setup s) :
    Orderly setup (doConclude s r status).state (doConclude s r status).next := by
  unfold doConclude
  split
  · trivial
  · split_ifs
    · exact inLine_singleton hr
    · exact inLine_singleton trivial
    · exact inLine_singleton trivial

/-- **What an errand leads to is in order**, if the errand had what it needs. -/
theorem perform_orderly (h : s.InOrder setup) (hr : e.Ready setup s) :
    Orderly setup (e.perform setup s).state (e.perform setup s).next := by
  have hl := perform_leads setup s e
  cases e with
  | takeNext aside => exact orderly_takeNext h hr
  | screen r aside => exact orderly_screen hr
  | handOver r onward => exact orderly_handOver hr
  | landed r accepted onward => exact orderly_landed hr
  | vet a rest => exact orderly_vet a rest
  | budget account asker => exact orderly_budget hr
  | share account total asker => exact orderly_share hr
  | claim a rest => exact orderly_claim a rest
  | settle id status => exact orderly_settle h id status
  | conclude r status => exact orderly_conclude hr
  | beginRound => exact inLine_singleton (List.forall_mem_nil _)
  | _ =>
    -- The other errands lead only to errands that need nothing.
    refine inLine_of_forall fun x hx => standing_of_isPlain ?_
    grind [Leads, isPlain]

end Errand

/-! ### Operations begin in order -/

namespace Operation

variable {setup : Setup} {s : State}

theorem state_inOrder (h : s.InOrder setup) (op : Operation) : (op.state s).InOrder setup := by
  cases op with
  | notify id flags =>
    unfold state Scheduler.notify State.withScheduler
    split_ifs <;> exact h
  | _ => exact h

theorem standing_of_isFirst {e : Errand} (h : isFirst e = true) : e.Standing setup s := by
  intro t _
  cases e with
  | budget account asker =>
    cases asker with
    | caller => trivial
    | round a rest => cases h
  | takeNext _ | putBack _ | screen _ _ | handOver _ _ | landed _ _ _ | conclude _ _
  | askParent _ _ | share _ _ _ | claim _ _ => cases h
  | _ => trivial

end Operation

end MailFetch

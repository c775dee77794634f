import MailFetch.Proofs.Readiness
import MailFetch.Proofs.SendingBack

/-! # Where requests are, and where they come from

A request is at home while it is still to be handed over: it waits, or a round keeps it for later.
It is abroad from then on, until nothing of it is left: it is in flight, or the end of its transfer
is being looked into. `Errand.perform_atHome` and `Errand.perform_abroad` say of every errand where
the requests come from that are at home or abroad after it:

* from home to home, or from abroad to abroad, as they were;
* from home to abroad when they are taken off;
* from abroad to home when they are sent back, with one more retry;
* from nowhere, if the errand makes a new request (`Errand.Creates`). -/

namespace MailFetch

/-! ### The two places -/

namespace Errand

/-- The requests that a round keeps for later. -/
def aside : Errand → List Request
  | takeNext aside | putBack aside => aside
  | screen r aside => r :: aside
  | handOver _ onward | landed _ _ onward => onward.aside
  | _ => []

/-- The request into whose end an errand looks. -/
def settling : Errand → Option Request
  | conclude r _ | askParent r _ => some r
  | _ => none

/-- **An errand makes a new request** for an attachment. -/
def Creates (setup : Setup) (s : State) (id : Int) : Errand → Prop
  | review a => a.id = id ∧ 0 ≤ id ∧ ∃ p, s.scheduler.verdict setup.policy a = .wanted p
  | claim a _ =>
    a.id = id ∧ s.scheduler.flights.contains id = false ∧
      s.scheduler.hasRoomFor setup.settings a.account = true
  | _ => False

end Errand

namespace State

/-- **A request is at home**: it waits, or one of the errands that are still to do keeps it. -/
def AtHome (s : State) (es : List Errand) (r : Request) : Prop :=
  s.scheduler.queue.index.get? r.id = some r ∨ ∃ e ∈ es, r ∈ e.aside

/-- **A request is abroad**: it is in flight, or one of the errands that are still to do looks into
its end. -/
def Abroad (s : State) (es : List Errand) (r : Request) : Prop :=
  s.scheduler.flights.get? r.id = some r ∨ ∃ e ∈ es, e.settling = some r

variable {s : State} {es es' : List Errand} {r : Request}

theorem AtHome.mono (h : s.AtHome es r) (hsub : ∀ e ∈ es, e ∈ es') : s.AtHome es' r :=
  h.imp_right fun ⟨e, he, hr⟩ => ⟨e, hsub e he, hr⟩

theorem Abroad.mono (h : s.Abroad es r) (hsub : ∀ e ∈ es, e ∈ es') : s.Abroad es' r :=
  h.imp_right fun ⟨e, he, hr⟩ => ⟨e, hsub e he, hr⟩

/-- **There is a request** for an attachment, at home or abroad. -/
def Live (s : State) (es : List Errand) (id : Int) : Prop :=
  ∃ r, r.id = id ∧ (s.AtHome es r ∨ s.Abroad es r)

theorem Live.mono {id : Int} (h : s.Live es id) (hsub : ∀ e ∈ es, e ∈ es') : s.Live es' id := by
  obtain ⟨r, hid, hr⟩ := h
  exact ⟨r, hid, hr.imp (·.mono hsub) (·.mono hsub)⟩

theorem AtHome.append (h : s.AtHome (es ++ es') r) : s.AtHome es r ∨ ∃ e ∈ es', r ∈ e.aside := by
  rcases h with h | ⟨e, he, hr⟩
  · exact .inl (.inl h)
  · rcases List.mem_append.mp he with he | he
    · exact .inl (.inr ⟨e, he, hr⟩)
    · exact .inr ⟨e, he, hr⟩

theorem Abroad.append (h : s.Abroad (es ++ es') r) :
    s.Abroad es r ∨ ∃ e ∈ es', e.settling = some r := by
  rcases h with h | ⟨e, he, hr⟩
  · exact .inl (.inl h)
  · rcases List.mem_append.mp he with he | he
    · exact .inl (.inr ⟨e, he, hr⟩)
    · exact .inr ⟨e, he, hr⟩

/-- Errands that keep nothing for later do not matter. -/
theorem AtHome.of_mem (h : s.AtHome es r) (hsub : ∀ e ∈ es, e ∈ es' ∨ e.aside = []) :
    s.AtHome es' r := by
  rcases h with hr | ⟨e, he, hr⟩
  · exact .inl hr
  · rcases hsub e he with he | hnone
    · exact .inr ⟨e, he, hr⟩
    · rw [hnone] at hr
      cases hr

/-- Errands that look into no end do not matter. -/
theorem Abroad.of_mem (h : s.Abroad es r) (hsub : ∀ e ∈ es, e ∈ es' ∨ e.settling = none) :
    s.Abroad es' r := by
  rcases h with hr | ⟨e, he, hr⟩
  · exact .inl hr
  · rcases hsub e he with he | hnone
    · exact .inr ⟨e, he, hr⟩
    · rw [hnone] at hr
      cases hr

/-- Errands that carry nothing do not matter. -/
theorem Live.of_mem {id : Int} (h : s.Live es id)
    (hsub : ∀ e ∈ es, e ∈ es' ∨ e.aside = [] ∧ e.settling = none) : s.Live es' id := by
  obtain ⟨r, hid, hr⟩ := h
  refine ⟨r, hid, hr.imp (·.of_mem fun e he => ?_) (·.of_mem fun e he => ?_)⟩
  · exact (hsub e he).imp_right And.left
  · exact (hsub e he).imp_right And.right

end State

namespace Errand

variable {setup : Setup} {s : State} {e : Errand} {r : Request}

/-- A request that is sent back was abroad. -/
theorem SendsBack.abroad (h : e.SendsBack s r) (hfiled : s.scheduler.flights.Filed) :
    s.Abroad [e] r := by
  cases e with
  | landed x accepted onward =>
    have hid : r.id = x.id := hfiled _ _ h.2
    exact .inl (by rw [hid]; exact h.2)
  | settle id status =>
    have hid : r.id = id := hfiled _ _ h.2
    exact .inl (by rw [hid]; exact h.2)
  | askParent x record => exact .inr ⟨_, List.mem_cons_self, congrArg some h.1⟩
  | tick timeout => exact .inl h.2.1
  | _ => exact h.elim

/-! ### The two halves of the queue -/

theorem matched_restore (f : Flights) (aside : List Request) {q : Queue} (h : q.Matched) :
    (aside.foldl (fun q r => if f.contains r.id then q else q.push r) q).Matched := by
  induction aside generalizing q with
  | nil => exact h
  | cons r rest ih =>
    rw [List.foldl_cons]
    refine ih ?_
    split_ifs
    · exact h
    · exact h.push r

/-- **The two halves of the queue agree** after every errand, if they did before. -/
theorem perform_matched (setup : Setup) (e : Errand) (h : s.scheduler.queue.Matched) :
    (e.perform setup s).state.scheduler.queue.Matched := by
  by_cases htouch : e.touchesBooks = false
  · rw [(perform_frame setup s e).queue htouch]
    exact h
  cases e with
  | review a =>
    rw [perform, doReview]
    split
    · exact h.drop a.id
    · exact h
    · exact h
    · exact h.push _
  | takeNext aside =>
    rw [perform, doTakeNext]
    split_ifs
    · exact h
    · rcases Queue.pop_cases h with ⟨hpop, -⟩ | ⟨r, q, hpop, hq, -⟩
      · rw [hpop]
        exact h
      · rw [hpop]
        exact hq
  | screen r aside =>
    rw [perform, doScreen]
    split
    · exact h
    · exact h
    · dsimp only
      split_ifs <;> exact h
  | landed r accepted onward =>
    rw [perform]
    unfold doLanded
    split_ifs
    · exact h
    · simp only [State.arm_queue, State.breakOff_scheduler]
      exact Scheduler.matched_breakOff _ _ _ h r.id
  | putBack aside => exact matched_restore _ aside h
  | claim a rest =>
    rw [perform, doClaim]
    split_ifs <;> exact h
  | hear report =>
    rw [perform, doHear]
    split <;> exact h
  | settle id status =>
    rw [perform, doSettle]
    split
    · exact h
    next r hr =>
      dsimp only
      split_ifs
      · have hretry := Scheduler.matched_retryAfterError { s.scheduler with
          flights := s.scheduler.flights.erase id
          failures := s.scheduler.failures.settle id (status == Status.success) }
          setup.settings s.world.now h r.land
        split
        · simp only [State.ring_queue, State.abandon_scheduler]
          exact hretry
        · exact hretry
        · exact hretry
      · exact h.drop id
  | askParent r record =>
    rw [perform, doAskParent]
    split
    · simp only [State.ring_queue, State.requeue_scheduler]
      exact Scheduler.matched_requeue _ _ _ h r
    · exact h
    · exact h
  | tick timeout =>
    by_cases hstopped : s.scheduler.stopped = true
    · rw [perform, doTick, if_pos hstopped]
      exact h
    · rw [perform, queue_tick timeout (by simpa using hstopped)]
      exact Scheduler.matched_breakOffAll _ _ _ h _
  | _ => exact absurd rfl htouch

/-! ### Who waits after an errand -/

theorem get?_restore (f : Flights) {aside : List Request} {q : Queue} {id : Int}
    (h : (aside.foldl (fun q r => if f.contains r.id then q else q.push r) q).index.get? id =
      some r) : q.index.get? id = some r ∨ r ∈ aside := by
  induction aside generalizing q with
  | nil => exact .inl h
  | cons x rest ih =>
    rw [List.foldl_cons] at h
    rcases ih h with hq | hrest
    · split_ifs at hq
      · exact .inl hq
      · rw [Queue.get?_push] at hq
        split_ifs at hq
        · exact .inr (by rw [← Option.some.inj hq]; exact List.mem_cons_self)
        · exact .inl hq
    · exact .inr (.tail _ hrest)

/-- A request that has been sent back, as it is at home again. -/
def IsRetry (setup : Setup) (s : State) (e : Errand) (r : Request) : Prop :=
  ∃ r₀, e.SendsBack s r₀ ∧ r.id = r₀.id ∧ r.retries = r₀.countRetry.retries ∧
    r.retries ≤ setup.settings.maxRetries

/-- Whoever waits after an errand that sends nobody back for the attachment waited before it, was
set aside, or is new. -/
theorem waiting_of_not_sendsBack (hq : s.scheduler.queue.Matched)
    (hfiled : s.scheduler.flights.Filed) (hback : ∀ r₀, e.SendsBack s r₀ → r₀.id ≠ r.id)
    (h : (e.perform setup s).state.scheduler.queue.index.get? r.id = some r) :
    s.scheduler.queue.index.get? r.id = some r ∨ r ∈ e.aside ∨
      e.Creates setup s r.id ∧ r.retries = 0 := by
  have hdrop : ∀ id, (s.scheduler.queue.drop id).index.get? r.id = some r →
      s.scheduler.queue.index.get? r.id = some r := by
    intro id hr
    rw [Queue.get?_drop] at hr
    split_ifs at hr
    exact hr
  by_cases htouch : e.touchesBooks = false
  · rw [(perform_frame setup s e).queue htouch] at h
    exact .inl h
  cases e with
  | review a =>
    rw [perform, doReview] at h
    split at h
    · exact .inl (hdrop a.id h)
    · exact .inl h
    · exact .inl h
    next p hp =>
      simp only [State.ring_queue] at h
      rw [Queue.get?_push] at h
      split_ifs at h with hnew
      · obtain rfl := Option.some.inj h
        exact .inr (.inr ⟨⟨rfl, hnew.2.1, p, hp⟩, rfl⟩)
      · exact .inl h
  | takeNext aside =>
    rw [perform, doTakeNext] at h
    split_ifs at h
    · exact .inl h
    · rcases Queue.pop_cases hq with ⟨hpop, -⟩ | ⟨x, q, hpop, -, -, hget⟩
      · rw [hpop] at h
        exact .inl h
      · rw [hpop] at h
        dsimp only at h
        rw [hget] at h
        split_ifs at h
        exact .inl h
  | screen x aside =>
    rw [perform, doScreen] at h
    split at h
    · exact .inl h
    · exact .inl h
    · dsimp only at h
      split_ifs at h <;> exact .inl h
  | landed x accepted onward =>
    rw [perform] at h
    unfold doLanded at h
    split_ifs at h with haccepted
    · exact .inl h
    · simp only [State.arm_queue, State.breakOff_scheduler] at h
      cases hx : s.scheduler.flights.get? x.id with
      | none =>
        rw [Scheduler.breakOff_of_none _ _ _ hx] at h
        exact .inl h
      | some r₀ =>
        have hid : r₀.id = x.id := hfiled _ _ hx
        have hne := hback r₀ ⟨by simpa using haccepted, hx⟩
        rw [Scheduler.get?_breakOff _ _ _ hfiled (by rw [← hid]; exact hne.symm)] at h
        exact .inl h
  | putBack aside => exact (get?_restore _ h).imp_right .inl
  | claim a rest =>
    rw [perform, doClaim] at h
    split_ifs at h <;> exact .inl h
  | hear report =>
    rw [perform, doHear] at h
    split at h <;> exact .inl h
  | settle id status =>
    rw [perform, doSettle] at h
    split at h
    · exact .inl h
    next r₀ hr₀ =>
      dsimp only at h
      split_ifs at h with hstatus
      · have hne : r.id ≠ r₀.land.id := (hback r₀ ⟨hstatus, hr₀⟩).symm
        have hkept := Scheduler.get?_retryAfterError { s.scheduler with
          flights := s.scheduler.flights.erase id
          failures := s.scheduler.failures.settle id (status == Status.success) }
          setup.settings s.world.now r₀.land hne
        split at h
        · simp only [State.ring_queue, State.abandon_scheduler] at h
          exact .inl (hkept.symm.trans h)
        · exact .inl (hkept.symm.trans h)
        · exact .inl (hkept.symm.trans h)
      · exact .inl (hdrop id h)
  | askParent x record =>
    rw [perform, doAskParent] at h
    split at h
    next m hm =>
      simp only [State.ring_queue, State.requeue_scheduler] at h
      rw [Scheduler.get?_requeue _ _ _ x (hback x ⟨rfl, m, hm⟩).symm] at h
      exact .inl h
    · exact .inl h
    · exact .inl h
  | tick timeout =>
    by_cases hstopped : s.scheduler.stopped = true
    · rw [perform, doTick, if_pos hstopped] at h
      exact .inl h
    · have hrunning : s.scheduler.stopped = false := by simpa using hstopped
      rw [perform, queue_tick timeout hrunning] at h
      have hnot : r.id ∉ s.scheduler.flights.stalled timeout s.world.now := by
        intro hmem
        obtain ⟨x, hx, -⟩ := (Flights.mem_stalled hfiled).mp hmem
        have hid := hfiled _ _ hx
        rw [← hid] at hx hmem
        exact hback x ⟨hrunning, hx, hmem⟩ hid
      rw [(Scheduler.breakOffAll_other _ _ _ hfiled (.inl hnot)).1] at h
      exact .inl h
  | _ => exact absurd rfl htouch

/-- **Whoever waits after an errand** waited before it, was set aside, has been sent back, or is
new. -/
theorem waiting_perform (hq : s.scheduler.queue.Matched) (hfiled : s.scheduler.flights.Filed)
    (h : (e.perform setup s).state.scheduler.queue.index.get? r.id = some r) :
    s.AtHome [e] r ∨ e.IsRetry setup s r ∨ e.Creates setup s r.id ∧ r.retries = 0 := by
  by_cases hback : ∃ r₀, e.SendsBack s r₀ ∧ r₀.id = r.id
  · obtain ⟨r₀, hr₀, hid⟩ := hback
    rw [← hid] at h
    obtain ⟨-, hretries, hle⟩ := (perform_returned setup hfiled hr₀).again r h
    exact .inr (.inl ⟨r₀, hr₀, hid.symm, hretries, by rw [hretries]; exact hle⟩)
  · have hnot : ∀ r₀, e.SendsBack s r₀ → r₀.id ≠ r.id := fun r₀ hr₀ hid => hback ⟨r₀, hr₀, hid⟩
    rcases waiting_of_not_sendsBack hq hfiled hnot h with hwaits | haside | hnew
    · exact .inl (.inl hwaits)
    · exact .inl (.inr ⟨e, List.mem_singleton_self e, haside⟩)
    · exact .inr (.inr hnew)

/-- **Whoever is kept for later after an errand** was so before, or waited. -/
theorem aside_perform (hq : s.scheduler.queue.Matched) {x : Errand}
    (hx : x ∈ (e.perform setup s).next) (hr : r ∈ x.aside) : s.AtHome [e] r := by
  have hl := perform_leads setup s e
  have hkept : r ∈ e.aside → s.AtHome [e] r := fun h => .inr ⟨e, List.mem_singleton_self e, h⟩
  cases e with
  | takeNext aside =>
    rw [perform, doTakeNext] at hx
    split_ifs at hx
    · rw [List.mem_singleton.mp hx] at hr
      exact hkept hr
    · rcases Queue.pop_cases hq with ⟨hpop, -⟩ | ⟨r', q, hpop, -, hget, -⟩
      · rw [hpop] at hx
        rw [List.mem_singleton.mp hx] at hr
        exact hkept hr
      · rw [hpop] at hx
        have hboth : r = r' ∨ r ∈ aside := by
          dsimp only at hx
          split_ifs at hx
          · rw [List.mem_singleton.mp hx] at hr
            exact List.mem_cons.mp hr
          · rw [List.mem_singleton.mp hx] at hr
            rcases List.mem_append.mp hr with hr | hr
            · exact .inr hr
            · exact .inl (List.mem_singleton.mp hr)
        rcases hboth with rfl | hr
        · exact .inl hget
        · exact hkept hr
  | screen r' aside =>
    refine hkept ?_
    rcases hl with h | h | h | ⟨now, h⟩ <;> rw [h] at hx <;> rw [List.mem_singleton.mp hx] at hr
    · exact .tail _ hr
    · exact List.mem_cons.mpr (by simpa [Errand.aside, or_comm] using hr)
    · exact List.mem_cons.mpr (by simpa [Errand.aside, or_comm] using hr)
    · exact .tail _ hr
  | handOver r' onward =>
    refine hkept ?_
    obtain ⟨accepted, h | ⟨report, h⟩⟩ := hl <;> rw [h] at hx
    · rw [List.mem_singleton.mp hx] at hr
      exact hr
    · rcases List.mem_cons.mp hx with rfl | hx
      · cases hr
      · rw [List.mem_singleton.mp hx] at hr
        exact hr
  | landed r' accepted onward =>
    refine hkept ?_
    rcases hl with ⟨-, h⟩ | ⟨aside, rfl, h | h⟩ <;> rw [h] at hx
    · cases hx
    · rw [List.mem_singleton.mp hx] at hr
      exact hr
    · rw [List.mem_singleton.mp hx] at hr
      exact hr
  | _ =>
    -- The other errands lead to none that keeps a request.
    grind [Leads, LeadsOn, Errand.aside, Onward.aside]

/-- **Whoever is at home after an errand** was at home before it, has been sent back, or is new. -/
theorem perform_atHome (hq : s.scheduler.queue.Matched) (hfiled : s.scheduler.flights.Filed)
    (h : (e.perform setup s).state.AtHome (e.perform setup s).next r) :
    s.AtHome [e] r ∨ e.IsRetry setup s r ∨ e.Creates setup s r.id ∧ r.retries = 0 := by
  rcases h with h | ⟨x, hx, hr⟩
  · exact waiting_perform hq hfiled h
  · exact .inl (aside_perform hq hx hr)

/-! ### Who is abroad after an errand -/

theorem retries_heard (r : Request) (now : Nat) (status : Status) (percent : Nat) :
    (r.heard now status percent).retries = r.retries := by
  unfold Request.heard
  dsimp only
  split_ifs <;> rfl

/-- A request that is claimed is new. -/
theorem creates_of_claim {a : Attachment} {rest : List Attachment} {onward : Onward}
    (h : handOver r onward ∈ (doClaim setup s a rest).next) :
    (claim a rest).Creates setup s r.id ∧ r.retries = 0 := by
  unfold doClaim at h
  split_ifs at h with hbusy
  · cases List.mem_singleton.mp h
  · simp only [Bool.or_eq_true, not_or, Bool.not_eq_true, Bool.not_eq_false'] at hbusy
    obtain ⟨rfl, -⟩ := Errand.handOver.inj (List.mem_singleton.mp h)
    exact ⟨⟨rfl, hbusy.1, hbusy.2⟩, rfl⟩

/-- A request that has just been taken off was kept by a round, or is new. -/
theorem taken_perform {onward : Onward} (h : handOver r onward ∈ (e.perform setup s).next) :
    (∃ r₀ ∈ e.aside, r₀.id = r.id ∧ r₀.retries = r.retries) ∨
      e.Creates setup s r.id ∧ r.retries = 0 := by
  rcases (perform_leads setup s e).of_handOver h with
    ⟨r₀, aside, now, rfl, rfl⟩ | ⟨a, rest, now, rfl, -⟩
  · exact .inl ⟨r₀, List.mem_cons_self, rfl, rfl⟩
  · exact .inr (creates_of_claim h)

/-- A request in flight after an errand was so before it, as it is or not yet heard of, or has just
been taken off. -/
theorem flying_cases (hfiled : s.scheduler.flights.Filed)
    (h : (e.perform setup s).state.scheduler.flights.get? r.id = some r) :
    (∃ r₀, s.scheduler.flights.get? r.id = some r₀ ∧
        (r = r₀ ∨ ∃ report, e = hear report ∧ report.id = r.id ∧
          r = r₀.heard s.world.now report.status report.percent)) ∨
      ∃ onward, handOver r onward ∈ (e.perform setup s).next := by
  by_cases hhear : ∃ report, e = hear report
  · obtain ⟨report, rfl⟩ := hhear
    refine .inl ?_
    rw [perform, doHear] at h
    split at h
    · exact ⟨r, h, .inl rfl⟩
    next r₀ hr₀ =>
      rw [Flights.get?_insert, Request.id_heard, hfiled _ _ hr₀] at h
      split_ifs at h with hid
      · rw [← Option.some.inj h, Request.id_heard, hfiled _ _ hr₀]
        exact ⟨r₀, hr₀, .inr ⟨report, rfl, rfl, rfl⟩⟩
      · exact ⟨r, h, .inl rfl⟩
  · rcases perform_keptOrTaken (fun report he => hhear ⟨report, he⟩) h with
      hbefore | ⟨onward, hnext, -, -⟩
    · exact .inl ⟨r, hbefore, .inl rfl⟩
    · exact .inr ⟨onward, hnext⟩

/-- **Whoever is in flight after an errand** was so before it, with as many retries, or has just
been taken off. -/
theorem flying_perform (hfiled : s.scheduler.flights.Filed)
    (h : (e.perform setup s).state.scheduler.flights.get? r.id = some r) :
    (∃ r₀, s.scheduler.flights.get? r.id = some r₀ ∧ r₀.retries = r.retries) ∨
      ∃ onward, handOver r onward ∈ (e.perform setup s).next := by
  refine (flying_cases hfiled h).imp_left ?_
  rintro ⟨r₀, hr₀, rfl | ⟨report, -, -, rfl⟩⟩
  · exact ⟨r, hr₀, rfl⟩
  · exact ⟨r₀, hr₀, (retries_heard ..).symm⟩

/-- Whose end is looked into after an errand was so before, or was in flight and has landed. -/
theorem settling_cases (hfiled : s.scheduler.flights.Filed) {x : Errand}
    (hx : x ∈ (e.perform setup s).next) (hr : x.settling = some r) :
    ∃ r₀, s.Abroad [e] r₀ ∧ (r = r₀ ∨ r = r₀.land ∧ ∃ status, e = settle r.id status) := by
  have hl := perform_leads setup s e
  cases e with
  | settle id status =>
    rw [perform, doSettle] at hx
    split at hx
    · cases hx
    next r₀ hr₀ =>
      have hid := hfiled _ _ hr₀
      dsimp only at hx
      split_ifs at hx
      · split at hx <;> cases hx
      · rw [List.mem_singleton.mp hx] at hr
        obtain rfl := Option.some.inj hr
        exact ⟨r₀, .inl (by rw [hid]; exact hr₀), .inr ⟨rfl, status, by rw [← hid]; rfl⟩⟩
  | conclude r₀ status =>
    have hself : s.Abroad [conclude r₀ status] r₀ := .inr ⟨_, List.mem_cons_self, rfl⟩
    rcases hl with h | ⟨record, h | h | h⟩ <;> rw [h] at hx
    · cases hx
    all_goals rw [List.mem_singleton.mp hx] at hr
    · exact ⟨r₀, hself, .inl (Option.some.inj hr).symm⟩
    · cases hr
    · cases hr
  | _ =>
    -- The other errands lead to none that looks into the end of a transfer.
    grind [Leads, LeadsOn, Errand.settling]

/-- **Whose end is looked into after an errand** was so before, or was in flight. -/
theorem settling_perform (hfiled : s.scheduler.flights.Filed) {x : Errand}
    (hx : x ∈ (e.perform setup s).next) (hr : x.settling = some r) :
    ∃ r₀, s.Abroad [e] r₀ ∧ r₀.id = r.id ∧ r₀.retries = r.retries := by
  obtain ⟨r₀, hr₀, rfl | ⟨rfl, -⟩⟩ := settling_cases hfiled hx hr
  · exact ⟨r, hr₀, rfl, rfl⟩
  · exact ⟨r₀, hr₀, rfl, rfl⟩

/-- **Whoever is abroad after an errand** was abroad before it, with as many retries, or has just
been taken off. -/
theorem perform_abroad (hfiled : s.scheduler.flights.Filed)
    (h : (e.perform setup s).state.Abroad (e.perform setup s).next r) :
    (∃ r₀, s.Abroad [e] r₀ ∧ r₀.id = r.id ∧ r₀.retries = r.retries) ∨
      ∃ onward, handOver r onward ∈ (e.perform setup s).next := by
  rcases h with h | ⟨x, hx, hr⟩
  · rcases flying_perform hfiled h with ⟨r₀, hr₀, hretries⟩ | htaken
    · have hid := hfiled _ _ hr₀
      exact .inl ⟨r₀, .inl (by rw [hid]; exact hr₀), hid, hretries⟩
    · exact .inr htaken
  · exact .inl (settling_perform hfiled hx hr)

/-- **Nothing comes of nothing**: if there is a request for an attachment after an errand, there was
one before it, or the errand makes one. -/
theorem perform_live {others : List Errand} {id : Int} (hq : s.scheduler.queue.Matched)
    (hfiled : s.scheduler.flights.Filed)
    (h : (e.perform setup s).state.Live ((e.perform setup s).next ++ others) id) :
    s.Live (e :: others) id ∨ e.Creates setup s id := by
  have hself : ∀ x ∈ [e], x ∈ e :: others := fun x hx => by
    rw [List.mem_singleton.mp hx]
    exact List.mem_cons_self
  obtain ⟨r, rfl, hhome | habroad⟩ := h
  · rcases hhome.append with hnext | ⟨x, hx, hr⟩
    · rcases perform_atHome hq hfiled hnext with hbefore | ⟨r₀, hback, hid, -⟩ | hnew
      · exact .inl ⟨r, rfl, .inl (hbefore.mono hself)⟩
      · exact .inl ⟨r₀, hid.symm, .inr ((hback.abroad hfiled).mono hself)⟩
      · exact .inr hnew.1
    · exact .inl ⟨r, rfl, .inl (.inr ⟨x, .tail _ hx, hr⟩)⟩
  · rcases habroad.append with hnext | ⟨x, hx, hr⟩
    · rcases perform_abroad hfiled hnext with ⟨r₀, hbefore, hid, -⟩ | ⟨onward, htaken⟩
      · exact .inl ⟨r₀, hid, .inr (hbefore.mono hself)⟩
      · rcases taken_perform htaken with ⟨r₀, hr₀, hid, -⟩ | hnew
        · exact .inl ⟨r₀, hid, .inl (.inr ⟨e, List.mem_cons_self, hr₀⟩)⟩
        · exact .inr hnew.1
    · exact .inl ⟨r, rfl, .inr (.inr ⟨x, .tail _ hx, hr⟩)⟩

end Errand

/-! ### Operations -/

namespace Operation

variable {s : State} {op : Operation} {r : Request}

theorem state_queue (s : State) (op : Operation) :
    (op.state s).scheduler.queue = s.scheduler.queue := by
  cases op with
  | notify id flags =>
    unfold state Scheduler.notify State.withScheduler
    split_ifs <;> rfl
  | _ => rfl

theorem state_log (s : State) (op : Operation) : (op.state s).log = s.log := by
  cases op <;> rfl

/-- What an operation begins with carries nothing. -/
theorem carries_nothing {e : Errand} (h : e ∈ op.errands s) : e.aside = [] ∧ e.settling = none := by
  have hfirst := isFirst_of_mem_errands h
  cases e <;> first | exact ⟨rfl, rfl⟩ | cases hfirst

theorem atHome_begin (es : List Errand) (h : (op.state s).AtHome (es ++ op.errands s) r) :
    s.AtHome es r := by
  rcases h.append with h | ⟨e, he, hr⟩
  · exact h.imp_left fun hq => by rwa [state_queue] at hq
  · rw [(carries_nothing he).1] at hr
    cases hr

theorem abroad_begin (es : List Errand) (h : (op.state s).Abroad (es ++ op.errands s) r) :
    s.Abroad es r := by
  rcases h.append with h | ⟨e, he, hr⟩
  · exact h.imp_left fun hq => by rwa [state_flights] at hq
  · rw [(carries_nothing he).2] at hr
    cases hr

theorem live_begin (es : List Errand) {id : Int}
    (h : (op.state s).Live (es ++ op.errands s) id) :
    s.Live es id := by
  obtain ⟨r, hid, hr⟩ := h
  exact ⟨r, hid, hr.imp (atHome_begin es) (abroad_begin es)⟩

end Operation

end MailFetch

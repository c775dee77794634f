import MailFetch.Proofs.Alarm
import MailFetch.Proofs.Aloft
import MailFetch.Proofs.OneInstance

/-! # How long a stall can go unnoticed

A run is punctual if its alarms are heeded: the clock stands still while an operation is in hand, it
does not pass an alarm that is set, and an alarm that is due goes off before anything else begins.
Of such runs one would say that while anything is in flight an alarm is set, and that nobody is
silent for longer than the silence that counts as a stall and the time between two looks for one.

* `Desk.inTime_run`: this is so if the time between two looks and the wait before a delayed retry
  are both zero, or neither is.

The invariant is that the alarm goes off before a request in flight has been silent for too long
(`State.Guards`), apart from a request that is just being handed over, and apart from a tick that
has not set the alarm again. It is kept because an alarm still to come is not moved back. An alarm
that is set without delay is no longer to come; if another delay then moves it back, a look is lost.
-/

namespace MailFetch

namespace Request

variable (r : Request) {t t' : Nat}

theorem silence_le (h : t ≤ t') : r.silence t ≤ r.silence t' := by
  unfold silence
  omega

theorem silence_add_le (t k : Nat) : r.silence (t + k) ≤ r.silence t + k := by
  unfold silence
  omega

theorem silence_of_heardAt {r : Request} (h : r.heardAt = some t) (now : Nat) :
    r.silence now = now - t := by
  unfold silence
  rw [h]
  rfl

end Request

/-! ### Keeping watch -/

/-- How long a transfer may be silent before it is broken off: the silence that counts as a stall,
and the time up to the next look. -/
def Settings.stallBound (limits : Settings) : Nat :=
  limits.callbackTimeout + limits.watchdogInterval

/-- **The alarm guards a request**: it is still to come, comes within the time between two looks,
and comes before the request has been silent for too long. Where this time is zero, an alarm that is
due guards as well. -/
def State.Guards (setup : Setup) (s : State) (r : Request) : Prop :=
  ∃ a, s.scheduler.alarm = some a ∧
    (s.world.now < a.deadline ∨ setup.settings.watchdogInterval = 0 ∧ s.world.now ≤ a.deadline) ∧
    a.deadline ≤ s.world.now + setup.settings.watchdogInterval ∧
    r.silence a.deadline ≤ setup.settings.stallBound

section Guards

variable {setup : Setup} {s s' : State} {r : Request}

/-- The times between two looks and before a delayed retry are both zero, or neither is. -/
def Setup.Even (setup : Setup) : Prop :=
  setup.settings.watchdogInterval = 0 ↔ setup.settings.retryDelay = 0

/-- With even delays, an errand that is ready sets the alarm without delay only if all are. -/
theorem Errand.Delay.even {e : Errand} {delay : Nat} (h : e.Delay setup s.world.now delay)
    (heven : setup.Even) (hready : e.Ready setup s) :
    setup.settings.watchdogInterval = 0 ↔ delay = 0 := by
  cases h with
  | watch => exact Iff.rfl
  | retry => exact heven
  | deferred r aside t ht hlt =>
    have hle := (hready.1 r List.mem_cons_self).prompt t ht
    have hzero := heven.mp
    constructor
    · intro hwatch
      have := hzero hwatch
      omega
    · intro hdelay
      omega

/-- **Setting the alarm keeps the guard**, unless it is set without delay. -/
theorem State.Guards.set {D : Nat → Prop} {timeout : Nat} (h : s.Guards setup r)
    (hnow : s'.world.now = s.world.now)
    (halarm : AlarmSet s.world.now timeout D s.scheduler.alarm s'.scheduler.alarm)
    (hD : ∀ delay, D delay → (setup.settings.watchdogInterval = 0 ↔ delay = 0)) :
    s'.Guards setup r := by
  obtain ⟨a, ha, hahead, hnear, hsilent⟩ := h
  cases halarm with
  | kept heq =>
    rw [← hnow] at hahead hnear
    exact ⟨a, heq.trans ha, hahead, hnear, hsilent⟩
  | set delay hdelay heq =>
    rw [ha] at heq
    have hzero := hD delay hdelay
    have hpos := Alarm.lt_deadline_arm (some a) s.world.now delay timeout
    have hle := Alarm.deadline_arm_le (some a) s.world.now delay timeout
    have hge := Alarm.le_deadline_arm (some a) s.world.now delay timeout
    have hback : (Alarm.arm (some a) s.world.now delay timeout).deadline ≤ a.deadline := by
      rcases hahead with hahead | ⟨hwatch, hahead⟩
      · exact Alarm.deadline_arm_le_pending a s.world.now delay timeout hahead
      · have := hzero.mp hwatch
        omega
    refine ⟨_, heq, ?_, ?_, Nat.le_trans (r.silence_le hback) hsilent⟩
    · rw [hnow]
      by_cases hwatch : setup.settings.watchdogInterval = 0
      · exact .inr ⟨hwatch, hge⟩
      · exact .inl (hpos (by omega))
    · rw [hnow]
      omega

/-- An alarm set for the next look guards whoever has not been silent for too long by now. -/
theorem State.guards_of_watch (timeout : Nat) (hnow : s'.world.now = s.world.now)
    (halarm : s'.scheduler.alarm = some (Alarm.arm s.scheduler.alarm s.world.now
      setup.settings.watchdogInterval timeout))
    (hsilent : r.silence s.world.now ≤ setup.settings.callbackTimeout) : s'.Guards setup r := by
  have hle := Alarm.deadline_arm_le s.scheduler.alarm s.world.now
    setup.settings.watchdogInterval timeout
  have hge := Alarm.le_deadline_arm s.scheduler.alarm s.world.now
    setup.settings.watchdogInterval timeout
  have hpos := Alarm.lt_deadline_arm s.scheduler.alarm s.world.now
    setup.settings.watchdogInterval timeout
  refine ⟨_, halarm, ?_, by rw [hnow]; exact hle, ?_⟩
  · rw [hnow]
    by_cases hwatch : setup.settings.watchdogInterval = 0
    · exact .inr ⟨hwatch, hge⟩
    · exact .inl (hpos (by omega))
  · have hadd := r.silence_add_le s.world.now setup.settings.watchdogInterval
    have hmono := r.silence_le hle
    unfold Settings.stallBound
    omega

end Guards

namespace Desk

variable {setup : Setup} {d d' : Desk}

/-! ### Punctual runs -/

/-- **A punctual move.** While an operation is in hand the clock stands still; otherwise it does not
pass the alarm. An alarm that is due goes off before anything else begins, and only then; there are
no other ticks, and the scheduler is not stopped. -/
def Punctual (d : Desk) : Move → Prop
  | .world w =>
    if d.task = [] then ∀ a, d.state.scheduler.alarm = some a → w.now ≤ a.deadline
    else w.now = d.state.world.now
  | .begin .alarm => ∃ a, d.state.scheduler.alarm = some a ∧ a.deadline ≤ d.state.world.now
  | .begin (.tick _) | .begin .stop => False
  | .begin _ => ∀ a, d.state.scheduler.alarm = some a → d.state.world.now < a.deadline
  | .turn => True

/-! ### The invariant -/

/-- The request for an attachment is just being handed over. -/
def Awaits (task : List Errand) (id : Int) : Prop :=
  ∃ r, r.id = id ∧ ((∃ onward, .handOver r onward ∈ task) ∨
    ∃ accepted onward, .landed r accepted onward ∈ task)

/-- **How the alarm watches over the requests in flight**, as far as a run has come. -/
inductive Phase (setup : Setup) (d : Desk) : Prop
  /-- Nothing is in hand. -/
  | rest (htask : d.task = [])
      (h : ∀ id r, d.state.scheduler.flights.get? id = some r →
        ∃ a, d.state.scheduler.alarm = some a ∧ d.state.world.now ≤ a.deadline ∧
          a.deadline ≤ d.state.world.now + setup.settings.watchdogInterval ∧
          r.silence a.deadline ≤ setup.settings.stallBound)
  /-- The alarm has gone off. -/
  | due (htask : d.task = [.tick setup.settings.callbackTimeout])
  /-- The stalled transfers have been broken off, and the alarm is still to be set again. -/
  | ticked (htask : .rearm setup.settings.callbackTimeout ∈ d.task)
      (h : ∀ id r, d.state.scheduler.flights.get? id = some r →
        r.silence d.state.world.now ≤ setup.settings.callbackTimeout)
  /-- The alarm guards whoever is not just being handed over. -/
  | guarded (h : ∀ id r, d.state.scheduler.flights.get? id = some r →
      d.state.Guards setup r ∨
        Awaits d.task id ∧ r.silence d.state.world.now ≤ setup.settings.callbackTimeout)

/-- **The invariant of a punctual run.** -/
structure Watched (setup : Setup) (d : Desk) : Prop where
  running : d.state.scheduler.stopped = false
  timeouts : ∀ a, d.state.scheduler.alarm = some a → a.timeout = setup.settings.callbackTimeout
  ticks : ∀ timeout, .tick timeout ∈ d.task ∨ .rearm timeout ∈ d.task →
    timeout = setup.settings.callbackTimeout
  notices : .listen ∉ d.task ∧
    ∀ id flags, .applyNotice id flags ∈ d.task → d.task = [.applyNotice id flags]
  heard : ∀ id r, d.state.scheduler.flights.get? id = some r →
    r.silence d.state.world.now ≤ setup.settings.stallBound
  phase : d.Phase setup

theorem watched_fresh (setup : Setup) (w : World) : (fresh w).Watched setup := by
  have hnone : ∀ id r, (fresh w).state.scheduler.flights.get? id ≠ some r := by
    intro id r h
    rw [show (fresh w).state.scheduler.flights.get? id = none from rfl] at h
    cases h
  refine ⟨rfl, fun a ha => ?_, fun timeout h => ?_, ⟨?_, fun id flags h => ?_⟩,
    fun id r hr => absurd hr (hnone id r), .rest rfl fun id r hr => absurd hr (hnone id r)⟩
  · cases ha
  · rcases h with h | h <;> cases h
  · exact List.not_mem_nil
  · cases h

/-- When nothing is in hand, the alarm watches over everybody. -/
theorem Phase.at_rest (h : d.Phase setup) (htask : d.task = []) :
    ∀ id r, d.state.scheduler.flights.get? id = some r →
      ∃ a, d.state.scheduler.alarm = some a ∧ d.state.world.now ≤ a.deadline ∧
        a.deadline ≤ d.state.world.now + setup.settings.watchdogInterval ∧
        r.silence a.deadline ≤ setup.settings.stallBound := by
  cases h with
  | rest _ h => exact h
  | due hdue =>
    rw [htask] at hdue
    cases hdue
  | ticked hrearm =>
    rw [htask] at hrearm
    cases hrearm
  | guarded h =>
    intro id r hr
    rcases h id r hr with ⟨a, ha, hahead, hnear, hsilent⟩ | ⟨⟨x, -, hawaits⟩, -⟩
    · refine ⟨a, ha, ?_, hnear, hsilent⟩
      rcases hahead with hahead | ⟨-, hahead⟩
      · exact Nat.le_of_lt hahead
      · exact hahead
    · rw [htask] at hawaits
      rcases hawaits with ⟨onward, hmem⟩ | ⟨accepted, onward, hmem⟩ <;> cases hmem

/-! ### Moves that do no errand -/

/-- As the world goes on, everybody stays watched over. -/
theorem watched_world {w : World} (h : d.Watched setup) (hle : d.state.world.now ≤ w.now)
    (hp : d.Punctual (.world w)) : Watched setup { d with state := d.state.withWorld w } := by
  unfold Punctual at hp
  split_ifs at hp with htask
  · have hrest := h.phase.at_rest htask
    refine ⟨h.running, h.timeouts, h.ticks, h.notices, fun id r hr => ?_,
      .rest htask fun id r hr => ?_⟩
    · obtain ⟨a, ha, -, -, hsilent⟩ := hrest id r hr
      exact Nat.le_trans (r.silence_le (hp a ha)) hsilent
    · obtain ⟨a, ha, -, hnear, hsilent⟩ := hrest id r hr
      exact ⟨a, ha, hp a ha, Nat.le_trans hnear (Nat.add_le_add_right hle _), hsilent⟩
  · -- The clock stands still, and nothing else of the world is looked at.
    have hclock : ∀ r, (d.state.withWorld w).Guards setup r ↔ d.state.Guards setup r := by
      intro r
      unfold State.Guards State.withWorld
      rw [hp]
    refine ⟨h.running, h.timeouts, h.ticks, h.notices, fun id r hr => ?_, ?_⟩
    · exact Nat.le_trans (r.silence_le (Nat.le_of_eq hp)) (h.heard id r hr)
    · cases h.phase with
      | rest hnil => exact absurd hnil htask
      | due hdue => exact .due hdue
      | ticked hrearm hsilent =>
        refine .ticked hrearm fun id r hr => ?_
        exact Nat.le_trans (r.silence_le (Nat.le_of_eq hp)) (hsilent id r hr)
      | guarded hguard =>
        refine .guarded fun id r hr => ?_
        rcases hguard id r hr with hg | ⟨hawaits, hsilent⟩
        · exact .inl ((hclock r).mpr hg)
        · exact .inr ⟨hawaits, Nat.le_trans (r.silence_le (Nat.le_of_eq hp)) hsilent⟩

/-- The alarm goes off. -/
theorem watched_alarm (h : d.Watched setup) (hp : d.Punctual (.begin .alarm)) :
    Watched setup ⟨Operation.alarm.state d.state, Operation.alarm.errands d.state⟩ := by
  obtain ⟨a, ha, -⟩ := hp
  have herrands : Operation.alarm.errands d.state = [.tick setup.settings.callbackTimeout] := by
    rw [← h.timeouts a ha]
    simp [Operation.errands, ha]
  rw [herrands]
  refine ⟨h.running, nofun, fun timeout ht => ?_, ⟨?_, fun id flags hmem => ?_⟩, h.heard, .due rfl⟩
  · rcases ht with ht | ht
    · simpa using ht
    · simp at ht
  · simp
  · simp at hmem

/-- Another operation begins: the alarm is still to come, so it guards everybody. -/
theorem watched_begin {op : Operation} (h : d.Watched setup) (htask : d.task = [])
    (hp : d.Punctual (.begin op)) (hop : op ≠ .alarm) :
    Watched setup ⟨op.state d.state, op.errands d.state⟩ := by
  have hquiet : op ≠ .stop ∧ (∀ timeout, op ≠ .tick timeout) ∧
      ∀ a, d.state.scheduler.alarm = some a → d.state.world.now < a.deadline := by
    cases op with
    | alarm => exact absurd rfl hop
    | tick _ | stop => exact hp.elim
    | _ => exact ⟨nofun, nofun, hp⟩
  obtain ⟨hstop, htick, hahead⟩ := hquiet
  have hstate : (op.state d.state).scheduler.stopped = d.state.scheduler.stopped ∧
      (op.state d.state).scheduler.alarm = d.state.scheduler.alarm := by
    cases op with
    | notify id flags =>
      unfold Operation.state Scheduler.notify State.withScheduler
      split_ifs <;> exact ⟨rfl, rfl⟩
    | alarm => exact absurd rfl hop
    | stop => exact absurd rfl hstop
    | _ => exact ⟨rfl, rfl⟩
  have herrands : ∀ e ∈ op.errands d.state, e ≠ .listen ∧
      (∀ timeout, e ≠ .tick timeout ∧ e ≠ .rearm timeout) ∧
      ∀ id flags, e = .applyNotice id flags → op.errands d.state = [e] := by
    intro e he
    cases op with
    | alarm => exact absurd rfl hop
    | tick timeout => exact absurd rfl (htick timeout)
    | notify _ _ | ring | stop => cases he
    | _ =>
      obtain rfl := List.mem_singleton.mp he
      exact ⟨nofun, fun _ => ⟨nofun, nofun⟩, fun _ _ _ => rfl⟩
  refine ⟨hstate.1.trans h.running, fun a ha => h.timeouts a (hstate.2 ▸ ha), fun timeout ht => ?_,
    ⟨fun hmem => (herrands _ hmem).1 rfl, fun id flags hmem => (herrands _ hmem).2.2 id flags rfl⟩,
    fun id r hr => ?_, .guarded fun id r hr => .inl ?_⟩
  · rcases ht with ht | ht
    · exact absurd rfl ((herrands _ ht).2.1 timeout).1
    · exact absurd rfl ((herrands _ ht).2.1 timeout).2
  · rw [Operation.state_flights] at hr
    rw [Operation.state_world]
    exact h.heard id r hr
  · rw [Operation.state_flights] at hr
    obtain ⟨a, ha, -, hnear, hsilent⟩ := h.phase.at_rest htask id r hr
    refine ⟨a, hstate.2.trans ha, ?_, ?_, hsilent⟩
    · rw [Operation.state_world]
      exact .inl (hahead a ha)
    · rw [Operation.state_world]
      exact hnear

/-! ### Turns -/

section Turn

variable {e : Errand} {rest : List Errand}

/-- What is left of a task of a punctual run: nothing is dropped. -/
theorem Watched.left_eq (h : d.Watched setup) (ht : d.task = e :: rest) :
    (e.perform setup d.state).left rest = (e.perform setup d.state).next ++ rest := by
  unfold Turn.left
  split_ifs with hcollapses
  · obtain ⟨⟨id, flags, rfl⟩, hnext⟩ := Errand.perform_collapses hcollapses
    have hrest := h.notices.2 id flags (by rw [ht]; exact List.mem_cons_self)
    rw [ht, List.cons.injEq] at hrest
    rw [hnext, hrest.2]
    rfl
  · rfl

/-- Errands that set the alarm again do so for the same silence. -/
theorem Watched.rearm_eq (h : d.Watched setup) (ht : d.task = e :: rest) (timeout : Nat)
    (he : e = .rearm timeout) : timeout = setup.settings.callbackTimeout :=
  h.ticks timeout (.inr (by rw [ht, he]; exact List.mem_cons_self))

/-- What the turn of an errand leaves of a task. -/
theorem Watched.ticks_turn (h : d.Watched setup) (ht : d.task = e :: rest) (timeout : Nat)
    (hmem : .tick timeout ∈ (e.perform setup d.state).left rest ∨
      .rearm timeout ∈ (e.perform setup d.state).left rest) :
    timeout = setup.settings.callbackTimeout := by
  have hleads := Errand.perform_leads setup d.state e
  have hrest : ∀ x ∈ rest, x ∈ d.task := fun x hx => by rw [ht]; exact .tail _ hx
  rcases hmem with hmem | hmem
  · rcases Turn.mem_left hmem with hnext | hold
    · exact absurd hnext hleads.not_tick
    · exact h.ticks timeout (.inl (hrest _ hold))
  · rcases Turn.mem_left hmem with hnext | hold
    · obtain rfl := hleads.of_rearm hnext
      exact h.ticks timeout (.inl (by rw [ht]; exact List.mem_cons_self))
    · exact h.ticks timeout (.inr (hrest _ hold))

theorem Watched.notices_turn (h : d.Watched setup) (ht : d.task = e :: rest) :
    .listen ∉ (e.perform setup d.state).left rest ∧
      ∀ id flags, .applyNotice id flags ∉ (e.perform setup d.state).left rest := by
  have hleads := Errand.perform_leads setup d.state e
  have hlisten : e ≠ .listen := by
    rintro rfl
    exact h.notices.1 (by rw [ht]; exact List.mem_cons_self)
  refine ⟨fun hmem => ?_, fun id flags hmem => ?_⟩
  · rcases Turn.mem_left hmem with hnext | hold
    · exact hlisten (hleads.of_notice hnext (.inl rfl))
    · exact h.notices.1 (by rw [ht]; exact .tail _ hold)
  · rcases Turn.mem_left hmem with hnext | hold
    · exact hlisten (hleads.of_notice hnext (.inr ⟨id, flags, rfl⟩))
    · have htask := h.notices.2 id flags (by rw [ht]; exact .tail _ hold)
      rw [ht, List.cons.injEq] at htask
      rw [htask.2] at hold
      cases hold

/-- Whoever has just been heard of has not been silent. -/
theorem silence_le_of_aloft {id : Int} {r : Request} {bound : Nat} {t : Turn}
    (h : Errand.Aloft d.state t id r)
    (hbefore : ∀ r₀, d.state.scheduler.flights.get? id = some r₀ →
      r₀.silence d.state.world.now ≤ bound) : r.silence d.state.world.now ≤ bound := by
  cases h with
  | before h => exact hbefore r h
  | heard _ _ _ _ hheard | taken _ _ _ hheard =>
    rw [Request.silence_of_heardAt hheard, Nat.sub_self]
    exact Nat.zero_le _

/-- The tick that an alarm brings leaves nobody in the air who has been silent for too long. -/
theorem phase_tick (h : d.Watched setup) (hfiled : d.state.scheduler.flights.Filed)
    (ht : d.task = [.tick setup.settings.callbackTimeout]) :
    Phase setup ⟨((Errand.tick setup.settings.callbackTimeout).perform setup d.state).state,
      ((Errand.tick setup.settings.callbackTimeout).perform setup d.state).left []⟩ := by
  have hrearm : Errand.rearm setup.settings.callbackTimeout ∈
      ((Errand.tick setup.settings.callbackTimeout).perform setup d.state).next := by
    rw [Errand.perform, Errand.doTick, if_neg (by rw [h.running]; exact Bool.false_ne_true)]
    dsimp only
    split_ifs <;> simp
  refine .ticked ?_ fun id r hr => ?_
  · dsimp only
    rw [h.left_eq ht]
    exact List.mem_append_left _ hrearm
  · dsimp only at hr ⊢
    rw [(Errand.perform_frame setup d.state _).now]
    by_contra hsilent
    have hstalled : id ∈ d.state.scheduler.flights.stalled setup.settings.callbackTimeout
        d.state.world.now :=
      (Flights.mem_stalled hfiled).mpr ⟨r, Errand.part_tick _ id r hr, by omega⟩
    rw [Errand.perform, Errand.flights_tick _ h.running,
      Scheduler.get?_breakOffAll _ _ _ hstalled] at hr
    cases hr

/-- Between a tick and the moment at which the alarm is set again, nobody is silent for too long. -/
theorem phase_ticked (h : d.Watched setup) (hfiled : d.state.scheduler.flights.Filed)
    (ht : d.task = e :: rest) (hrearm : .rearm setup.settings.callbackTimeout ∈ d.task)
    (hsilent : ∀ id r, d.state.scheduler.flights.get? id = some r →
      r.silence d.state.world.now ≤ setup.settings.callbackTimeout) :
    Phase setup ⟨(e.perform setup d.state).state, (e.perform setup d.state).left rest⟩ := by
  have hnow := (Errand.perform_frame setup d.state e).now
  have hsilent' : ∀ id r, (e.perform setup d.state).state.scheduler.flights.get? id = some r →
      r.silence d.state.world.now ≤ setup.settings.callbackTimeout := fun id r hr =>
    silence_le_of_aloft (Errand.perform_aloft hfiled hr) (hsilent id)
  rw [ht] at hrearm
  rcases List.mem_cons.mp hrearm with rfl | hrest
  · -- The alarm is set for the next look, if anybody is in flight.
    refine .guarded fun id r hr => .inl ?_
    have hsome : d.state.scheduler.flights.isEmpty = false := by
      have hbefore : d.state.scheduler.flights.get? id = some r := by
        rw [← (Errand.perform_frame setup d.state
          (.rearm setup.settings.callbackTimeout)).flights rfl]
        exact hr
      by_contra hempty
      rw [Bool.not_eq_false] at hempty
      rw [Flights.isEmpty_iff.mp hempty id] at hbefore
      cases hbefore
    refine State.guards_of_watch setup.settings.callbackTimeout hnow ?_ (hsilent' id r hr)
    rw [Errand.perform, Errand.doRearm, hsome, h.running]
    rfl
  · refine .ticked ?_ fun id r hr => ?_
    · dsimp only
      rw [h.left_eq ht]
      exact List.mem_append_right _ hrest
    · dsimp only at hr ⊢
      rw [hnow]
      exact hsilent' id r hr

/-- Whoever is just being handed over goes on to be so, or the carrier has answered: then the alarm
has been set for the next look, or nothing of the request is in flight. -/
theorem guards_or_awaits (h : d.Watched setup) (ht : d.task = e :: rest) {id : Int} {r : Request}
    (hawaits : Awaits d.task id)
    (hsilent : r.silence d.state.world.now ≤ setup.settings.callbackTimeout)
    (hr : (e.perform setup d.state).state.scheduler.flights.get? id = some r) :
    (e.perform setup d.state).state.Guards setup r ∨
      Awaits ((e.perform setup d.state).left rest) id := by
  obtain ⟨x, hid, hmem⟩ := hawaits
  rw [h.left_eq ht]
  rw [ht] at hmem
  rcases hmem with ⟨onward, hmem⟩ | ⟨accepted, onward, hmem⟩
  · rcases List.mem_cons.mp hmem with rfl | hrest
    · obtain ⟨accepted, hnext | ⟨report, hnext⟩⟩ :=
        Errand.perform_leads setup d.state (.handOver x onward)
      · exact .inr ⟨x, hid, .inr ⟨accepted, onward, by rw [hnext]; simp⟩⟩
      · exact .inr ⟨x, hid, .inr ⟨accepted, onward, by rw [hnext]; simp⟩⟩
    · exact .inr ⟨x, hid, .inl ⟨onward, List.mem_append_right _ hrest⟩⟩
  · rcases List.mem_cons.mp hmem with rfl | hrest
    · have hnow := (Errand.perform_frame setup d.state (.landed x accepted onward)).now
      cases accepted with
      | true => exact .inl (State.guards_of_watch setup.settings.callbackTimeout hnow rfl hsilent)
      | false =>
        simp only [Errand.perform, Errand.doLanded, Bool.false_eq_true, if_false, State.arm_flights,
          State.breakOff_scheduler] at hr
        rw [hid, Scheduler.get?_breakOff_self] at hr
        cases hr
    · exact .inr ⟨x, hid, .inr ⟨accepted, onward, List.mem_append_right _ hrest⟩⟩

/-- While an operation is in hand, the alarm guards whoever is not just being handed over. -/
theorem phase_guarded (heven : setup.Even) (h : d.Watched setup) (hd : d.Sound setup)
    (ht : d.task = e :: rest)
    (hguard : ∀ id r, d.state.scheduler.flights.get? id = some r → d.state.Guards setup r ∨
      Awaits d.task id ∧ r.silence d.state.world.now ≤ setup.settings.callbackTimeout) :
    Phase setup ⟨(e.perform setup d.state).state, (e.perform setup d.state).left rest⟩ := by
  have hnow := (Errand.perform_frame setup d.state e).now
  have hready := hd.ready
  rw [ht] at hready
  have hkeeps : ∀ r, d.state.Guards setup r → (e.perform setup d.state).state.Guards setup r :=
    fun r hg => hg.set hnow (Errand.perform_alarm setup d.state (h.rearm_eq ht)) fun delay hdelay =>
      hdelay.even heven hready.1
  refine .guarded fun id r hr => ?_
  dsimp only at hr ⊢
  rw [hnow]
  have hjustNow : r.heardAt = some d.state.world.now →
      r.silence d.state.world.now ≤ setup.settings.callbackTimeout := by
    intro hheard
    rw [Request.silence_of_heardAt hheard, Nat.sub_self]
    exact Nat.zero_le _
  cases Errand.perform_aloft (Tidy.filed hd.books) hr with
  | before hbefore =>
    rcases hguard id r hbefore with hg | ⟨hawaits, hsilent⟩
    · exact .inl (hkeeps r hg)
    · exact (guards_or_awaits h ht hawaits hsilent hr).imp_right fun ha => ⟨ha, hsilent⟩
  | heard r₀ h₀ _ _ hheard =>
    have hsilent := hjustNow hheard
    rcases hguard id r₀ h₀ with hg | ⟨hawaits, -⟩
    · obtain ⟨a, ha, hahead, hnear, -⟩ := hkeeps r₀ hg
      refine .inl ⟨a, ha, hahead, hnear, ?_⟩
      rw [Request.silence_of_heardAt hheard, Settings.stallBound]
      rw [hnow] at hnear
      omega
    · exact (guards_or_awaits h ht hawaits hsilent hr).imp_right fun ha => ⟨ha, hsilent⟩
  | taken onward hnext hid hheard =>
    refine .inr ⟨⟨r, hid, .inl ⟨onward, ?_⟩⟩, hjustNow hheard⟩
    rw [h.left_eq ht]
    exact List.mem_append_left _ hnext

/-- **A turn keeps everybody watched over.** -/
theorem watched_turn (heven : setup.Even) (h : d.Watched setup) (hd : d.Sound setup)
    (ht : d.task = e :: rest) :
    Watched setup ⟨(e.perform setup d.state).state, (e.perform setup d.state).left rest⟩ := by
  have hframe := Errand.perform_frame setup d.state e
  have hfiled := Tidy.filed hd.books
  obtain ⟨hlisten, hnotice⟩ := h.notices_turn ht
  refine ⟨hframe.stopped.trans h.running, fun a ha => ?_, h.ticks_turn ht,
    ⟨hlisten, fun id flags hmem => absurd hmem (hnotice id flags)⟩, fun id r hr => ?_, ?_⟩
  · dsimp only at ha
    cases Errand.perform_alarm setup d.state (h.rearm_eq ht) with
    | kept hkept => exact h.timeouts a (hkept ▸ ha)
    | set delay hdelay hset =>
      rw [hset] at ha
      obtain rfl := Option.some.inj ha
      exact Alarm.timeout_arm _ _ _ _ h.timeouts
  · dsimp only at hr ⊢
    rw [hframe.now]
    exact silence_le_of_aloft (Errand.perform_aloft hfiled hr) (h.heard id)
  · cases h.phase with
    | rest htask =>
      rw [htask] at ht
      cases ht
    | due htask =>
      obtain ⟨rfl, rfl⟩ : Errand.tick setup.settings.callbackTimeout = e ∧ [] = rest := by
        simpa using htask.symm.trans ht
      exact phase_tick h hfiled htask
    | ticked hrearm hsilent => exact phase_ticked h hfiled ht hrearm hsilent
    | guarded hguard => exact phase_guarded heven h hd ht hguard

end Turn

/-! ### Runs -/

theorem watched_move {m : Move} (heven : setup.Even)
    (h : d.Watched setup ∧ d.Sound setup ∧ d.Clear) (hp : d.Punctual m)
    (hmove : d.move setup m = some d') : d'.Watched setup ∧ d'.Sound setup ∧ d'.Clear := by
  refine ⟨?_, sound_clear_move h.2 hmove⟩
  rcases move_cases hmove with ⟨w, rfl, hle, rfl⟩ | ⟨op, rfl, ht, rfl⟩ | ⟨e, rest, rfl, ht, rfl⟩
  · exact watched_world h.1 hle hp
  · by_cases hop : op = .alarm
    · rw [hop] at hp ⊢
      exact watched_alarm h.1 hp
    · exact watched_begin h.1 ht hp hop
  · exact watched_turn heven h.1 h.2.1 ht

/-- **Stalls are noticed in time**: between operations an alarm is set while anything is in flight,
for no later than the next look; and nobody has been silent for longer than the silence that counts
as a stall and the time between two looks. -/
def InTime (setup : Setup) (d : Desk) : Prop :=
  (d.task = [] → d.state.scheduler.flights.isEmpty = false →
    ∃ a, d.state.scheduler.alarm = some a ∧ d.state.world.now ≤ a.deadline ∧
      a.deadline ≤ d.state.world.now + setup.settings.watchdogInterval) ∧
  ∀ id r, d.state.scheduler.flights.get? id = some r →
    r.silence d.state.world.now ≤
      setup.settings.callbackTimeout + setup.settings.watchdogInterval

theorem Watched.inTime (h : d.Watched setup) : d.InTime setup := by
  refine ⟨fun htask hsome => ?_, h.heard⟩
  by_contra hnone
  have hempty : d.state.scheduler.flights.isEmpty = true := by
    refine Flights.isEmpty_iff.mpr fun id => ?_
    rw [Option.eq_none_iff_forall_ne_some]
    intro r hr
    obtain ⟨a, ha, hle, hnear, -⟩ := h.phase.at_rest htask id r hr
    exact hnone ⟨a, ha, hle, hnear⟩
  rw [hempty] at hsome
  cases hsome

/-- **On a punctual run stalls are noticed in time**, if the delays are even. -/
theorem inTime_run {w : World} {moves : List Move} (heven : setup.Even)
    (h : (fresh w).run setup moves = some d)
    (hp : Throughout (move setup) Punctual (fresh w) moves) : d.InTime setup :=
  (follow_keeps_of (fun _ _ _ => watched_move heven)
    ⟨watched_fresh setup w, sound_clear_fresh setup w⟩ hp h).1.inTime

end Desk

end MailFetch

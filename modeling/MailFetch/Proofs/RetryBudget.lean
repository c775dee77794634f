import MailFetch.Proofs.OnePlace

/-! # The budget of retries

A lineage is one request from the errand that makes it through all its retries until nothing of it
is left. With operations one after another, the carrier is asked for the transfer of a lineage as
often as its request counts retries, and once more while the request is abroad
(`Desk.retry_budget`). So it is never asked more often than `maxRetries + 1` times, and a lineage
that would need one more retry is given up, which is reported once.

The invariant is a `Desk.Tally` of the lineage. It is kept because requests come from where they
were (`Errand.perform_atHome`, `Errand.perform_abroad`) and are in one place only. -/

namespace MailFetch

namespace Request

/-- The count of retries goes up by one, unless it wraps around. -/
theorem toNat_retries_countRetry (r : Request) :
    r.countRetry.retries.toNat =
      if r.retries.toNat + 1 < UInt32.size then r.retries.toNat + 1 else 0 := by
  have hlt := r.retries.toNat_lt_size
  have hone : (1 : UInt32).toNat = 1 := rfl
  unfold countRetry
  rw [UInt32.toNat_add, hone]
  split_ifs with h
  · exact Nat.mod_eq_of_lt h
  · have hlast : r.retries.toNat + 1 = 2 ^ 32 := by
      simp only [UInt32.size] at h hlt
      omega
    exact (congrArg (· % 2 ^ 32) hlast).trans (Nat.mod_self _)

/-- **The count of retries does not wrap around**, if the limit leaves room for one more. -/
theorem toNat_countRetry {limits : Settings} {r : Request}
    (hmax : limits.maxRetries.toNat + 1 < UInt32.size) (hle : r.retries ≤ limits.maxRetries) :
    r.countRetry.retries.toNat = r.retries.toNat + 1 := by
  have hle' := UInt32.le_iff_toNat_le.mp hle
  rw [toNat_retries_countRetry, if_pos (by omega)]

end Request

namespace Errand

variable {setup : Setup} {s : State} {e : Errand} {rest : List Errand} {r : Request}

/-- A request that has just been taken off is in flight. -/
theorem flying_of_taken {onward : Onward} (h : handOver r onward ∈ (e.perform setup s).next) :
    (e.perform setup s).state.scheduler.flights.get? r.id = some r ∧
      (e.perform setup s).next = [handOver r onward] ∧ e.mayGiveUp = false := by
  rcases (perform_leads setup s e).of_handOver h with
    ⟨r₀, aside, now, rfl, -⟩ | ⟨a, others, now, rfl, -⟩
  · rw [perform] at h ⊢
    unfold doScreen at h ⊢
    split at h
    · cases List.mem_singleton.mp h
    · cases List.mem_singleton.mp h
    · dsimp only at h ⊢
      split_ifs at h ⊢
      · cases List.mem_singleton.mp h
      · cases List.mem_singleton.mp h
      · rw [List.mem_singleton.mp h]
        obtain ⟨rfl, -⟩ := Errand.handOver.inj (List.mem_singleton.mp h)
        exact ⟨(Flights.get?_insert ..).trans (if_pos rfl), rfl, rfl⟩
  · rw [perform] at h ⊢
    unfold doClaim at h ⊢
    split_ifs at h ⊢
    · cases List.mem_singleton.mp h
    · rw [List.mem_singleton.mp h]
      obtain ⟨rfl, -⟩ := Errand.handOver.inj (List.mem_singleton.mp h)
      exact ⟨(Flights.get?_insert ..).trans (if_pos rfl), rfl, rfl⟩

/-- **Whoever is sent back is abroad no more.** -/
theorem not_abroad_of_sendsBack (hfiled : s.scheduler.flights.Filed) (hc : Carried s (e :: rest))
    (h : e.SendsBack s r) {x : Request} (hid : x.id = r.id) :
    ¬ (e.perform setup s).state.Abroad (e.perform setup s).next x := by
  have hl := perform_leads setup s e
  have hgone : (e.perform setup s).state.scheduler.flights.get? r.id = none ∧
      ∀ y ∈ (e.perform setup s).next, y.settling = none := by
    cases e with
    | landed r₀ accepted onward =>
      obtain ⟨rfl, hr⟩ := h
      refine ⟨?_, fun y hy => ?_⟩
      · rw [hfiled _ _ hr]
        change (s.breakOff setup r₀.id).scheduler.flights.get? r₀.id = none
        rw [State.breakOff_scheduler]
        exact Scheduler.get?_breakOff_self ..
      · grind [Leads, Errand.settling]
    | settle id status =>
      obtain ⟨rfl, hr⟩ := h
      rw [perform, doSettle, hr]
      dsimp only
      rw [if_pos rfl]
      split <;>
      · refine ⟨?_, List.forall_mem_nil _⟩
        simp only [State.ring_flights, State.abandon_scheduler, State.arm_flights,
          Scheduler.flights_retryAfterError]
        rw [Flights.get?_erase, if_pos (hfiled _ _ hr)]
    | askParent r₀ record =>
      obtain ⟨rfl, m, hm⟩ := h
      rw [perform, doAskParent, hm]
      refine ⟨?_, List.forall_mem_nil _⟩
      simp only [State.ring_flights, State.requeue_scheduler, Scheduler.flights_requeue]
      exact Flights.contains_eq_false_iff.mp (hc.unbooked r₀.id (by simp [inHand, settling])).2
    | tick timeout =>
      refine ⟨?_, fun y hy => ?_⟩
      · rw [perform, flights_tick timeout h.1]
        exact Scheduler.get?_breakOffAll _ _ _ h.2.2
      · grind [Leads, Errand.settling]
    | _ => exact h.elim
  rintro (hflies | ⟨y, hy, hsettling⟩)
  · rw [hid, hgone.1] at hflies
    cases hflies
  · rw [hgone.2 y hy] at hsettling
    cases hsettling

end Errand

namespace Desk

variable {setup : Setup} {d d' : Desk} {id : Int}

/-- **There is a request** for the attachment. -/
def Live (d : Desk) (id : Int) : Prop := d.state.Live d.task id

/-- The next errand makes a new request for the attachment. -/
def Creates (setup : Setup) (d : Desk) (id : Int) : Prop :=
  ∃ e rest, d.task = e :: rest ∧ e.Creates setup d.state id

/-- How often the carrier has been asked for a transfer, or is just about to be. -/
def asked (d : Desk) (id : Int) : Nat := d.state.starts id + d.task.countP (·.asks id)

/-! ### Asking the carrier -/

/-- The carrier is asked by the next errand only. -/
theorem Sound.asks_behind (hd : d.Sound setup) {e : Errand} {rest : List Errand}
    (ht : d.task = e :: rest) : rest.countP (·.asks id) = 0 := by
  refine List.countP_eq_zero.mpr fun x hx hasks => ?_
  have hready := hd.ready
  rw [ht] at hready
  cases x with
  | handOver r onward =>
    -- Later in a task, nothing may rely on a request that is in flight by now.
    have hflying : Flights.empty.contains r.id = true :=
      (hready.2 _ hx { d.state with scheduler := {} } (Nat.le_refl _)).1
    cases hflying
  | _ => cases hasks

theorem Sound.asked_eq_starts (hd : d.Sound setup) (hcalls : ¬ d.Calls id) :
    d.asked id = d.state.starts id := by
  unfold asked
  cases ht : d.task with
  | nil => rfl
  | cons e rest =>
    have hnot : ¬ e.asks id = true := by
      intro hasks
      cases e with
      | handOver r onward => exact hcalls ⟨r, onward, rest, ht, by simpa [Errand.asks] using hasks⟩
      | _ => cases hasks
    rw [List.countP_cons_of_neg hnot, hd.asks_behind ht]
    rfl

/-- The beginning of an operation asks for nothing. -/
theorem asked_begin (op : Operation) (id : Int) (ht : d.task = []) :
    asked ⟨op.state d.state, op.errands d.state⟩ id = d.asked id := by
  have hnone : (op.errands d.state).countP (·.asks id) = 0 := by
    refine List.countP_eq_zero.mpr fun x hx hasks => ?_
    have hfirst := Operation.isFirst_of_mem_errands hx
    cases x with
    | handOver r onward => cases hfirst
    | _ => cases hasks
  unfold asked
  rw [hnone, ht, State.starts_congr id (Operation.state_log d.state op)]
  rfl

/-- A turn adds the requests that it takes off. -/
theorem asked_turn (id : Int) (hd : d.Sound setup) {e : Errand} {rest : List Errand}
    (ht : d.task = e :: rest) :
    asked ⟨(e.perform setup d.state).state, (e.perform setup d.state).left rest⟩ id =
      d.asked id + (e.perform setup d.state).next.countP (·.asks id) := by
  have hrest : rest.countP (·.asks id) = 0 := hd.asks_behind ht
  have hleft : ((e.perform setup d.state).left rest).countP (·.asks id) =
      (e.perform setup d.state).next.countP (·.asks id) := by
    unfold Turn.left
    split_ifs with hcollapses
    · rw [(Errand.perform_collapses hcollapses).2]
    · rw [List.countP_append, hrest, Nat.add_zero]
  have hself : d.task.countP (·.asks id) = (e.asks id).toNat := by
    rw [ht, List.countP_cons, hrest]
    cases e.asks id <;> rfl
  unfold asked
  rw [hleft, hself, Errand.starts_perform]

/-! ### New requests -/

/-- A request is made only where there is none. -/
theorem Creates.not_live (h : d.Creates setup id) (hd : d.Sound setup) (ha : d.Apart) :
    ¬ d.Live id := by
  obtain ⟨e, rest, ht, hcreates⟩ := h
  have hbehind : ∀ x ∈ rest, x.inHand = [] := by
    have htrailing := ha.trailing
    rw [ht] at htrailing
    exact htrailing.1 hcreates.not_isReport
  have hself : e.inHand = [] := by
    cases e with
    | review _ | claim _ _ => rfl
    | _ => exact hcreates.elim
  have hempty : ∀ x ∈ d.task, x.inHand = [] := by
    rw [ht]
    rintro x (_ | ⟨_, hx⟩)
    · exact hself
    · exact hbehind x hx
  have hunbooked : d.state.Unbooked id := by
    cases e with
    | review a =>
      obtain ⟨rfl, -, p, hp⟩ := hcreates
      unfold Scheduler.verdict at hp
      split at hp
      · cases hp
      · split_ifs at hp with hknown
        simp only [Bool.or_eq_true, not_or, Bool.not_eq_true] at hknown
        exact ⟨hknown.2, hknown.1⟩
    | claim a others =>
      obtain ⟨rfl, hf, -⟩ := hcreates
      have hready := hd.ready
      rw [ht] at hready
      exact ⟨hready.1, hf⟩
    | _ => exact hcreates.elim
  rintro ⟨r, rfl, (hwaits | ⟨x, hx, hr⟩) | (hflies | ⟨x, hx, hr⟩)⟩
  · rw [State.Unbooked, Queue.contains_iff.mpr ⟨r, hwaits⟩] at hunbooked
    cases hunbooked.1
  · have hmem := Errand.mem_inHand_of_aside hr
    rw [hempty x hx] at hmem
    cases hmem
  · rw [State.Unbooked, Flights.contains_iff.mpr ⟨r, hflies⟩] at hunbooked
    cases hunbooked.2
  · have hmem := Errand.mem_inHand_of_settling hr
    rw [hempty x hx] at hmem
    cases hmem

theorem Creates.not_calls (h : d.Creates setup id) : ¬ d.Calls id := by
  obtain ⟨e, rest, ht, hcreates⟩ := h
  rintro ⟨r, onward, more, ht', -⟩
  rw [ht] at ht'
  rw [(List.cons.inj ht').1] at hcreates
  exact hcreates

/-- **Nothing comes of nothing**: a request for an attachment was there before a move, or the move
makes it. -/
theorem live_of_move {m : Move} (hd : d.Sound setup) (h : d.move setup m = some d')
    (hlive : d'.Live id) : d.Live id ∨ m = .turn ∧ d.Creates setup id := by
  rcases move_cases h with ⟨w, rfl, -, rfl⟩ | ⟨op, rfl, ht, rfl⟩ | ⟨e, rest, rfl, ht, rfl⟩
  · exact .inl hlive
  · rw [Live, ht]
    exact .inl (Operation.live_begin [] hlive)
  · have hleft : (e.perform setup d.state).state.Live
        ((e.perform setup d.state).next ++ rest) id :=
      hlive.mono fun x hx => List.mem_append.mpr (Turn.mem_left hx)
    rcases Errand.perform_live (Tidy.matched hd.books) (Tidy.filed hd.books) hleft with
      hbefore | hnew
    · exact .inl (by rw [Live, ht]; exact hbefore)
    · exact .inr ⟨rfl, e, rest, ht, hnew⟩

/-! ### The tally of a lineage -/

/-- **The tally of a lineage** that began when the carrier had been asked `s₀` times and `g₀`
requests had been given up: how often the carrier has been asked since then is what its request
says, and within the budget; and nothing is left of the lineage once it has been given up. -/
structure Tally (setup : Setup) (id : Int) (s₀ g₀ : Nat) (d : Desk) : Prop where
  home : ∀ r, r.id = id → d.state.AtHome d.task r →
    d.asked id = s₀ + r.retries.toNat ∧ r.retries ≤ setup.settings.maxRetries
  abroad : ∀ r, r.id = id → d.state.Abroad d.task r →
    d.asked id = s₀ + r.retries.toNat + 1 ∧ r.retries ≤ setup.settings.maxRetries
  budget : d.asked id ≤ s₀ + setup.settings.maxRetries.toNat + 1
  givenUp : d.state.givenUp id = g₀ ∨ ¬ d.Live id ∧ d.state.givenUp id = g₀ + 1 ∧
    d.asked id = s₀ + setup.settings.maxRetries.toNat + 1

/-- When a request is made, its tally begins. -/
theorem tally_of_not_live (hlive : ¬ d.Live id) :
    d.Tally setup id (d.asked id) (d.state.givenUp id) where
  home r hid hr := absurd ⟨r, hid, .inl hr⟩ hlive
  abroad r hid hr := absurd ⟨r, hid, .inr hr⟩ hlive
  budget := by omega
  givenUp := .inl rfl

section Turn

variable {e : Errand} {rest : List Errand} {s₀ g₀ : Nat}

/-- Whoever is at home after a turn was so before it, has been sent back, or is new. -/
theorem atHome_turn (hd : d.Sound setup) (ht : d.task = e :: rest) {r : Request}
    (h : (e.perform setup d.state).state.AtHome ((e.perform setup d.state).left rest) r) :
    d.state.AtHome d.task r ∨ e.IsRetry setup d.state r ∨
      e.Creates setup d.state r.id ∧ r.retries = 0 := by
  have hleft := (h.mono fun x hx => List.mem_append.mpr (Turn.mem_left hx)).append
  rw [ht]
  rcases hleft with hnext | ⟨x, hx, hr⟩
  · refine (Errand.perform_atHome (Tidy.matched hd.books) (Tidy.filed hd.books) hnext).imp_left
      fun hbefore => hbefore.mono fun x hx => ?_
    rw [List.mem_singleton.mp hx]
    exact List.mem_cons_self
  · exact .inl (.inr ⟨x, .tail _ hx, hr⟩)

/-- Whoever is abroad after a turn was so before it, with as many retries, or has just been taken
off. -/
theorem abroad_turn (hd : d.Sound setup) (ht : d.task = e :: rest) {r : Request}
    (h : (e.perform setup d.state).state.Abroad ((e.perform setup d.state).left rest) r) :
    (∃ r₀, d.state.Abroad d.task r₀ ∧ r₀.id = r.id ∧ r₀.retries = r.retries) ∨
      ∃ onward, .handOver r onward ∈ (e.perform setup d.state).next := by
  have hleft := (h.mono fun x hx => List.mem_append.mpr (Turn.mem_left hx)).append
  rw [ht]
  rcases hleft with hnext | ⟨x, hx, hr⟩
  · refine (Errand.perform_abroad (Tidy.filed hd.books) hnext).imp_left ?_
    rintro ⟨r₀, hbefore, hid, hretries⟩
    refine ⟨r₀, hbefore.mono fun x hx => ?_, hid, hretries⟩
    rw [List.mem_singleton.mp hx]
    exact List.mem_cons_self
  · exact .inl ⟨r, .inr ⟨x, .tail _ hx, hr⟩, rfl, rfl⟩

theorem abroad_of_sendsBack (hd : d.Sound setup) (ht : d.task = e :: rest) {r : Request}
    (h : e.SendsBack d.state r) : d.state.Abroad d.task r := by
  rw [ht]
  refine (h.abroad (Tidy.filed hd.books)).mono fun x hx => ?_
  rw [List.mem_singleton.mp hx]
  exact List.mem_cons_self

/-- A turn that takes the request of a lineage off keeps its tally. -/
theorem tally_taken (hd : d.Sound setup) (ht : d.task = e :: rest)
    (hd' : Sound setup ⟨(e.perform setup d.state).state, (e.perform setup d.state).left rest⟩)
    (ha' : Apart ⟨(e.perform setup d.state).state, (e.perform setup d.state).left rest⟩)
    (htally : d.Tally setup id s₀ g₀)
    (hnew : d.Creates setup id → d.asked id = s₀ ∧ d.state.givenUp id = g₀) {r : Request}
    {onward : Onward} (htaken : .handOver r onward ∈ (e.perform setup d.state).next)
    (hid : r.id = id) :
    Tally setup id s₀ g₀
      ⟨(e.perform setup d.state).state, (e.perform setup d.state).left rest⟩ := by
  subst hid
  obtain ⟨hflies, hnext, hkeeps⟩ := Errand.flying_of_taken htaken
  have hasked := asked_turn r.id hd ht
  rw [hnext, List.countP_singleton, Errand.asks, if_pos (by simp)] at hasked
  have hbefore : d.asked r.id = s₀ + r.retries.toNat ∧
      r.retries ≤ setup.settings.maxRetries ∧ d.state.givenUp r.id = g₀ := by
    rcases Errand.taken_perform htaken with ⟨r₀, hr₀, hid, hretries⟩ | ⟨hcreates, hzero⟩
    · have hhome : d.state.AtHome d.task r₀ := .inr ⟨e, by rw [ht]; exact List.mem_cons_self, hr₀⟩
      obtain ⟨hcount, hle⟩ := htally.home r₀ hid hhome
      rw [hretries] at hcount hle
      exact ⟨hcount, hle, htally.givenUp.resolve_right fun hgone => hgone.1 ⟨r₀, hid, .inl hhome⟩⟩
    · obtain ⟨hcount, hgiven⟩ := hnew ⟨e, rest, ht, hcreates⟩
      rw [hzero]
      exact ⟨hcount, UInt32.zero_le, hgiven⟩
  obtain ⟨hcount, hle, hgiven⟩ := hbefore
  have hcount' : asked ⟨(e.perform setup d.state).state, (e.perform setup d.state).left rest⟩ r.id =
      s₀ + r.retries.toNat + 1 := by
    omega
  refine ⟨fun x hxid hx => ?_, fun x hxid hx => ?_, ?_, .inl ?_⟩
  · exact (ha'.not_both hd' hxid hx (.inl hflies)).elim
  · rcases hx with hx | ⟨y, hy, hsettling⟩
    · rw [hxid, hflies] at hx
      rw [← Option.some.inj hx]
      exact ⟨hcount', hle⟩
    · have hout := (ha'.carried.unbooked x.id
        (List.mem_flatMap.mpr ⟨y, hy, Errand.mem_inHand_of_settling hsettling⟩)).2
      rw [hxid, Flights.contains_iff.mpr ⟨r, hflies⟩] at hout
      cases hout
  · have hmax := UInt32.le_iff_toNat_le.mp hle
    omega
  · exact (Errand.givenUp_of_not_mayGiveUp hkeeps r.id).trans hgiven

/-- What a request that is sent back has counted will be what the tally says. -/
theorem Tally.of_sendsBack (htally : d.Tally setup id s₀ g₀)
    (hmax : setup.settings.maxRetries.toNat + 1 < UInt32.size) (hd : d.Sound setup)
    (ht : d.task = e :: rest) {r : Request} (hid : r.id = id) (hback : e.SendsBack d.state r) :
    d.asked id = s₀ + r.countRetry.retries.toNat := by
  obtain ⟨hcount, hle⟩ := htally.abroad r hid (abroad_of_sendsBack hd ht hback)
  rw [Request.toNat_countRetry hmax hle]
  exact hcount

/-- **Nothing is left of a lineage** whose request was sent back without a retry left. -/
theorem not_live_of_exhausted (hmax : setup.settings.maxRetries.toNat + 1 < UInt32.size)
    (hd : d.Sound setup) (ha : d.Apart) (ht : d.task = e :: rest)
    (htally : d.Tally setup id s₀ g₀) {r : Request} (hid : r.id = id)
    (hback : e.SendsBack d.state r)
    (hover : setup.settings.maxRetries < r.countRetry.retries) :
    ¬ Live ⟨(e.perform setup d.state).state, (e.perform setup d.state).left rest⟩ id := by
  have habroad := abroad_of_sendsBack hd ht hback
  rintro ⟨x, hxid, hhome | habroad'⟩
  · rcases atHome_turn hd ht hhome with hbefore | ⟨y, hyback, hyid, hretries, hle⟩ | hcreates
    · exact ha.not_both hd (hxid.trans hid.symm) hbefore habroad
    · -- Another copy of the request would have as many retries.
      have hy := htally.of_sendsBack hmax hd ht (hyid.symm.trans hxid) hyback
      have hr := htally.of_sendsBack hmax hd ht hid hback
      have hsame : y.countRetry.retries = r.countRetry.retries := UInt32.toNat_inj.mp (by omega)
      rw [hretries, hsame] at hle
      exact UInt32.not_lt.mpr hle hover
    · rw [hxid] at hcreates
      exact Creates.not_live ⟨e, rest, ht, hcreates.1⟩ hd ha ⟨r, hid, .inr habroad⟩
  · have hcarried := ha.carried
    rw [ht] at hcarried
    have hleft := (habroad'.mono fun y hy => List.mem_append.mpr (Turn.mem_left hy)).append
    rcases hleft with hnext | ⟨y, hy, hsettling⟩
    · exact Errand.not_abroad_of_sendsBack (Tidy.filed hd.books) hcarried hback
        (hxid.trans hid.symm) hnext
    · refine Errand.not_abroad_of_carried hcarried ?_ (hback.abroad (Tidy.filed hd.books))
      rw [hid, ← hxid]
      exact List.mem_flatMap.mpr ⟨y, hy, Errand.mem_inHand_of_settling hsettling⟩

/-- A turn that takes nobody off for the attachment gives its lineage up at most once. -/
theorem givenUp_turn (hmax : setup.settings.maxRetries.toNat + 1 < UInt32.size)
    (hd : d.Sound setup) (ha : d.Apart) (ht : d.task = e :: rest)
    (htally : d.Tally setup id s₀ g₀) (hnew : d.Creates setup id → d.asked id = s₀) :
    (e.perform setup d.state).state.givenUp id = g₀ ∨
      ¬ Live ⟨(e.perform setup d.state).state, (e.perform setup d.state).left rest⟩ id ∧
        (e.perform setup d.state).state.givenUp id = g₀ + 1 ∧
        d.asked id = s₀ + setup.settings.maxRetries.toNat + 1 := by
  by_cases hback : ∃ r, r.id = id ∧ e.SendsBack d.state r
  · obtain ⟨r, hid, hback⟩ := hback
    have habroad := abroad_of_sendsBack hd ht hback
    have hgiven : d.state.givenUp id = g₀ :=
      htally.givenUp.resolve_right fun hgone => hgone.1 ⟨r, hid, .inr habroad⟩
    have hgiven' := Errand.givenUp_of_sendsBack setup (Tidy.filed hd.books) hback
    rw [hid, hgiven] at hgiven'
    split_ifs at hgiven' with hover
    · refine .inr ⟨not_live_of_exhausted hmax hd ha ht htally hid hback hover, hgiven', ?_⟩
      obtain ⟨hcount, hle⟩ := htally.abroad r hid habroad
      have hlt := UInt32.lt_iff_toNat_lt.mp hover
      have hle' := UInt32.le_iff_toNat_le.mp hle
      rw [Request.toNat_countRetry hmax hle] at hlt
      omega
    · exact .inl hgiven'
  · have hkept : (e.perform setup d.state).state.givenUp id = d.state.givenUp id :=
      Errand.givenUp_of_not_sendsBack setup (Tidy.filed hd.books) fun r hr hid => hback ⟨r, hid, hr⟩
    rw [hkept]
    refine htally.givenUp.imp_right fun hgone => ⟨fun hlive => ?_, hgone.2⟩
    have hmove : d.move setup .turn = some
        ⟨(e.perform setup d.state).state, (e.perform setup d.state).left rest⟩ := by
      unfold move
      rw [ht]
    rcases live_of_move hd hmove hlive with hbefore | ⟨-, hcreates⟩
    · exact hgone.1 hbefore
    · have hcount := hnew hcreates
      omega

/-- **A turn keeps the tally of a lineage**, unless it makes another one. -/
theorem tally_turn (hmax : setup.settings.maxRetries.toNat + 1 < UInt32.size)
    (hd : d.Sound setup) (ha : d.Apart) (ht : d.task = e :: rest)
    (hd' : Sound setup ⟨(e.perform setup d.state).state, (e.perform setup d.state).left rest⟩)
    (ha' : Apart ⟨(e.perform setup d.state).state, (e.perform setup d.state).left rest⟩)
    (htally : d.Tally setup id s₀ g₀)
    (hnew : d.Creates setup id → d.asked id = s₀ ∧ d.state.givenUp id = g₀) :
    Tally setup id s₀ g₀
      ⟨(e.perform setup d.state).state, (e.perform setup d.state).left rest⟩ := by
  by_cases htaken : ∃ r onward, .handOver r onward ∈ (e.perform setup d.state).next ∧ r.id = id
  · obtain ⟨r, onward, htaken, hid⟩ := htaken
    exact tally_taken hd ht hd' ha' htally hnew htaken hid
  have hasked := asked_turn id hd ht
  have hzero : (e.perform setup d.state).next.countP (·.asks id) = 0 := by
    refine List.countP_eq_zero.mpr fun x hx hasks => ?_
    cases x with
    | handOver r onward => exact htaken ⟨r, onward, hx, by simpa [Errand.asks] using hasks⟩
    | _ => cases hasks
  rw [hzero, Nat.add_zero] at hasked
  refine ⟨fun r hid hr => ?_, fun r hid hr => ?_, ?_, ?_⟩
  · rw [hasked]
    rcases atHome_turn hd ht hr with hbefore | ⟨r₀, hback, hid₀, hretries, hle⟩ | ⟨hcreates, hnone⟩
    · exact htally.home r hid hbefore
    · rw [hretries] at hle ⊢
      exact ⟨htally.of_sendsBack hmax hd ht (hid₀.symm.trans hid) hback, hle⟩
    · rw [hid] at hcreates
      rw [hnone]
      exact ⟨(hnew ⟨e, rest, ht, hcreates⟩).1, UInt32.zero_le⟩
  · rw [hasked]
    rcases abroad_turn hd ht hr with ⟨x, hx, hxid, hretries⟩ | ⟨onward, hnext⟩
    · rw [← hretries]
      exact htally.abroad x (hxid.trans hid) hx
    · exact absurd ⟨r, onward, hnext, hid⟩ htaken
  · rw [hasked]
    exact htally.budget
  · rw [hasked]
    exact givenUp_turn hmax hd ha ht htally fun hcreates => (hnew hcreates).1

end Turn

/-! ### Lineages of a run -/

/-- What holds all along a run of operations one after another. -/
structure Settled (setup : Setup) (d : Desk) : Prop where
  sound : d.Sound setup
  clear : d.Clear
  apart : d.Apart

theorem settled_fresh (setup : Setup) (w : World) : (fresh w).Settled setup :=
  ⟨(sound_clear_fresh setup w).1, (sound_clear_fresh setup w).2, apart_fresh w⟩

theorem settled_move {m : Move} (hd : d.Settled setup) (h : d.move setup m = some d') :
    d'.Settled setup := by
  obtain ⟨hsound, hclear⟩ := sound_clear_move ⟨hd.sound, hd.clear⟩ h
  exact ⟨hsound, hclear, apart_move ⟨hd.sound, hd.clear⟩ hd.apart h⟩

/-- **A move keeps the tally of a lineage**, unless it makes another one. -/
theorem tally_move (hmax : setup.settings.maxRetries.toNat + 1 < UInt32.size)
    {s₀ g₀ : Nat} {m : Move} (hd : d.Settled setup) (htally : d.Tally setup id s₀ g₀)
    (hnew : m = .turn → d.Creates setup id → d.asked id = s₀ ∧ d.state.givenUp id = g₀)
    (h : d.move setup m = some d') : d'.Tally setup id s₀ g₀ := by
  have hd' := settled_move hd h
  rcases move_cases h with ⟨w, rfl, -, rfl⟩ | ⟨op, rfl, ht, rfl⟩ | ⟨e, rest, rfl, ht, rfl⟩
  · exact ⟨htally.home, htally.abroad, htally.budget, htally.givenUp⟩
  · have hasked := asked_begin op id ht
    have hgiven := State.givenUp_congr id (Operation.state_log d.state op)
    have hhome := htally.home
    have habroad := htally.abroad
    rw [ht] at hhome habroad
    refine ⟨fun r hid hr => ?_, fun r hid hr => ?_, ?_, ?_⟩
    · rw [hasked]
      exact hhome r hid (Operation.atHome_begin [] hr)
    · rw [hasked]
      exact habroad r hid (Operation.abroad_begin [] hr)
    · rw [hasked]
      exact htally.budget
    · rw [hasked, hgiven]
      refine htally.givenUp.imp_right fun hgone => ⟨fun hlive => hgone.1 ?_, hgone.2⟩
      rw [Live, ht]
      exact Operation.live_begin [] hlive
  · exact tally_turn hmax hd.sound hd.apart ht hd'.sound hd'.apart htally (hnew rfl)

/-- The carrier is asked only for requests in flight. -/
theorem Calls.abroad (h : d.Calls id) (hd : d.Sound setup) :
    ∃ r, r.id = id ∧ d.state.Abroad d.task r := by
  obtain ⟨r, hr⟩ := Flights.contains_iff.mp (h.flying hd)
  have hid := Tidy.filed hd.books _ _ hr
  exact ⟨r, hid, .inl (by rw [hid]; exact hr)⟩

/-- **What becomes of a request of a lineage that is sent back**: with all its retries used up it is
given up, otherwise it waits again with one more. -/
theorem sentBack_turn {s₀ g₀ : Nat} {e : Errand} {rest : List Errand} {r : Request}
    (hmax : setup.settings.maxRetries.toNat + 1 < UInt32.size) (hd : d.Settled setup)
    (htally : d.Tally setup id s₀ g₀) (ht : d.task = e :: rest) (hback : e.SendsBack d.state r)
    (hid : r.id = id) (h : d.move setup .turn = some d') :
    if r.retries = setup.settings.maxRetries then d'.state.givenUp id = g₀ + 1 ∧ ¬ d'.Live id
    else d'.state.givenUp id = g₀ ∧
      (0 ≤ id → ∃ r', d'.state.scheduler.queue.index.get? id = some r' ∧
        r'.retries.toNat = r.retries.toNat + 1) := by
  obtain ⟨e', rest', ht', rfl⟩ := move_turn h
  obtain ⟨rfl, rfl⟩ := List.cons.inj (ht.symm.trans ht')
  have hfiled := Tidy.filed hd.sound.books
  have habroad := abroad_of_sendsBack hd.sound ht hback
  have hle := (htally.abroad r hid habroad).2
  have hcount := Request.toNat_countRetry hmax hle
  have hgiven : d.state.givenUp id = g₀ :=
    htally.givenUp.resolve_right fun hgone => hgone.1 ⟨r, hid, .inr habroad⟩
  have hgiven' := Errand.givenUp_of_sendsBack setup hfiled hback
  rw [hid, hgiven] at hgiven'
  have hover : setup.settings.maxRetries < r.countRetry.retries ↔
      r.retries = setup.settings.maxRetries := by
    rw [UInt32.lt_iff_toNat_lt, hcount, ← UInt32.toNat_inj]
    have hle' := UInt32.le_iff_toNat_le.mp hle
    omega
  split_ifs with hlast
  · rw [if_pos (hover.mpr hlast)] at hgiven'
    exact ⟨hgiven', not_live_of_exhausted hmax hd.sound hd.apart ht htally hid hback
      (hover.mpr hlast)⟩
  · have hnot := mt hover.mp hlast
    rw [if_neg hnot] at hgiven'
    refine ⟨hgiven', fun hpos => ?_⟩
    have hreturned := Errand.perform_returned setup hfiled hback
    have hwaits := hreturned.waits (by rw [hid]; exact hpos) (UInt32.not_lt.mp hnot)
    obtain ⟨r', hr'⟩ := Queue.contains_iff.mp hwaits
    have hretries := (hreturned.again r' hr').2.1
    exact ⟨r', by rw [← hid]; exact hr', by rw [hretries]; exact hcount⟩

/-- **A lineage** for an attachment in a run: the request was made at the state `d₀`, and no other
has been made for the attachment since. -/
def Lineage (setup : Setup) (w : World) (moves : List Move) (id : Int) (d₀ : Desk) : Prop :=
  ∃ earlier later d₁, moves = earlier ++ .turn :: later ∧
    (fresh w).run setup earlier = some d₀ ∧ d₀.Creates setup id ∧
    d₀.move setup .turn = some d₁ ∧
    Throughout (move setup) (fun d m => ¬ (m = .turn ∧ d.Creates setup id)) d₁ later

/-- What is live has a lineage. -/
theorem exists_lineage {w : World} {moves : List Move} (h : (fresh w).run setup moves = some d)
    (hlive : d.Live id) : ∃ d₀, Lineage setup w moves id d₀ := by
  rcases last_or_throughout (fun d m => m = Move.turn ∧ d.Creates setup id) h with
    hnone | ⟨earlier, m, later, d₀, d₁, hmoves, h₀, ⟨rfl, hcreates⟩, h₁, hlater⟩
  · -- Nothing has been made, so nothing is there.
    have hnever : d.Settled setup ∧ ¬ d.Live id := by
      refine follow_keeps_of (P := fun d => d.Settled setup ∧ ¬ d.Live id) ?_
        ⟨settled_fresh setup w, ?_⟩ hnone h
      · intro d m d' hd hm hmove
        refine ⟨settled_move hd.1 hmove, fun hlive' => ?_⟩
        rcases live_of_move hd.1.sound hmove hlive' with hbefore | hcreates
        · exact hd.2 hbefore
        · exact hm hcreates
      · rintro ⟨r, -, (hr | ⟨x, hx, -⟩) | (hr | ⟨x, hx, -⟩)⟩ <;> first | cases hr | cases hx
    exact absurd hlive hnever.2
  · exact ⟨d₀, earlier, later, d₁, hmoves, h₀, hcreates, h₁, hlater⟩

/-- Along its lineage, a tally is kept. -/
theorem Lineage.tally {w : World} {moves : List Move} {d₀ : Desk}
    (hmax : setup.settings.maxRetries.toNat + 1 < UInt32.size)
    (h : (fresh w).run setup moves = some d) (hlineage : Lineage setup w moves id d₀) :
    d.Settled setup ∧ d.Tally setup id (d₀.state.starts id) (d₀.state.givenUp id) := by
  obtain ⟨earlier, later, d₁, rfl, h₀, hcreates, h₁, hlater⟩ := hlineage
  have hsettled₀ : d₀.Settled setup :=
    follow_keeps (fun _ _ _ => settled_move) (settled_fresh setup w) h₀
  have hasked := hsettled₀.sound.asked_eq_starts hcreates.not_calls
  have hbegin : d₀.Tally setup id (d₀.asked id) (d₀.state.givenUp id) :=
    tally_of_not_live (hcreates.not_live hsettled₀.sound hsettled₀.apart)
  rw [hasked] at hbegin
  have hfirst := tally_move hmax hsettled₀ hbegin (fun _ _ => ⟨hasked, rfl⟩) h₁
  have hrun : follow (move setup) d₁ later = some d := by
    rw [run, follow_append h₀, follow_cons h₁] at h
    exact h
  refine follow_keeps_of
    (P := fun d => d.Settled setup ∧ d.Tally setup id (d₀.state.starts id) (d₀.state.givenUp id))
    ?_ ⟨settled_move hsettled₀ h₁, hfirst⟩ hlater hrun
  intro d m d' hd hm hmove
  exact ⟨settled_move hd.1 hmove,
    tally_move hmax hd.1 hd.2 (fun hturn hnew => absurd ⟨hturn, hnew⟩ hm) hmove⟩

/-- **The budget of retries.** Let `maxRetries` leave room for one more in a count of 32 bits. In
every run of operations one after another, with every answer of the world:

* whatever is live has a lineage;
* along a lineage the carrier has been asked as often as the request counts retries while it is at
  home, and once more when it is abroad and has been handed over;
* so the carrier has never been asked more than `maxRetries + 1` times, and the count of retries
  never wraps around;
* the lineage has been given up at most once, and then nothing is left of it, after `maxRetries + 1`
  times;
* a request that is sent back with all its retries used up is given up by this very turn; any other
  waits again with one more retry, if a record can have its number. -/
theorem retry_budget (setup : Setup) (w : World) (moves : List Move) (id : Int)
    (hmax : setup.settings.maxRetries.toNat + 1 < UInt32.size)
    (h : (fresh w).run setup moves = some d) :
    (d.Live id → ∃ d₀, Lineage setup w moves id d₀) ∧
      ∀ d₀, Lineage setup w moves id d₀ →
        (∀ r, r.id = id → d.state.AtHome d.task r →
          d.state.starts id = d₀.state.starts id + r.retries.toNat ∧
            r.retries ≤ setup.settings.maxRetries) ∧
        (∀ r, r.id = id → d.state.Abroad d.task r → ¬ d.Calls id →
          d.state.starts id = d₀.state.starts id + r.retries.toNat + 1 ∧
            r.retries ≤ setup.settings.maxRetries) ∧
        d.state.starts id ≤ d₀.state.starts id + setup.settings.maxRetries.toNat + 1 ∧
        (d.state.givenUp id = d₀.state.givenUp id ∨
          d.state.givenUp id = d₀.state.givenUp id + 1 ∧ ¬ d.Live id ∧
            d.state.starts id = d₀.state.starts id + setup.settings.maxRetries.toNat + 1) ∧
        ∀ e rest r d', d.task = e :: rest → e.SendsBack d.state r → r.id = id →
          d.move setup .turn = some d' →
            if r.retries = setup.settings.maxRetries then
              d'.state.givenUp id = d₀.state.givenUp id + 1 ∧ ¬ d'.Live id
            else d'.state.givenUp id = d₀.state.givenUp id ∧
              (0 ≤ id → ∃ r', d'.state.scheduler.queue.index.get? id = some r' ∧
                r'.retries.toNat = r.retries.toNat + 1) := by
  refine ⟨exists_lineage h, fun d₀ hlineage => ?_⟩
  obtain ⟨hd, htally⟩ := hlineage.tally hmax h
  have hstarts : d.state.starts id ≤ d.asked id := Nat.le_add_right _ _
  refine ⟨fun r hid hr => ?_, fun r hid hr hcalls => ?_, ?_, ?_, ?_⟩
  · have hcalls : ¬ d.Calls id := by
      intro hcalls
      obtain ⟨x, hx, habroad⟩ := hcalls.abroad hd.sound
      exact hd.apart.not_both hd.sound (hid.trans hx.symm) hr habroad
    rw [← hd.sound.asked_eq_starts hcalls]
    exact htally.home r hid hr
  · rw [← hd.sound.asked_eq_starts hcalls]
    exact htally.abroad r hid hr
  · exact Nat.le_trans hstarts htally.budget
  · refine htally.givenUp.imp_right fun hgone => ⟨hgone.2.1, hgone.1, ?_⟩
    have hcalls : ¬ d.Calls id := by
      intro hcalls
      obtain ⟨x, hx, habroad⟩ := hcalls.abroad hd.sound
      exact hgone.1 ⟨x, hx, .inr habroad⟩
    rw [← hd.sound.asked_eq_starts hcalls]
    exact hgone.2.2
  · exact fun e rest r d' ht hback hid => sentBack_turn hmax hd htally ht hback hid

/-- A round in which the transfer is refused, and is then wanted again. -/
def oneRefusal : List Move :=
  .begin .rescan :: List.replicate 3 .turn ++ .begin .round :: List.replicate 10 .turn

theorem retry_budget_refused :
    ∃ d d₀ r, (fresh refusingWorld).run {} oneRefusal = some d ∧
      Lineage {} refusingWorld oneRefusal 1 d₀ ∧
      d.state.scheduler.queue.index.get? 1 = some r ∧ r.retries = 1 ∧
      d.state.starts 1 = d₀.state.starts 1 + 1 := by
  obtain ⟨d, r, hrun, hr, hid, hretries⟩ : ∃ d r,
      (fresh refusingWorld).run {} oneRefusal = some d ∧
      d.state.scheduler.queue.index.get? 1 = some r ∧ r.id = 1 ∧ r.retries = 1 :=
    ⟨_, _, rfl, rfl, rfl, rfl⟩
  have hhome : d.state.AtHome d.task r := .inl (by rw [hid]; exact hr)
  obtain ⟨hlineage, hcounts⟩ := retry_budget {} refusingWorld oneRefusal 1 (by decide) hrun
  obtain ⟨d₀, hd₀⟩ := hlineage ⟨r, hid, .inl hhome⟩
  have hcount := ((hcounts d₀ hd₀).1 r hid hhome).1
  rw [hretries] at hcount
  exact ⟨d, d₀, r, hrun, hd₀, hr, hretries, hcount⟩

end Desk

end MailFetch

import MailFetch.Proofs.Readiness

/-! # One instance of a download

An attachment is wanted at most once at a time: it waits in the queue, or it is in flight, or
neither. For operations that follow one another this holds in every state that a run can reach.

* `Desk.one_instance`: the books are apart and consist of proper entries, and the carrier is never
  asked for a transfer that it still has from an earlier time.

The invariant is that a desk is `Sound`, its books are in order and the task has what it needs, and
`Clear`, what the task is about to settle is not in flight. -/

namespace MailFetch

namespace Errand

variable {setup : Setup} {s : State} {e : Errand}

/-- What an errand is about to settle is not in flight. -/
def Clear (s : State) : Errand → Prop
  | conclude r _ | askParent r _ => s.scheduler.flights.contains r.id = false
  | _ => True

theorem Clear.withWorld (h : e.Clear s) (w : World) : e.Clear (s.withWorld w) := by
  cases e <;> exact h

theorem Clear.not_collides (h : e.Clear s) : ¬ e.Collides setup s := by
  cases e with
  | askParent r record =>
    rintro ⟨hf, -⟩
    rw [show s.scheduler.flights.contains r.id = false from h] at hf
    cases hf
  | _ => exact id

/-- An errand that settles nothing is clear in any state. -/
theorem clear_of_not_settling (hconclude : ∀ r status, e ≠ conclude r status)
    (hask : ∀ r record, e ≠ askParent r record) : ∀ t, e.Clear t := by
  intro t
  cases e with
  | conclude r status => exact absurd rfl (hconclude r status)
  | askParent r record => exact absurd rfl (hask r record)
  | _ => trivial

theorem clear_of_isFirst {e : Errand} (h : Operation.isFirst e = true) : ∀ t, e.Clear t := by
  refine clear_of_not_settling ?_ ?_ <;>
  · rintro _ _ rfl
    cases h

/-- **What an errand leads to is clear**: a transfer that has ended is settled right after it has
left the air. -/
theorem perform_clear (h : s.InOrder setup) (hc : e.Clear s) :
    InLine Clear (e.perform setup s).state (e.perform setup s).next := by
  have hl := perform_leads setup s e
  cases e with
  | settle id status =>
    change InLine Clear (doSettle setup s id status).state (doSettle setup s id status).next
    unfold doSettle
    split
    · trivial
    next r hr =>
      have hid : r.land.id = id := (Tidy.flying h id r hr).1
      dsimp only
      split_ifs
      · split <;> trivial
      · refine inLine_singleton ?_
        rw [Clear, Flights.contains_eq_false_iff, Flights.get?_erase, if_pos hid]
  | conclude r status =>
    change InLine Clear (doConclude s r status).state (doConclude s r status).next
    unfold doConclude
    split
    · trivial
    · split_ifs
      · exact inLine_singleton hc
      · exact inLine_singleton trivial
      · exact inLine_singleton trivial
  | _ =>
    refine inLine_of_forall fun x hx t _ => clear_of_not_settling ?_ ?_ t <;>
      grind [Leads, LeadsOn]

end Errand

namespace Desk

variable {setup : Setup} {d d' : Desk}

/-! ### States of a desk -/

/-- **The books are in order, and the task has what it needs.** -/
structure Sound (setup : Setup) (d : Desk) : Prop where
  books : d.state.InOrder setup
  ready : Errand.Orderly setup d.state d.task

/-- The next errand of the task collides. -/
def Collides (setup : Setup) (d : Desk) : Prop :=
  ∃ e rest, d.task = e :: rest ∧ e.Collides setup d.state

/-- What the task is about to settle is not in flight. -/
def Clear (d : Desk) : Prop := Errand.InLine Errand.Clear d.state d.task

theorem Clear.not_collides (h : d.Clear) : ¬ d.Collides setup := by
  rintro ⟨e, rest, ht, hc⟩
  rw [Clear, ht] at h
  exact h.1.not_collides hc

theorem sound_fresh (setup : Setup) (w : World) : (fresh w).Sound setup where
  books := Tidy.empty setup.settings w.now
  ready := trivial

/-- **A move keeps the books in order** unless it is the turn of an errand that collides. -/
theorem sound_move {m : Move} (hd : d.Sound setup) (hc : m = .turn → ¬ d.Collides setup)
    (h : d.move setup m = some d') : d'.Sound setup := by
  rcases move_cases h with ⟨w, rfl, hle, rfl⟩ | ⟨op, rfl, -, rfl⟩ | ⟨e, rest, rfl, ht, rfl⟩
  · exact ⟨Tidy.later hd.books hle, hd.ready.later hle fun e he => he.withWorld hle⟩
  · exact ⟨Operation.state_inOrder hd.books op, Errand.inLine_of_forall fun e he =>
      Operation.standing_of_isFirst (Operation.isFirst_of_mem_errands he)⟩
  · have hready := hd.ready
    rw [ht] at hready
    refine ⟨Errand.perform_tidy hd.books hready.1 fun he => hc rfl ⟨e, rest, ht, he⟩,
      (Errand.perform_orderly hd.books hready.1).left fun x hx t ht => hready.2 x hx t ?_⟩
    rw [(Errand.perform_frame setup d.state e).now] at ht
    exact ht

/-- The clock does not go back. -/
theorem now_le_of_move {m : Move} (h : d.move setup m = some d') :
    d.state.world.now ≤ d'.state.world.now := by
  rcases move_cases h with ⟨w, rfl, hle, rfl⟩ | ⟨op, rfl, -, rfl⟩ | ⟨e, rest, rfl, -, rfl⟩
  · exact hle
  · exact Nat.le_of_eq (by rw [Operation.state_world])
  · exact Nat.le_of_eq (Errand.perform_frame setup d.state e).now.symm

/-- What is settled in one operation after another is settled clear of everybody else. -/
theorem clear_move {m : Move} (hd : d.Sound setup) (hclear : d.Clear)
    (h : d.move setup m = some d') : d'.Clear := by
  rcases move_cases h with ⟨w, rfl, hle, rfl⟩ | ⟨op, rfl, -, rfl⟩ | ⟨e, rest, rfl, ht, rfl⟩
  · exact hclear.later hle fun e he => Errand.Clear.withWorld he w
  · exact Errand.inLine_of_forall fun e he t _ =>
      Errand.clear_of_isFirst (Operation.isFirst_of_mem_errands he) t
  · rw [Clear, ht] at hclear
    refine (Errand.perform_clear hd.books hclear.1).left fun x hx t ht => hclear.2 x hx t ?_
    rw [(Errand.perform_frame setup d.state e).now] at ht
    exact ht

/-! ### Asking the carrier -/

/-- **The carrier is about to be asked** for the transfer of an attachment. -/
def Calls (d : Desk) (id : Int) : Prop :=
  ∃ r onward rest, d.task = .handOver r onward :: rest ∧ r.id = id

/-- While the carrier is asked for a transfer, its request is in flight. -/
theorem Calls.flying {id : Int} (h : d.Calls id) (hd : d.Sound setup) :
    d.state.scheduler.flights.contains id = true := by
  obtain ⟨r, onward, rest, ht, rfl⟩ := h
  have hready := hd.ready
  rw [ht] at hready
  exact hready.1.1

/-- **A turn after which the carrier is asked for a transfer** found its request in the air no
more. -/
theorem grounded_of_turn {id : Int} (hd : d.Sound setup) (h : d.move setup .turn = some d')
    (hcalls : d'.Calls id) : d.state.scheduler.flights.contains id = false := by
  obtain ⟨e, rest, ht, rfl⟩ := move_turn h
  obtain ⟨r, onward, more, hleft, rfl⟩ := hcalls
  have hready := hd.ready
  rw [ht] at hready
  have hmem : Errand.handOver r onward ∈ (e.perform setup d.state).left rest := by
    dsimp only at hleft
    rw [hleft]
    exact List.mem_cons_self
  rcases Turn.mem_left hmem with hnext | hrest
  · rcases (Errand.perform_leads setup d.state e).of_handOver hnext with
      ⟨r₀, aside, now, rfl, rfl⟩ | ⟨a, others, now, rfl, rfl⟩
    · exact hready.1.2.2
    · by_contra hf
      have hf' : d.state.scheduler.flights.contains a.id = true := by
        rw [Bool.not_eq_false] at hf
        exact hf
      simp [Errand.perform, Errand.doClaim, hf'] at hnext
  · -- Later in a task, nothing may rely on a request that is in flight by now.
    have hflying : Flights.empty.contains r.id = true :=
      (hready.2 _ hrest { d.state with scheduler := {} } (Nat.le_refl _)).1
    cases hflying

/-- Between two moves the carrier is still to be asked, or nothing of the attachment is in
flight. -/
theorem calls_or_grounded {id : Int} {m : Move} (hd : d.Sound setup)
    (h : d.move setup m = some d') (hcalls : d'.Calls id) :
    d.Calls id ∨ d.state.scheduler.flights.contains id = false := by
  rcases move_cases h with ⟨w, rfl, -, rfl⟩ | ⟨op, rfl, -, rfl⟩ | ⟨e, rest, rfl, -, -⟩
  · exact .inl hcalls
  · obtain ⟨r, onward, more, ht, -⟩ := hcalls
    have hmem : Errand.handOver r onward ∈ op.errands d.state := by
      dsimp only at ht
      rw [ht]
      exact List.mem_cons_self
    cases Operation.isFirst_of_mem_errands hmem
  · exact .inr (grounded_of_turn hd h hcalls)

/-- Once the carrier has been asked, it is not asked for the same again at once. -/
theorem not_calls_of_turn {id : Int} (hd : d.Sound setup) (hcalls : d.Calls id)
    (h : d.move setup .turn = some d') : ¬ d'.Calls id := by
  intro hcalls'
  have hfree := grounded_of_turn hd h hcalls'
  rw [hcalls.flying hd] at hfree
  cases hfree

/-! ### One operation after another -/

theorem sound_clear_move {m : Move} (hd : d.Sound setup ∧ d.Clear)
    (h : d.move setup m = some d') : d'.Sound setup ∧ d'.Clear :=
  ⟨sound_move hd.1 (fun _ => hd.2.not_collides) h, clear_move hd.1 hd.2 h⟩

theorem sound_clear_fresh (setup : Setup) (w : World) : (fresh w).Sound setup ∧ (fresh w).Clear :=
  ⟨sound_fresh setup w, trivial⟩

theorem sound_run {w : World} {moves : List Move} (h : (fresh w).run setup moves = some d) :
    d.Sound setup :=
  (follow_keeps (fun _ _ _ => sound_clear_move) (sound_clear_fresh setup w) h).1

/-- **One instance of a download.** In every run of operations one after another, with every
answer of the world:

* no attachment is both in the queue and in flight;
* every request in flight is entered under its own number, is active, and was last heard of
  between its start and now;
* every waiting request is idle, has a number that a record can have, and no more retries than are
  allowed;
* between two moments at which the carrier is asked for a transfer of an attachment there is one at
  which nothing of this attachment is in flight. -/
theorem one_instance (setup : Setup) (w : World) (moves : List Move)
    (h : (fresh w).run setup moves = some d) :
    (∀ id, ¬ (d.state.scheduler.queue.contains id = true ∧
        d.state.scheduler.flights.contains id = true)) ∧
      (∀ id r, d.state.scheduler.flights.get? id = some r →
        r.id = id ∧ r.active = true ∧ ∃ start heard, r.startedAt = some start ∧
          r.heardAt = some heard ∧ start ≤ heard ∧ heard ≤ d.state.world.now) ∧
      (∀ r ∈ d.state.scheduler.queue.toList,
        r.active = false ∧ 0 ≤ r.id ∧ r.retries ≤ setup.settings.maxRetries) ∧
      ∀ earlier later d₀ id, moves = earlier ++ .turn :: later →
        (fresh w).run setup earlier = some d₀ → d₀.Calls id → d.Calls id →
          ∃ between d₁, between <+: later ∧
            (fresh w).run setup (earlier ++ .turn :: between) = some d₁ ∧
            d₁.state.scheduler.flights.contains id = false := by
  have hbooks := (sound_run h).books
  refine ⟨fun id hboth => ?_, fun id r hr => ?_, fun r hr => ?_, ?_⟩
  · rw [Tidy.apart hbooks id hboth.1] at hboth
    cases hboth.2
  · obtain ⟨hid, hact, hheard, -⟩ := Tidy.flying hbooks id r hr
    exact ⟨hid, hact, hheard⟩
  · have hget := (Queue.mem_toList (Tidy.matched hbooks)).mp hr
    obtain ⟨hidle, hpos, hle, -⟩ := Tidy.waiting hbooks r.id r hget
    exact ⟨hidle, hpos, hle⟩
  · rintro earlier later d₀ id rfl h₀ hcalls₀ hcalls
    exact passes_between (Q := fun _ _ => True) (fun _ _ _ hd _ => sound_clear_move hd)
      (fun _ _ _ hd => calls_or_grounded hd.1) (fun _ _ hd hc => not_calls_of_turn hd.1 hc)
      (sound_clear_fresh setup w) (fun _ _ _ _ _ _ => trivial) h₀ hcalls₀ h hcalls

/-- A world with one wanted attachment, whose transfer is refused at first. -/
def refusingWorld : World where
  records := .ofSeed
    { attachments := [{ id := 1, message := 10, account := 1, flags := .forward }] }
  carrier := .noting 1 none

/-- A round in which the transfer is refused, up to the moment at which it is asked for again. -/
def refusedRound : List Move :=
  .begin .rescan :: List.replicate 3 .turn ++ .begin .round :: List.replicate 10 .turn ++
    .begin .round :: List.replicate 3 .turn

theorem one_instance_refused :
    ∃ d, (fresh refusingWorld).run {} refusedRound = some d ∧ d.Calls 1 ∧
      ∃ between d₁, between <+: refusedRound.drop 9 ∧
        (fresh refusingWorld).run {} (refusedRound.take 8 ++ .turn :: between) = some d₁ ∧
        d₁.state.scheduler.flights.contains 1 = false := by
  have hcalls : Calls (((fresh refusingWorld).run {} refusedRound).getD (fresh {})) 1 :=
    ⟨_, _, _, rfl, rfl⟩
  have hcalls₀ : Calls (((fresh refusingWorld).run {} (refusedRound.take 8)).getD (fresh {})) 1 :=
    ⟨_, _, _, rfl, rfl⟩
  refine ⟨_, rfl, hcalls, ?_⟩
  exact (one_instance {} refusingWorld refusedRound rfl).2.2.2 (refusedRound.take 8)
    (refusedRound.drop 9) _ 1 rfl rfl hcalls₀ hcalls

end Desk

end MailFetch

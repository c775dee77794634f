import MailFetch.Proofs.GivingUp
import MailFetch.Proofs.Limits
import MailFetch.Proofs.Purpose

/-! # Downloads that nobody asked for, and the network

A round that looks for a download nobody asked for looks at the network once, before it looks at any
record. What it finds then it does not ask again: not when it hands the request over, and not when
the request comes back into the queue and is handed over once more.

* `Crew.background_starts`: where the carrier is asked for such a request, either the round that
  claimed it is still under way, and found an unmetered network when it looked; or the request has
  been sent back since a round claimed it that did.
* `Crew.metered_starts`: in both cases the network may be a metered one by then. -/

namespace MailFetch

/-- Records ask for no request of the lowest class. -/
theorem Priority.ofFlags_ne_background {f : Flags} {p : Priority} (h : ofFlags f = some p) :
    p ≠ .background := by
  unfold ofFlags at h
  split_ifs at h <;> rw [← Option.some.inj h] <;> decide

theorem Scheduler.ofFlags_of_wanted {s : Scheduler} {policy : Policy} {a : Attachment}
    {p : Priority} (h : s.verdict policy a = .wanted p) : Priority.ofFlags a.flags = some p := by
  unfold verdict at h
  split at h
  · cases h
  next q hq =>
    split_ifs at h
    rw [hq, Verdict.wanted.inj h]

/-! ### Requests that nobody asked for -/

namespace State

/-- **There is a request for an attachment that nobody asked for**: at home, abroad or about to be
handed over. -/
def Unasked (s : State) (es : List Errand) (id : Int) : Prop :=
  ∃ r, r.id = id ∧ r.priority = .background ∧
    (s.AtHome es r ∨ s.Abroad es r ∨ ∃ onward, .handOver r onward ∈ es)

/-- Such a request is at home, or is about to be handed over from there. -/
def UnaskedWaits (s : State) (es : List Errand) (id : Int) : Prop :=
  ∃ r, r.id = id ∧ r.priority = .background ∧
    (s.AtHome es r ∨ ∃ aside, .handOver r (.queue aside) ∈ es)

variable {s : State} {es es' : List Errand} {id : Int}

theorem not_isIdle_handOver {r : Request} {onward : Onward} :
    ¬ (Errand.handOver r onward).isIdle := by
  intro hidle
  simpa [Errand.asks] using hidle.2 r.id

/-- Errands that bring nothing do not matter. -/
theorem Unasked.of_mem (h : s.Unasked es id) (hsub : ∀ e ∈ es, e ∈ es' ∨ e.isIdle) :
    s.Unasked es' id := by
  obtain ⟨r, hid, hb, hhome | habroad | ⟨onward, hcall⟩⟩ := h
  · exact ⟨r, hid, hb, .inl (hhome.of_mem fun e he => (hsub e he).imp_right fun hidle => hidle.1.1)⟩
  · exact ⟨r, hid, hb,
      .inr (.inl (habroad.of_mem fun e he => (hsub e he).imp_right fun hidle => hidle.1.2))⟩
  · exact ⟨r, hid, hb, .inr (.inr ⟨onward, (hsub _ hcall).resolve_right not_isIdle_handOver⟩)⟩

theorem UnaskedWaits.of_mem (h : s.UnaskedWaits es id) (hsub : ∀ e ∈ es, e ∈ es' ∨ e.isIdle) :
    s.UnaskedWaits es' id := by
  obtain ⟨r, hid, hb, hhome | ⟨aside, hcall⟩⟩ := h
  · exact ⟨r, hid, hb, .inl (hhome.of_mem fun e he => (hsub e he).imp_right fun hidle => hidle.1.1)⟩
  · exact ⟨r, hid, hb, .inr ⟨aside, (hsub _ hcall).resolve_right not_isIdle_handOver⟩⟩

theorem UnaskedWaits.unasked (h : s.UnaskedWaits es id) : s.Unasked es id := by
  obtain ⟨r, hid, hb, hhome | ⟨aside, hcall⟩⟩ := h
  · exact ⟨r, hid, hb, .inl hhome⟩
  · exact ⟨r, hid, hb, .inr (.inr ⟨.queue aside, hcall⟩)⟩

end State

namespace Operation

variable {s : State} {op : Operation} {es : List Errand} {id : Int}

theorem unasked_begin (h : (op.state s).Unasked (es ++ op.errands s) id) : s.Unasked es id := by
  obtain ⟨r, hid, hb, hhome | habroad | ⟨onward, hcall⟩⟩ := h
  · exact ⟨r, hid, hb, .inl (atHome_begin es hhome)⟩
  · exact ⟨r, hid, hb, .inr (.inl (abroad_begin es habroad))⟩
  · rcases List.mem_append.mp hcall with hcall | hfirst
    · exact ⟨r, hid, hb, .inr (.inr ⟨onward, hcall⟩)⟩
    · cases isFirst_of_mem_errands hfirst

theorem unaskedWaits_begin (h : (op.state s).UnaskedWaits (es ++ op.errands s) id) :
    s.UnaskedWaits es id := by
  obtain ⟨r, hid, hb, hhome | ⟨aside, hcall⟩⟩ := h
  · exact ⟨r, hid, hb, .inl (atHome_begin es hhome)⟩
  · rcases List.mem_append.mp hcall with hcall | hfirst
    · exact ⟨r, hid, hb, .inr ⟨aside, hcall⟩⟩
    · cases isFirst_of_mem_errands hfirst

end Operation

namespace Errand

variable {setup : Setup} {s : State} {e : Errand} {es : List Errand} {r : Request} {id : Int}

/-- **An errand claims a record** that nobody asked for. -/
def Claims (setup : Setup) (s : State) (id : Int) (e : Errand) : Prop :=
  ∃ a rest, e = claim a rest ∧ a.id = id ∧ e.Creates setup s id

/-- **An errand sends a request back that nobody asked for.** -/
def SendsBackUnasked (s : State) (id : Int) (e : Errand) : Prop :=
  ∃ r, e.SendsBack s r ∧ r.id = id ∧ r.priority = .background

/-- Who is new in the queue has been asked for. -/
theorem Enqueues.priority_ne (h : e.Enqueues setup s r) : r.priority ≠ .background := by
  cases e with
  | review a =>
    obtain ⟨p, hp, rfl⟩ := h
    exact Priority.ofFlags_ne_background (Scheduler.ofFlags_of_wanted hp)
  | _ => exact h.elim

/-- **Nobody is there unasked** after an errand who was not before, unless the errand claims a
record. -/
theorem perform_unasked (hq : s.scheduler.queue.Matched) (hfiled : s.scheduler.flights.Filed)
    (h : (e.perform setup s).state.Unasked ((e.perform setup s).next ++ es) id) :
    s.Unasked (e :: es) id ∨ e.Claims setup s id := by
  have hself : ∀ x ∈ [e], x ∈ e :: es := fun x hx => by
    rw [List.mem_singleton.mp hx]
    exact List.mem_cons_self
  have htaken : ∀ r onward, r.id = id → r.priority = .background →
      handOver r onward ∈ (e.perform setup s).next →
        s.Unasked (e :: es) id ∨ e.Claims setup s id := by
    rintro r onward rfl hb hnext
    rcases taken_origin hnext with ⟨r₀, hr₀, -, hsame⟩ | ⟨-, a, rest, he, hid, hcreates⟩
    · exact .inl ⟨r₀, Request.id_eq_of_purpose hsame,
        (Request.priority_eq_of_purpose hsame).trans hb, .inl (.inr ⟨e, List.mem_cons_self, hr₀⟩)⟩
    · exact .inr ⟨a, rest, he, hid, hcreates⟩
  obtain ⟨r, hid, hb, hhome | habroad | ⟨onward, hcall⟩⟩ := h
  · rcases hhome.append with hnext | ⟨x, hx, hr⟩
    · rcases atHome_origin hq hfiled hnext with hbefore | ⟨r₀, hback, hnext⟩ | hnew
      · exact .inl ⟨r, hid, hb, .inl (hbefore.mono hself)⟩
      · exact .inl ⟨r₀, (Request.id_eq_of_purpose hnext.purpose).trans hid,
          (Request.priority_eq_of_purpose hnext.purpose).trans hb,
          .inr (.inl ((hback.abroad hfiled).mono hself))⟩
      · exact absurd hb hnew.priority_ne
    · exact .inl ⟨r, hid, hb, .inl (.inr ⟨x, .tail _ hx, hr⟩)⟩
  · rcases habroad.append with hnext | ⟨x, hx, hr⟩
    · rcases abroad_origin hfiled hnext with ⟨r₀, hbefore, hsame⟩ | ⟨onward, hnext⟩
      · exact .inl ⟨r₀, (Request.id_eq_of_purpose hsame).trans hid,
          (Request.priority_eq_of_purpose hsame).trans hb, .inr (.inl (hbefore.mono hself))⟩
      · exact htaken r onward hid hb hnext
    · exact .inl ⟨r, hid, hb, .inr (.inl (.inr ⟨x, .tail _ hx, hr⟩))⟩
  · rcases List.mem_append.mp hcall with hnext | hes
    · exact htaken r onward hid hb hnext
    · exact .inl ⟨r, hid, hb, .inr (.inr ⟨onward, .tail _ hes⟩)⟩

/-- **Nobody waits unasked** after an errand who did not before, unless the errand sends somebody
back. -/
theorem perform_unaskedWaits (hq : s.scheduler.queue.Matched) (hfiled : s.scheduler.flights.Filed)
    (h : (e.perform setup s).state.UnaskedWaits ((e.perform setup s).next ++ es) id) :
    s.UnaskedWaits (e :: es) id ∨ e.SendsBackUnasked s id := by
  obtain ⟨r, hid, hb, hhome | ⟨aside, hcall⟩⟩ := h
  · rcases hhome.append with hnext | ⟨x, hx, hr⟩
    · rcases atHome_origin hq hfiled hnext with hbefore | ⟨r₀, hback, hnext⟩ | hnew
      · refine .inl ⟨r, hid, hb, .inl (hbefore.mono fun x hx => ?_)⟩
        rw [List.mem_singleton.mp hx]
        exact List.mem_cons_self
      · exact .inr ⟨r₀, hback, (Request.id_eq_of_purpose hnext.purpose).trans hid,
          (Request.priority_eq_of_purpose hnext.purpose).trans hb⟩
      · exact absurd hb hnew.priority_ne
    · exact .inl ⟨r, hid, hb, .inl (.inr ⟨x, .tail _ hx, hr⟩)⟩
  · rcases List.mem_append.mp hcall with hnext | hes
    · rcases taken_origin hnext with ⟨r₀, hr₀, -, hsame⟩ | ⟨hdone, -⟩
      · exact .inl ⟨r₀, (Request.id_eq_of_purpose hsame).trans hid,
          (Request.priority_eq_of_purpose hsame).trans hb, .inl (.inr ⟨e, List.mem_cons_self, hr₀⟩)⟩
      · cases hdone
    · exact .inl ⟨r, hid, hb, .inr ⟨aside, .tail _ hes⟩⟩

/-! ### On the way to a download that nobody asked for -/

/-- Whether an errand is on the way to a download that nobody asked for: from the first look at the
records to the handing over. -/
def goesAhead : Errand → Bool
  | handOver _ .done => true
  | e => e.hasCleared

/-- Whoever is on this way comes from there, or from the look at the network. -/
theorem Leads.goesAhead {l : List Errand} (hl : e.Leads l) {x : Errand} (hx : x ∈ l)
    (hgo : x.goesAhead = true) : e.goesAhead = true ∨ e = lookAhead := by
  cases x with
  | handOver r onward =>
    rcases hl.of_handOver hx with ⟨r₀, aside, now, rfl, -⟩ | ⟨a, rest, now, rfl, -⟩
    · -- A request from the queue is handed over with the rest of the queue to come.
      rcases hl with rfl | rfl | rfl | ⟨now, rfl⟩ <;>
        obtain h := List.mem_singleton.mp hx <;> cases h
      cases hgo
    · exact .inl rfl
  | _ =>
    refine (hl.hasCleared hx hgo).imp_left fun he => ?_
    cases e <;> first | exact he | cases he

/-- A round that goes ahead after its look at the network may do so. -/
theorem allowsBackground_of_lookAhead (h : (doLookAhead setup s).next ≠ []) :
    s.world.connectivity.allowsBackground = true := by
  unfold doLookAhead at h
  split_ifs at h with hroom hnet
  · exact absurd rfl h
  · exact absurd rfl h
  · simpa using hnet

theorem goesAhead_of_isFirst (h : Operation.isFirst e = true) : e.goesAhead = false := by
  cases e with
  | budget account asker =>
    cases asker with
    | caller => rfl
    | round a rest => cases h
  | _ => first | rfl | cases h

end Errand

namespace Crew

variable {setup : Setup} {c c' : Crew} {id : Int} {i : Nat}

/-- **There is a request for the attachment that nobody asked for.** -/
def Unasked (c : Crew) (id : Int) : Prop := c.state.Unasked c.tasks.flatten id

/-- Such a request is at home, or is about to be handed over from there. -/
def UnaskedWaits (c : Crew) (id : Int) : Prop := c.state.UnaskedWaits c.tasks.flatten id

/-- The next errand of a task claims the record of the attachment. -/
def Claims (setup : Setup) (c : Crew) (i : Nat) (id : Int) : Prop :=
  ∃ e rest, c.tasks[i]? = some (e :: rest) ∧ e.Claims setup c.state id

/-- The next errand of a task sends back a request for the attachment that nobody asked for. -/
def SendsBackUnasked (c : Crew) (i : Nat) (id : Int) : Prop :=
  ∃ e rest, c.tasks[i]? = some (e :: rest) ∧ e.SendsBackUnasked c.state id

/-- **Nobody comes unasked** in a move, unless a record is claimed. -/
theorem unasked_of_move {m : CrewMove} (hc : c.Legible) (h : c.move setup m = some c')
    (hafter : c'.Unasked id) : c.Unasked id ∨ ∃ i, m = .turn i ∧ c.Claims setup i id := by
  rcases arises_by_turn (Q := fun s es => s.Unasked es id)
      (fun hes hsub => hes.of_mem fun e he => (hsub e he).imp_right Errand.isIdle_of_isStart)
      (fun hw => hw) Operation.unasked_begin h hafter with
    hbefore | ⟨i, e, rest, others, rfl, hi, hnot, hturn⟩
  · exact .inl hbefore
  · exact .inr ⟨i, rfl, e, rest, hi,
      (Errand.perform_unasked hc.matched hc.filed hturn).resolve_left hnot⟩

/-- Nobody comes to wait unasked in a move, unless somebody is sent back. -/
theorem unaskedWaits_of_move {m : CrewMove} (hc : c.Legible) (h : c.move setup m = some c')
    (hafter : c'.UnaskedWaits id) :
    c.UnaskedWaits id ∨ ∃ i, m = .turn i ∧ c.SendsBackUnasked i id := by
  rcases arises_by_turn (Q := fun s es => s.UnaskedWaits es id)
      (fun hes hsub => hes.of_mem fun e he => (hsub e he).imp_right Errand.isIdle_of_isStart)
      (fun hw => hw) Operation.unaskedWaits_begin h hafter with
    hbefore | ⟨i, e, rest, others, rfl, hi, hnot, hturn⟩
  · exact .inl hbefore
  · exact .inr ⟨i, rfl, e, rest, hi,
      (Errand.perform_unaskedWaits hc.matched hc.filed hturn).resolve_left hnot⟩

theorem not_unasked_fresh (w : World) : ¬ (fresh w).Unasked id := by
  rintro ⟨r, -, -, hhome | habroad | ⟨onward, hcall⟩⟩
  · exact not_atHome_fresh w r hhome
  · exact not_abroad_fresh w r habroad
  · cases hcall

/-! ### The look at the network -/

/-- The next errand of a task looks whether downloads that nobody asked for may run, and they
may. -/
def LooksAhead (c : Crew) (i : Nat) : Prop :=
  (∃ rest, c.tasks[i]? = some (.lookAhead :: rest)) ∧
    c.state.world.connectivity.allowsBackground = true

/-- A task is on the way to a download that nobody asked for. -/
def GoesAhead (c : Crew) (i : Nat) : Prop :=
  ∃ task e, c.tasks[i]? = some task ∧ e ∈ task ∧ e.goesAhead = true

/-- What a task is after a turn: what it was, or what is left of it after its errand; or it has just
been started, to carry out a transfer over the web. -/
theorem task_of_turn {j : Nat} {task : List Errand} (h : c.move setup (.turn j) = some c')
    (hi : c'.tasks[i]? = some task) :
    c.tasks[i]? = some task ∨
      (i = j ∧ ∃ e rest, c.tasks[i]? = some (e :: rest) ∧
        task = (e.perform setup c.state).left rest) ∨
      ∃ job, task = [.fetch job] := by
  unfold move at h
  dsimp only at h
  split at h
  next e rest hj =>
    split_ifs at h
    obtain rfl := Option.some.inj h
    dsimp only at hi
    rw [List.getElem?_append] at hi
    split_ifs at hi
    · rw [List.getElem?_set] at hi
      split_ifs at hi with hij hlt
      · subst hij
        exact .inr (.inl ⟨rfl, e, rest, hj, (Option.some.inj hi).symm⟩)
      · exact .inl hi
    · exact .inr (.inr (Errand.perform_started setup c.state e task (List.mem_of_getElem? hi)))
  · cases h

/-- **A task goes ahead** only after its look at the network. -/
theorem goesAhead_of_move {m : CrewMove} (h : c.move setup m = some c') (hafter : c'.GoesAhead i) :
    c.GoesAhead i ∨ m = .turn i ∧ c.LooksAhead i := by
  obtain ⟨task, x, hi, hx, hgo⟩ := hafter
  have hold : ∀ added : List (List Errand), (∀ l ∈ added, ∀ y ∈ l, y.goesAhead = false) →
      (c.tasks ++ added)[i]? = some task → c.GoesAhead i := by
    intro added hadded hget
    rw [List.getElem?_append] at hget
    split_ifs at hget
    · exact ⟨task, x, hget, hx, hgo⟩
    · rw [hadded task (List.mem_of_getElem? hget) x hx] at hgo
      cases hgo
  rcases move_cases h with ⟨w, rfl, rfl⟩ | ⟨op, rfl, rfl⟩ | ⟨rfl, rfl⟩ | ⟨j, rfl⟩
  · exact .inl ⟨task, x, hi, hx, hgo⟩
  · refine .inl (hold [op.errands c.state] (fun l hl y hy => ?_) hi)
    rw [List.mem_singleton.mp hl] at hy
    exact Errand.goesAhead_of_isFirst (Operation.isFirst_of_mem_errands hy)
  · refine .inl (hold [[.listen], [.sweep, .loop]] ?_ hi)
    decide
  · rcases task_of_turn h hi with hsame | ⟨rfl, e, rest, he, rfl⟩ | ⟨job, rfl⟩
    · exact .inl ⟨task, x, hsame, hx, hgo⟩
    · rcases Turn.mem_left hx with hnext | hrest
      · rcases (Errand.perform_leads setup c.state e).goesAhead hnext hgo with hbefore | rfl
        · exact .inl ⟨_, e, he, List.mem_cons_self, hbefore⟩
        · have hahead : (Errand.doLookAhead setup c.state).next ≠ [] := List.ne_nil_of_mem hnext
          exact .inr ⟨rfl, ⟨rest, he⟩, Errand.allowsBackground_of_lookAhead hahead⟩
      · exact .inl ⟨_, x, he, .tail _ hrest, hgo⟩
    · rw [List.mem_singleton.mp hx] at hgo
      cases hgo

/-- **A task has gone ahead** since its look at the network, at the moment between two parts of a
run. -/
def GoesAheadSince (setup : Setup) (w : World) (earlier later : List CrewMove) (i : Nat) : Prop :=
  ∃ u u', (fresh w).run setup earlier = some u ∧ u.LooksAhead i ∧ u.move setup (.turn i) = some u' ∧
    Lasting (move setup) (fun v => v.GoesAhead i) u' later

/-- **Whoever goes ahead has looked at the network**, and has gone ahead since. -/
theorem goesAhead_since {w : World} {moves : List CrewMove} (h : (fresh w).run setup moves = some c)
    (hgo : c.GoesAhead i) :
    ∃ earlier later, moves = earlier ++ .turn i :: later ∧
      GoesAheadSince setup w earlier later i := by
  have hmoves : Throughout (move setup)
      (fun u m => ∀ u', u.move setup m = some u' → ¬ u.GoesAhead i → ¬ u'.GoesAhead i ∨
        m = .turn i ∧ u.LooksAhead i) (fresh w) moves := by
    intro earlier m later u _ _ u' hm hnot
    by_cases hgo' : u'.GoesAhead i
    · exact .inr ((goesAhead_of_move hm hgo').resolve_left hnot)
    · exact .inl hgo'
  have hfresh : ¬ (fresh w).GoesAhead i := by
    rintro ⟨task, e, hi, -⟩
    cases hi
  rcases holds_or_since (N := fun v : Crew => v.GoesAhead i) (P := fun v => ¬ v.GoesAhead i)
    (F := fun u m => m = .turn i ∧ u.LooksAhead i) (fun _ hu => hu) hfresh hmoves h with
    hnot | ⟨earlier, m, later, u, u', hmoves', hu, ⟨rfl, hlooks⟩, hm, hlasting⟩
  · exact absurd hgo hnot
  · exact ⟨earlier, later, hmoves', u, u', hu, hlooks, hm, hlasting⟩

/-- The network changes only with the world. -/
theorem connectivity_of_move {m : CrewMove} (h : c.move setup m = some c') :
    c'.state.world.connectivity = c.state.world.connectivity ∨
      ∃ w, m = .world w ∧ c'.state.world.connectivity = w.connectivity := by
  rcases move_cases h with ⟨w, rfl, rfl⟩ | ⟨op, rfl, rfl⟩ | ⟨rfl, rfl⟩ | ⟨i, rfl⟩
  · exact .inr ⟨w, rfl, rfl⟩
  · exact .inl (congrArg World.connectivity (Operation.state_world c.state op))
  · exact .inl rfl
  · obtain ⟨e, -, -, -, -, hstate, -⟩ := turn_errands h
    rw [hstate]
    exact .inl (Errand.perform_connectivity setup c.state e)

/-- A network on which downloads that nobody asked for may run stays one until it changes. -/
theorem allowsBackground_of_run {moves : List CrewMove} (h : c.run setup moves = some c')
    (hc : c.state.world.connectivity.allowsBackground = true)
    (hworld : ∀ w, .world w ∈ moves → w.connectivity.allowsBackground = true) :
    c'.state.world.connectivity.allowsBackground = true := by
  refine follow_keeps_of (Q := fun _ m => m ∈ moves)
    (P := fun u : Crew => u.state.world.connectivity.allowsBackground = true)
    (fun u m u' hu hm hmove => ?_) hc (fun earlier m later u hms _ => ?_) h
  · rcases connectivity_of_move hmove with hsame | ⟨w, rfl, hnew⟩
    · rw [hsame]
      exact hu
    · rw [hnew]
      exact hworld w hm
  · rw [hms]
    exact List.mem_append_right _ List.mem_cons_self

/-- **Downloads that nobody asked for, and the network.** Where a task is about to ask the carrier
for a transfer that nobody asked for, one of two things is the case:

* its round has claimed the record, and has found when it looked that the network is unmetered and
  background traffic allowed; so this is still the case unless the network has changed since;
* the request comes from the queue. Then an errand has sent it back, after a round had claimed its
  record that had found such a network. -/
theorem background_starts (setup : Setup) (w : World) (moves : List CrewMove) (c : Crew) (i : Nat)
    (task : List Errand) (r : Request) (onward : Onward) (h : (fresh w).run setup moves = some c)
    (hi : c.tasks[i]? = some task) (hr : .handOver r onward ∈ task)
    (hb : r.priority = .background) :
    (onward = .done ∧ ∃ earlier later, moves = earlier ++ .turn i :: later ∧
        GoesAheadSince setup w earlier later i ∧
        ((∀ w', .world w' ∈ later → w'.connectivity.allowsBackground = true) →
          c.state.world.connectivity.allowsBackground = true)) ∨
      (∃ aside, onward = .queue aside) ∧ ∃ first k between j last u v,
        moves = first ++ .turn k :: between ++ .turn j :: last ∧
        (fresh w).run setup first = some u ∧ u.Claims setup k r.id ∧
        (∃ earlier later, first = earlier ++ .turn k :: later ∧
          GoesAheadSince setup w earlier later k) ∧
        (fresh w).run setup (first ++ .turn k :: between) = some v ∧ v.SendsBackUnasked j r.id := by
  cases onward with
  | done =>
    obtain ⟨earlier, later, hmoves, hsince⟩ := goesAhead_since h ⟨task, _, hi, hr, rfl⟩
    refine .inl ⟨rfl, earlier, later, hmoves, hsince, fun hworld => ?_⟩
    obtain ⟨u, u', hu, hlooks, hm, -⟩ := hsince
    have hlater : u'.run setup later = some c := by
      rw [hmoves, run, follow_append hu, follow_cons hm] at h
      exact h
    refine allowsBackground_of_run hlater ?_ hworld
    rcases connectivity_of_move hm with hsame | ⟨_, hturn, -⟩
    · rw [hsame]
      exact hlooks.2
    · cases hturn
  | queue aside =>
    have hwaits : c.UnaskedWaits r.id :=
      ⟨r, rfl, hb, .inr ⟨aside, List.mem_flatten.mpr ⟨task, List.mem_of_getElem? hi, hr⟩⟩⟩
    have hfresh : ¬ (fresh w).Unasked r.id := not_unasked_fresh w
    obtain ⟨before, _, last, v, hmoves, hv, ⟨j, rfl, hback⟩⟩ :=
      (held_or_arose (fun _ _ _ => legible_move) (fun _ _ _ => unaskedWaits_of_move)
        (legible_fresh w) h hwaits).resolve_left fun hw => hfresh hw.unasked
    -- Whoever is sent back was abroad, so its record had been claimed before.
    have hunasked : v.Unasked r.id := by
      obtain ⟨e, rest, hj, r₀, hsends, hid, hb₀⟩ := hback
      have habroad := hsends.abroad (legible_run hv).filed
      refine ⟨r₀, hid, hb₀, .inr (.inl (habroad.mono fun y hy => ?_))⟩
      rw [List.mem_singleton.mp hy]
      exact List.mem_flatten.mpr ⟨_, List.mem_of_getElem? hj, List.mem_cons_self⟩
    obtain ⟨first, _, between, u, rfl, hu, ⟨k, rfl, hclaims⟩⟩ :=
      (held_or_arose (fun _ _ _ => legible_move) (fun _ _ _ => unasked_of_move)
        (legible_fresh w) hv hunasked).resolve_left hfresh
    obtain ⟨e, rest, hk, a, others, rfl, hrest⟩ := hclaims
    refine .inr ⟨⟨aside, rfl⟩, first, k, between, j, last, u, v, hmoves, hu,
      ⟨_, rest, hk, a, others, rfl, hrest⟩, ?_, hv, hback⟩
    exact goesAhead_since hu ⟨_, _, hk, List.mem_cons_self, rfl⟩

/-! ### On a metered network -/

/-- **Downloads that nobody asked for start on unmetered networks only**, and only where background
traffic is allowed. -/
def StartsUnmetered (setup : Setup) (w : World) : Prop :=
  ∀ (moves : List CrewMove) (c : Crew) (i : Nat) (r : Request) (onward : Onward)
    (rest : List Errand), (fresh w).run setup moves = some c →
      c.tasks[i]? = some (.handOver r onward :: rest) → r.priority = .background →
        c.state.world.connectivity.allowsBackground = true

/-- The world of the reluctant carrier, on a metered network. -/
def meteredWorld : World := { reluctantWorld with connectivity := ⟨.metered, true⟩ }

/-- A refused part goes back into the queue, and the next round takes it off on a metered network,
up to the handing over. -/
def meteredRetry : List CrewMove :=
  refusedClaim ++ [.turn 0, .turn 0, .world meteredWorld, .begin .round] ++
    List.replicate 3 (.turn 1)

theorem background_starts_sent_back :
    ∃ c r onward rest, (fresh reluctantWorld).run {} meteredRetry = some c ∧
      c.tasks[1]? = some (.handOver r onward :: rest) ∧ r.priority = .background ∧ r.id = 1 ∧
      (∃ aside, onward = .queue aside) ∧
      ∃ first k between j last u v, meteredRetry = first ++ .turn k :: between ++ .turn j :: last ∧
        (fresh reluctantWorld).run {} first = some u ∧ u.Claims {} k 1 ∧
        (∃ earlier later, first = earlier ++ .turn k :: later ∧
          GoesAheadSince {} reluctantWorld earlier later k) ∧
        (fresh reluctantWorld).run {} (first ++ .turn k :: between) = some v ∧
        v.SendsBackUnasked j 1 := by
  obtain ⟨c, r, aside, rest, hc, hi, hb, hid⟩ :
      ∃ c r aside rest, (fresh reluctantWorld).run {} meteredRetry = some c ∧
        c.tasks[1]? = some (.handOver r (.queue aside) :: rest) ∧ r.priority = .background ∧
        r.id = 1 := ⟨_, _, _, _, rfl, rfl, rfl, rfl⟩
  rcases background_starts {} reluctantWorld meteredRetry c 1 _ r _ hc hi List.mem_cons_self hb with
    ⟨hdone, -⟩ | ⟨hqueue, hsent⟩
  · cases hdone
  · rw [hid] at hsent
    exact ⟨c, r, _, rest, hc, hi, hb, hid, hqueue, hsent⟩

/-- The network becomes a metered one after the round has looked at it, and the part is claimed. -/
def meteredMeanwhile : List CrewMove :=
  .begin .round :: List.replicate 4 (.turn 0) ++ .world meteredWorld :: List.replicate 4 (.turn 0)

/-- **Downloads that nobody asked for start on metered networks, too**: when they are sent back and
tried again, and when the network changes after the round has looked at it. -/
theorem metered_starts :
    ¬ StartsUnmetered {} reluctantWorld ∧
      ∃ c r rest, (fresh reluctantWorld).run {} meteredMeanwhile = some c ∧
        c.tasks[0]? = some (.handOver r .done :: rest) ∧ r.priority = .background ∧
        c.state.world.connectivity.allowsBackground = false := by
  refine ⟨fun hstarts => ?_, _, _, _, rfl, rfl, rfl, rfl⟩
  have hunmetered := hstarts meteredRetry _ 1 _ _ _ rfl rfl rfl
  revert hunmetered
  decide

end Crew

end MailFetch

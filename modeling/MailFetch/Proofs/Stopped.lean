import MailFetch.Proofs.Background

/-! # After the stop

A scheduler that has been stopped still takes reports, breaks off what is silent for too long in a
tick that has begun, and goes on to change its queue. But nothing sets out any more: no request is
handed over, none comes into the air, and no round looks for a download that nobody asked for.

The flag is looked at where a round takes the next request, where it puts back those that were set
aside, and before each record that it considers. So a round that is past such a look when the flag
is set may still hand one request over; a scheduler without a round under way has no such round.

* `Errand.setsOut_of_next`: an errand of a stopped scheduler leads to one that sets out only if it
  sets out itself.
* `nothing_after_stop`: what this means for every run, of operations one after another and of
  interleaved tasks. -/

namespace MailFetch

namespace Errand

variable {setup : Setup} {s : State} {e : Errand}

/-! ### What sets out -/

/-- Whether an errand belongs to what a round does after the queue, up to the handing over. -/
def looksAhead : Errand → Bool
  | handOver _ .done | discard _ => true
  | e => e.scouts

/-- **Whether an errand sets out**: it takes a request on its way into the air, or it looks for a
download that nobody asked for. -/
def setsOut : Errand → Bool
  | screen _ _ | handOver _ _ => true
  | e => e.looksAhead

theorem setsOut_of_looksAhead (h : e.looksAhead = true) : e.setsOut = true := by
  cases e <;> first | rfl | exact h

/-- What a round does after the queue comes from there, or from the end of the queue. -/
theorem Leads.looksAhead {l : List Errand} (hl : e.Leads l) {x : Errand} (hx : x ∈ l)
    (h : x.looksAhead = true) :
    e.looksAhead = true ∨ ∃ aside, e = putBack aside ∧ l = [lookAhead, endRound] := by
  cases e with
  | budget account asker =>
    cases asker <;> grind [Leads, LeadsOn, Errand.looksAhead, scouts, Errand.hasCleared]
  | share account total asker =>
    cases asker <;> grind [Leads, LeadsOn, Errand.looksAhead, scouts, Errand.hasCleared]
  | handOver r onward =>
    cases onward <;> grind [Leads, Errand.looksAhead, scouts, Errand.hasCleared]
  | _ => grind [Leads, LeadsOn, Errand.looksAhead, scouts, Errand.hasCleared]

/-- A request is screened right after it has been taken from the queue. -/
theorem Leads.of_screen {l : List Errand} (hl : e.Leads l) {r : Request} {aside : List Request}
    (h : screen r aside ∈ l) : e = takeNext aside := by
  cases e <;> grind [Leads, LeadsOn]

theorem next_takeNext_of_stopped (hstopped : s.scheduler.stopped = true) (aside : List Request) :
    ((takeNext aside).perform setup s).next = [putBack aside] := by
  rw [perform, doTakeNext, hstopped]
  rfl

theorem next_putBack_of_stopped (hstopped : s.scheduler.stopped = true) (aside : List Request) :
    ((putBack aside).perform setup s).next = [endRound] := by
  rw [perform, doPutBack, hstopped]
  rfl

/-- **A stopped scheduler sets nothing out anew**: what sets out comes from what does. -/
theorem setsOut_of_next (hstopped : s.scheduler.stopped = true) {x : Errand}
    (hx : x ∈ (e.perform setup s).next) (h : x.setsOut = true) : e.setsOut = true := by
  have hl := perform_leads setup s e
  have hahead : x.looksAhead = true → e.setsOut = true := by
    intro hlooks
    rcases hl.looksAhead hx hlooks with he | ⟨aside, rfl, hnext⟩
    · exact setsOut_of_looksAhead he
    · rw [next_putBack_of_stopped hstopped] at hnext
      cases hnext
  cases x with
  | screen r aside =>
    obtain rfl := hl.of_screen hx
    rw [next_takeNext_of_stopped hstopped] at hx
    cases List.mem_singleton.mp hx
  | handOver r onward =>
    rcases hl.of_handOver hx with ⟨_, _, _, rfl, -⟩ | ⟨_, _, _, rfl, -⟩ <;> rfl
  | _ => exact hahead h

theorem setsOut_of_isFirst (h : Operation.isFirst e = true) : e.setsOut = false := by
  cases e with
  | budget account asker =>
    cases asker with
    | caller => rfl
    | round a rest => cases h
  | _ => first | rfl | cases h

theorem setsOut_of_isStart (h : e.isStart = true) : e.setsOut = false := by
  cases e <;> first | rfl | cases h

/-- An errand that asks the carrier sets out. -/
theorem asks_of_not_setsOut (h : e.setsOut = false) (id : Int) : e.asks id = false := by
  cases e <;> first | rfl | cases h

end Errand

/-! ### A scheduler that winds down -/

/-- **Nothing has set out** between two states: the carrier was not asked for anything, and whoever
is in flight was so before, for the same purpose and since the same time. -/
structure State.WindsDown (s₀ s : State) : Prop where
  starts : ∀ id, s.starts id = s₀.starts id
  flights : ∀ id r, s.scheduler.flights.get? id = some r →
    ∃ r₀, s₀.scheduler.flights.get? id = some r₀ ∧ r.purpose = r₀.purpose ∧
      r.startedAt = r₀.startedAt

theorem State.WindsDown.refl (s : State) : s.WindsDown s :=
  ⟨fun _ => rfl, fun _ r hr => ⟨r, hr, rfl, rfl⟩⟩

theorem State.WindsDown.congr {s₀ s s' : State} (h : s₀.WindsDown s) (hlog : s'.log = s.log)
    (hflights : s'.scheduler.flights = s.scheduler.flights) : s₀.WindsDown s' := by
  refine ⟨fun id => (starts_congr id hlog).trans (h.starts id), fun id r hr => ?_⟩
  rw [hflights] at hr
  exact h.flights id r hr

theorem Request.startedAt_heard (r : Request) (now : Nat) (status : Status) (percent : Nat) :
    (r.heard now status percent).startedAt = r.startedAt := by
  unfold heard
  dsimp only
  split_ifs <;> rfl

/-- A state in which the scheduler has been stopped and no errand that is left sets out. -/
structure State.Still (s : State) (es : List Errand) : Prop where
  stopped : s.scheduler.stopped = true
  filed : s.scheduler.flights.Filed
  idle : ∀ e ∈ es, e.setsOut = false

/-- Errands that do not set out do not matter. -/
theorem State.Still.of_mem {s : State} {es es' : List Errand} (h : s.Still es)
    (hsub : ∀ e ∈ es', e ∈ es ∨ e.setsOut = false) : s.Still es' :=
  ⟨h.stopped, h.filed, fun e he => (hsub e he).elim (h.idle e) id⟩

namespace Errand

variable {setup : Setup} {s s₀ : State} {e : Errand} {es : List Errand}

/-- **A turn keeps a scheduler still.** -/
theorem perform_still (h : s.Still (e :: es)) :
    (e.perform setup s).state.Still ((e.perform setup s).next ++ es) := by
  refine ⟨(perform_frame setup s e).stopped.trans h.stopped, perform_filed h.filed, fun x hx => ?_⟩
  rcases List.mem_append.mp hx with hnext | hes
  · by_contra hsets
    have he := setsOut_of_next h.stopped hnext (by simpa using hsets)
    rw [h.idle e List.mem_cons_self] at he
    cases he
  · exact h.idle x (.tail _ hes)

/-- **An errand that does not set out** asks nobody and brings nobody into the air. -/
theorem perform_windsDown (hfiled : s.scheduler.flights.Filed) (he : e.setsOut = false)
    (h : s₀.WindsDown s) : s₀.WindsDown (e.perform setup s).state := by
  refine ⟨fun id => ?_, fun id r hr => ?_⟩
  · rw [starts_perform, asks_of_not_setsOut he]
    exact h.starts id
  · obtain rfl := perform_filed hfiled id r hr
    rcases flying_cases hfiled hr with ⟨r₁, hr₁, hsame⟩ | ⟨onward, htaken⟩
    · obtain ⟨r₀, hr₀, hpurpose, hstarted⟩ := h.flights r.id r₁ hr₁
      rcases hsame with rfl | ⟨report, -, -, rfl⟩
      · exact ⟨r₀, hr₀, hpurpose, hstarted⟩
      · exact ⟨r₀, hr₀, (r₁.purpose_heard ..).trans hpurpose,
          (r₁.startedAt_heard ..).trans hstarted⟩
    · -- Whoever has just been taken off was screened or claimed.
      rcases (perform_leads setup s e).of_handOver htaken with
        ⟨_, _, _, rfl, -⟩ | ⟨_, _, _, rfl, -⟩ <;> cases he

end Errand

namespace Operation

variable {s s₀ : State} {es : List Errand}

theorem still_begin (h : s.Still es) (op : Operation) :
    (op.state s).Still (es ++ op.errands s) := by
  refine ⟨?_, ?_, fun e he => ?_⟩
  · by_cases hstop : op = .stop
    · rw [hstop]
      rfl
    · rw [op.state_stopped hstop]
      exact h.stopped
  · rw [op.state_flights]
    exact h.filed
  · rcases List.mem_append.mp he with hes | hfirst
    · exact h.idle e hes
    · exact Errand.setsOut_of_isFirst (isFirst_of_mem_errands hfirst)

theorem windsDown_begin (h : s₀.WindsDown s) (op : Operation) : s₀.WindsDown (op.state s) :=
  h.congr (op.state_log s) (op.state_flights s)

end Operation

/-! ### Operations one after another -/

namespace Desk

variable {setup : Setup} {d d' : Desk} {s₀ : State}

theorem still_move {m : Move} (hd : d.state.Still d.task ∧ s₀.WindsDown d.state)
    (h : d.move setup m = some d') : d'.state.Still d'.task ∧ s₀.WindsDown d'.state := by
  refine ⟨keeps_of_turn (Q := State.Still) (fun hes hsub => hes.of_mem fun e he => .inl (hsub e he))
    h (fun w _ => ⟨hd.1.stopped, hd.1.filed, hd.1.idle⟩) (fun op _ => op.still_begin hd.1)
    (fun e rest _ ht => Errand.perform_still (ht ▸ hd.1)), ?_⟩
  rcases move_cases h with ⟨w, rfl, -, rfl⟩ | ⟨op, rfl, -, rfl⟩ | ⟨e, rest, rfl, ht, rfl⟩
  · exact hd.2.congr rfl rfl
  · exact op.windsDown_begin hd.2
  · exact Errand.perform_windsDown hd.1.filed (hd.1.idle e (by rw [ht]; exact List.mem_cons_self))
      hd.2

/-- Where the operations follow one another, a scheduler is still from its stop on. -/
theorem still_of_stop {w : World} {moves : List Move} (h : (fresh w).run setup moves = some d)
    (hstop : .begin .stop ∈ moves) : d.state.Still d.task := by
  obtain ⟨earlier, later, rfl⟩ := List.append_of_mem hstop
  obtain ⟨u, hu, hrest⟩ := follow_append_eq_some h
  obtain ⟨u', hm, hlater⟩ := follow_cons_eq_some hrest
  have hstill : u'.state.Still u'.task := by
    rcases move_cases hm with ⟨_, hm', -⟩ | ⟨op, hm', -, rfl⟩ | ⟨_, _, hm', -⟩
    · cases hm'
    · obtain rfl := Move.begin.inj hm'
      exact ⟨rfl, Tidy.filed (sound_run hu).books, List.forall_mem_nil _⟩
    · cases hm'
  exact (follow_keeps (fun _ _ _ => still_move) ⟨hstill, .refl _⟩ hlater).1

end Desk

/-! ### Interleaved tasks -/

namespace Errand

variable {setup : Setup} {s : State} {e : Errand}

/-- Whatever a round does after the queue has the end of the round behind it. -/
def Followed : List Errand → Prop
  | [] => True
  | e :: rest => (e.looksAhead = true → endRound ∈ rest) ∧ Followed rest

theorem Followed.append {l rest : List Errand} (h : Followed rest)
    (hl : ∀ x ∈ l, x.looksAhead = true → endRound ∈ rest) : Followed (l ++ rest) := by
  induction l with
  | nil => exact h
  | cons e l ih =>
    exact ⟨fun he => List.mem_append_right _ (hl e List.mem_cons_self he),
      ih fun x hx => hl x (.tail _ hx)⟩

theorem followed_of_not {l : List Errand} (h : ∀ x ∈ l, x.looksAhead = false) : Followed l := by
  rw [← l.append_nil]
  refine Followed.append trivial fun x hx hlooks => ?_
  rw [h x hx] at hlooks
  cases hlooks

theorem Followed.left {t : Turn} {rest : List Errand} (h : Followed (e :: rest))
    (hl : e.Leads t.next) : Followed (t.left rest) := by
  unfold Turn.left
  split_ifs
  · trivial
  · by_cases hputBack : ∃ aside, e = putBack aside
    · obtain ⟨aside, rfl⟩ := hputBack
      rcases hl with hnext | hnext <;> rw [hnext]
      · exact ⟨nofun, h.2⟩
      · exact ⟨fun _ => List.mem_cons_self, nofun, h.2⟩
    · refine h.2.append fun x hx hlooks => h.1 ?_
      exact (hl.looksAhead hx hlooks).resolve_right fun ⟨aside, he, _⟩ => hputBack ⟨aside, he⟩

/-- In a task with what sets out, a round is under way. -/
theorem Followed.exists_holdsRound {l : List Errand} (h : Followed l) {x : Errand} (hx : x ∈ l)
    (hsets : x.setsOut = true) : ∃ y ∈ l, y.holdsRound = true := by
  induction l with
  | nil => cases hx
  | cons e rest ih =>
    rcases List.mem_cons.mp hx with rfl | hrest
    · by_cases hlooks : x.looksAhead = true
      · exact ⟨endRound, .tail _ (h.1 hlooks), rfl⟩
      · refine ⟨x, List.mem_cons_self, ?_⟩
        cases x with
        | screen _ _ => rfl
        | handOver r onward =>
          cases onward with
          | queue aside => rfl
          | done => exact absurd rfl hlooks
        | _ => exact absurd hsets hlooks
    · obtain ⟨y, hy, hround⟩ := ih h.2 hrest
      exact ⟨y, .tail _ hy, hround⟩

theorem looksAhead_of_not_setsOut (h : e.setsOut = false) : e.looksAhead = false := by
  by_contra hlooks
  rw [setsOut_of_looksAhead (by simpa using hlooks)] at h
  cases h

end Errand

namespace Crew

variable {setup : Setup} {c c' : Crew} {s₀ : State}

/-- Whatever a round of a crew does after the queue has the end of the round behind it. -/
def Followed (c : Crew) : Prop := ∀ task ∈ c.tasks, Errand.Followed task

theorem followed_move {m : CrewMove} (hc : c.Followed) (h : c.move setup m = some c') :
    c'.Followed := by
  rcases move_cases h with ⟨w, rfl, rfl⟩ | ⟨op, rfl, rfl⟩ | ⟨rfl, rfl⟩ | ⟨i, rfl⟩
  · exact hc
  · intro task htask
    rcases List.mem_append.mp htask with hbefore | hnew
    · exact hc task hbefore
    · rw [List.mem_singleton.mp hnew]
      exact Errand.followed_of_not fun x hx => Errand.looksAhead_of_not_setsOut
        (Errand.setsOut_of_isFirst (Operation.isFirst_of_mem_errands hx))
  · intro task htask
    rcases List.mem_append.mp htask with hbefore | hnew
    · exact hc task hbefore
    · have hplain : ∀ l ∈ [[Errand.listen], [Errand.sweep, Errand.loop]], ∀ x ∈ l,
          x.looksAhead = false := by decide
      exact Errand.followed_of_not (hplain task hnew)
  · obtain ⟨before, e, rest, after, -, htasks, -, rfl⟩ := move_turn h
    rw [Followed, htasks] at hc
    intro task htask
    simp only [List.mem_append, List.mem_cons] at htask
    rcases htask with (hbefore | rfl | hafter) | hstarted
    · exact hc task (by simp [hbefore])
    · exact (hc (e :: rest) (by simp)).left (Errand.perform_leads setup c.state e)
    · exact hc task (by simp [hafter])
    · obtain ⟨job, rfl⟩ := Errand.perform_started setup c.state e task hstarted
      exact ⟨nofun, trivial⟩

/-- A crew whose scheduler has been stopped, with no errand that sets out in a task that has a turn
in a run. -/
structure Still (after : List CrewMove) (c : Crew) : Prop where
  stopped : c.state.scheduler.stopped = true
  legible : c.Legible
  idle : ∀ i task, .turn i ∈ after → c.tasks[i]? = some task → ∀ e ∈ task, e.setsOut = false

theorem stopped_move {m : CrewMove} (hc : c.state.scheduler.stopped = true)
    (h : c.move setup m = some c') : c'.state.scheduler.stopped = true := by
  rcases move_cases h with ⟨w, rfl, rfl⟩ | ⟨op, rfl, rfl⟩ | ⟨rfl, rfl⟩ | ⟨i, rfl⟩
  · exact hc
  · by_cases hstop : op = .stop
    · rw [hstop]
      rfl
    · exact (op.state_stopped hstop).trans hc
  · exact hc
  · obtain ⟨before, e, rest, after, -, -, -, rfl⟩ := move_turn h
    exact (Errand.perform_frame setup c.state e).stopped.trans hc

/-- A crew that has been stopped is still, if the round that may be under way does not go on. -/
theorem still_of_stop {w : World} {moves after : List CrewMove}
    (h : (fresh w).run setup moves = some c) (hstop : .begin .stop ∈ moves)
    (hrest : ∀ i task, .turn i ∈ after → c.tasks[i]? = some task →
      ∀ e ∈ task, e.holdsRound = false) : c.Still after := by
  have hfresh : (fresh w).Followed := List.forall_mem_nil _
  have hfollowed := follow_keeps (fun _ _ _ => followed_move) hfresh h
  refine ⟨?_, legible_run h, fun i task hturn hi e he => ?_⟩
  · obtain ⟨earlier, later, rfl⟩ := List.append_of_mem hstop
    obtain ⟨u, -, hstopped⟩ := follow_append_eq_some h
    obtain ⟨u', hm, hlater⟩ := follow_cons_eq_some hstopped
    refine follow_keeps (fun _ _ _ => stopped_move) ?_ hlater
    rcases move_cases hm with ⟨_, hm', -⟩ | ⟨op, hm', rfl⟩ | ⟨hm', -⟩ | ⟨_, hm'⟩
    · cases hm'
    · obtain rfl := CrewMove.begin.inj hm'
      rfl
    · cases hm'
    · cases hm'
  · by_contra hsets
    obtain ⟨y, hy, hholds⟩ := (hfollowed task (List.mem_of_getElem? hi)).exists_holdsRound he
      (by simpa using hsets)
    rw [hrest i task hturn hi y hy] at hholds
    cases hholds

theorem still_move {m : CrewMove} {after : List CrewMove}
    (hc : c.Still after ∧ s₀.WindsDown c.state) (hm : m ∈ after) (h : c.move setup m = some c') :
    c'.Still after ∧ s₀.WindsDown c'.state := by
  obtain ⟨hstill, hwinds⟩ := hc
  refine ⟨⟨stopped_move hstill.stopped h, legible_move hstill.legible h,
    fun i task hturn hi e he => ?_⟩, ?_⟩
  · cases hbefore : c.tasks[i]? with
    | none =>
      rcases plain_of_new h hbefore hi he with hfirst | hstart
      · exact Errand.setsOut_of_isFirst hfirst
      · exact Errand.setsOut_of_isStart hstart
    | some task' =>
      have hidle := hstill.idle i task' hturn hbefore
      by_cases hself : m = .turn i
      · subst hself
        obtain ⟨x, rest, -, hi', -⟩ := turn_errands h
        obtain rfl : task' = x :: rest := Option.some.inj (hbefore.symm.trans hi')
        obtain rfl := Option.some.inj (hi.symm.trans (task_of_self hi' h).2)
        rcases Turn.mem_left he with hnext | hrest
        · by_contra hsets
          have hx := Errand.setsOut_of_next hstill.stopped hnext (by simpa using hsets)
          rw [hidle x List.mem_cons_self] at hx
          cases hx
        · exact hidle e (.tail _ hrest)
      · obtain rfl := Option.some.inj (hi.symm.trans (task_of_other hself h hbefore))
        exact hidle e he
  · rcases move_cases h with ⟨w, rfl, rfl⟩ | ⟨op, rfl, rfl⟩ | ⟨rfl, rfl⟩ | ⟨i, rfl⟩
    · exact hwinds.congr rfl rfl
    · exact op.windsDown_begin hwinds
    · exact hwinds
    · obtain ⟨e, rest, -, hi, -, hstate, -⟩ := turn_errands h
      rw [hstate]
      exact Errand.perform_windsDown hstill.legible.filed
        (hstill.idle i _ hm hi e List.mem_cons_self) hwinds

theorem still_run {moves after : List CrewMove} (hc : c.Still after) (hsub : ∀ m ∈ moves, m ∈ after)
    (h : c.run setup moves = some c') : c'.Still after ∧ c.state.WindsDown c'.state :=
  follow_keeps_of (Q := fun _ m => m ∈ after) (fun _ _ _ hu hm => still_move hu hm)
    ⟨hc, .refl _⟩ (fun earlier m later _ hmoves _ => hsub m (by rw [hmoves]; simp)) h

/-- The next errand of a task does not set out, if it is its turn. -/
def Rests (c : Crew) (m : CrewMove) : Prop :=
  ∀ i e rest, m = .turn i → c.tasks[i]? = some (e :: rest) → e.setsOut = false

theorem rests_throughout {after : List CrewMove} (hc : c.Still after) :
    Throughout (move setup) Rests c after := by
  rintro earlier m later u rfl hu i e rest rfl hi
  have hsub : ∀ x ∈ earlier, x ∈ earlier ++ .turn i :: later := fun x hx =>
    List.mem_append_left _ hx
  exact (still_run hc hsub hu).1.idle i _ (by simp) hi e List.mem_cons_self

end Crew

/-- **Nothing sets out after the stop.** Take any moment after the scheduler has been stopped, and
any later one; where tasks are interleaved, a round that is under way at the first moment must not
go on. Between the two, whatever operations begin and whatever the world does:

* the carrier is not asked for any transfer;
* nobody comes into the air: whoever is in flight at the later moment was so at the first, for the
  same purpose and since the same time;
* nobody screens a request or looks for a download that nobody asked for, so none is claimed and
  no record is deleted on the way. -/
theorem nothing_after_stop (setup : Setup) (w : World) :
    (∀ (before after : List Move) (d₁ d : Desk), (Desk.fresh w).run setup before = some d₁ →
      .begin .stop ∈ before → d₁.run setup after = some d →
        d₁.state.WindsDown d.state ∧ ∀ e ∈ d.task, e.setsOut = false) ∧
      ∀ (before after : List CrewMove) (c₁ c : Crew), (Crew.fresh w).run setup before = some c₁ →
        .begin .stop ∈ before →
        (∀ i task, .turn i ∈ after → c₁.tasks[i]? = some task →
          ∀ e ∈ task, e.holdsRound = false) →
        c₁.run setup after = some c →
          c₁.state.WindsDown c.state ∧ Throughout (Crew.move setup) Crew.Rests c₁ after := by
  constructor
  · intro before after d₁ d h₁ hstop h
    obtain ⟨hstill, hwinds⟩ := follow_keeps (fun _ _ _ => Desk.still_move)
      ⟨Desk.still_of_stop h₁ hstop, State.WindsDown.refl _⟩ h
    exact ⟨hwinds, hstill.idle⟩
  · intro before after c₁ c h₁ hstop hrest h
    have hstill := Crew.still_of_stop h₁ hstop hrest
    exact ⟨(Crew.still_run hstill (fun _ hm => hm) h).2, Crew.rests_throughout hstill⟩

/-- A round hands the wanted attachment over, and the scheduler is stopped. -/
def Desk.stoppedAloft : List Move :=
  .begin .rescan :: List.replicate 3 .turn ++ .begin .round :: List.replicate 9 .turn ++
    [.begin .stop]

/-- The transfer reports an error, and a round is held. -/
def Desk.roundAfterStop : List Move :=
  .begin (.report ⟨10, 1, .connectionError, 0⟩) :: List.replicate 2 .turn ++
    .begin .round :: List.replicate 4 .turn

/-- The same up to the stop, by tasks of a crew. -/
def Crew.stoppedAloft : List CrewMove :=
  .begin .rescan :: List.replicate 3 (.turn 0) ++ .begin .round :: List.replicate 9 (.turn 1) ++
    [.begin .stop]

/-- The transfer reports the error while the round is under way. -/
def Crew.roundAfterStop : List CrewMove :=
  [.begin .round, .begin (.report ⟨10, 1, .connectionError, 0⟩), .turn 3, .turn 4, .turn 4,
    .turn 3, .turn 3]

/-- The crew that has been stopped with a transfer in the air. -/
def Crew.stopped : Crew :=
  ((Crew.fresh Crew.wantingWorld).run {} Crew.stoppedAloft).getD (Crew.fresh Crew.wantingWorld)

theorem nothing_after_stop_retry_left :
    (∃ d₁ d, (Desk.fresh Crew.wantingWorld).run {} Desk.stoppedAloft = some d₁ ∧
      d₁.run {} Desk.roundAfterStop = some d ∧ d.state.scheduler.queue.contains 1 = true ∧
      d₁.state.starts 1 = 1 ∧ d₁.state.WindsDown d.state) ∧
    ∃ c₁ c, (Crew.fresh Crew.wantingWorld).run {} Crew.stoppedAloft = some c₁ ∧
      c₁.run {} Crew.roundAfterStop = some c ∧ c.state.scheduler.queue.contains 1 = true ∧
      c₁.state.starts 1 = 1 ∧ c₁.state.WindsDown c.state := by
  obtain ⟨hdesk, hcrew⟩ := nothing_after_stop {} Crew.wantingWorld
  have hnone : ∀ e ∈ Crew.stopped.tasks.flatten, e.holdsRound = false := by decide
  refine ⟨⟨_, _, rfl, rfl, rfl, rfl, ?_⟩, _, _, rfl, rfl, rfl, rfl, ?_⟩
  · exact (hdesk Desk.stoppedAloft Desk.roundAfterStop _ _ rfl (by decide) rfl).1
  · exact (hcrew Crew.stoppedAloft Crew.roundAfterStop Crew.stopped _ rfl (by decide)
      (fun _ _ _ hi e he => hnone e (Crew.mem_errands_of_task hi he)) rfl).1

/-- A round that has looked at the flag before the stop still hands its request over. -/
example :
    ((Crew.fresh Crew.wantingWorld).run {} (Crew.stoppedAloft.take 7 ++
      .begin .stop :: List.replicate 2 (.turn 1))).any (·.state.starts 1 == 1) = true := rfl

end MailFetch

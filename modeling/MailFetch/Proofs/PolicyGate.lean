import MailFetch.Proofs.Barred

/-! # Downloads that the policy forbids

A report that bars an attachment which a user asks for is refused: its record is marked as failed
and keeps the bar. From then on the carrier is not asked for its transfer until the bar is lifted,
that is, until the record is reviewed without it; and that takes a report of the attachment without
the bar.

The policy is asked only where a request would join the queue. So this holds of attachments that do
not wait there already, and as long as nobody takes the bar from the record without a report.

* `bar_holds`: operations one after another from the report on, and tasks interleaved in any way
  from the moment on at which the record is marked.
* `Desk.not_bar_holds`: a request that waits already is handed over all the same, and so is one for
  a record from which the bar has been taken without a report. -/

namespace MailFetch

/-! ### Marking a record -/

namespace State

variable {setup : Setup} {s : State} {a : Attachment} {es : List Errand} {id : Int}

/-- Nothing is to come for an attachment that is neither in the queue nor in flight, if no errand
brings anything. -/
theorem not_pending_of_absent (hqueue : s.scheduler.queue.contains id = false)
    (hground : s.scheduler.flights.contains id = false) (hidle : ∀ e ∈ es, e.isIdle) :
    ¬ s.Pending es id := by
  rintro (⟨r, rfl, (hr | ⟨e, he, hr⟩) | (hr | ⟨e, he, hr⟩)⟩ | ⟨e, he, hasks⟩)
  · rw [Queue.contains_eq_false_iff.mp hqueue] at hr
    cases hr
  · rw [(hidle e he).1.1] at hr
    cases hr
  · rw [Flights.contains_eq_false_iff.mp hground] at hr
    cases hr
  · rw [(hidle e he).1.2] at hr
    cases hr
  · rw [(hidle e he).2] at hasks
    cases hasks

/-- **Marking a record as barred shuts the way**, if nothing is to come for it. -/
theorem shut_of_refuse (hbar : a.flags.contains .barred = true) (htakes : s.world.Takes a.id)
    (hidle : ¬ s.Pending (.refuse a :: es) a.id) (hclosed : ∀ e ∈ es, ¬ e.Opens a.id) :
    ((Errand.refuse a).perform setup s).state.Shut
      (((Errand.refuse a).perform setup s).next ++ es) a.id where
  idle hpending := by
    have hring : s.Pending (.ring :: es) a.id := hpending
    refine hidle (Errand.pending_of_mem hring fun e he => ?_)
    rcases List.mem_cons.mp he with rfl | he
    · exact .inr ⟨⟨rfl, rfl⟩, fun _ => rfl⟩
    · exact .inl (.tail _ he)
  bars := htakes.bars rfl (by rw [Flags.contains_barred_without_pending]; exact hbar)
  closed e he := by
    rcases List.mem_cons.mp he with rfl | he
    · simp [Errand.Opens, Errand.candidates, Errand.reading]
    · exact hclosed e he

/-- Marking a record announces nothing. -/
theorem Unannounced.refuse (h : s.Unannounced (.refuse a :: es) id) :
    ((Errand.refuse a).perform setup s).state.Unannounced
      (((Errand.refuse a).perform setup s).next ++ es) id where
  errands e he := by
    rcases List.mem_cons.mp he with rfl | he
    · exact fun hannounces => hannounces
    · exact h.errands e (.tail _ he)
  notices := h.notices

end State

/-! ### Tasks interleaved -/

namespace Crew

variable {setup : Setup} {c c' : Crew} {id : Int} {i : Nat}

/-- The next errand of a task lifts the bar from the attachment. -/
def Lifts (c : Crew) (i : Nat) (id : Int) : Prop :=
  ∃ e rest, c.tasks[i]? = some (e :: rest) ∧ e.Lifts id

/-- The way to a transfer of the attachment is shut. -/
def Shut (c : Crew) (id : Int) : Prop := c.state.Shut c.tasks.flatten id

/-- No report of the attachment without the bar is on its way. -/
def Unannounced (c : Crew) (id : Int) : Prop := c.state.Unannounced c.tasks.flatten id

/-- **The bar is left alone** from outside: where the record is barred, it stays so when the world
becomes another one. -/
def LeavesBar (id : Int) (c : Crew) (m : CrewMove) : Prop :=
  ∀ w, m = .world w → c.state.world.Bars id → w.Bars id

/-- **The way stays shut** until the bar is lifted. -/
theorem shut_move {m : CrewMove} (hc : c.Legible) (hshut : c.Shut id)
    (hworld : c.LeavesBar id m) (hlifts : ∀ i, m = .turn i → ¬ c.Lifts i id)
    (h : c.move setup m = some c') : c'.Shut id := by
  refine keeps_of_turn (Q := fun s es => s.Shut es id) (fun hs hsub => hs.of_mem hsub) h hshut
    (fun w hw => ⟨hshut.idle, hworld w hw hshut.bars, hshut.closed⟩)
    (fun op _ => hshut.begin op) fun i e rest others hm hi hs => ?_
  exact hs.perform hc.matched hc.filed fun he => hlifts i hm ⟨e, rest, hi, he⟩

/-- **Nothing is announced** while the record is barred, but by an operation. -/
theorem unannounced_move {m : CrewMove} (hbars : c.state.world.Bars id) (hquiet : c.Unannounced id)
    (hop : ∀ op, m = .begin op → ¬ op.Lifts id) (h : c.move setup m = some c') :
    c'.Unannounced id :=
  keeps_of_turn (Q := fun s es => s.Unannounced es id) (fun hs hsub => hs.of_mem hsub) h hquiet
    (fun _ _ => ⟨hquiet.errands, hquiet.notices⟩) (fun op hm => hquiet.begin (hop op hm))
    fun _ _ _ _ _ _ hs => hs.perform hbars

theorem Unannounced.not_lifts (h : c.Unannounced id) : ¬ c.Lifts i id := by
  rintro ⟨e, rest, hi, he⟩
  exact State.Unannounced.not_lifts h
    (List.mem_flatten.mpr ⟨_, List.mem_of_getElem? hi, List.mem_cons_self⟩) he

/-- **While the way is shut, the carrier is asked for the transfer only after the bar has been
lifted**, and an operation has reported the attachment without it before. -/
theorem lifted_of_calls {later : List CrewMove} (hc : c.Legible) (hshut : c.Shut id)
    (hquiet : c.Unannounced id) (hworld : Throughout (move setup) (LeavesBar id) c later)
    (h : c.run setup later = some c') (hcalls : c'.Calls id) :
    ∃ earlier i more u, later = earlier ++ .turn i :: more ∧ c.run setup earlier = some u ∧
      u.Lifts i id ∧ ∃ op, .begin op ∈ earlier ∧ op.Lifts id := by
  obtain ⟨earlier, _, more, u, hlater, hu, ⟨i, rfl, hlifts⟩, _, hmem, op, rfl, hop⟩ :=
    broken_after (P := fun u : Crew => u.Legible ∧ u.Shut id)
      (R := fun u => u.Unannounced id) (L := fun u m => ∃ i, m = .turn i ∧ u.Lifts i id)
      (O := fun m => ∃ op, m = .begin op ∧ op.Lifts id)
      (fun u m u' hp hq hl hm => ⟨legible_move hp.1 hm,
        shut_move hp.1 hp.2 hq (fun i hi hlifts => hl ⟨i, hi, hlifts⟩) hm⟩)
      (fun u m u' hp hr _ ho hm => unannounced_move hp.2.bars hr
        (fun op hop hlifts => ho ⟨op, hop, hlifts⟩) hm)
      (fun u m hr hl => hl.elim fun i hi => hr.not_lifts hi.2) ⟨hc, hshut⟩ hquiet hworld h
      fun hend => hend.2.idle (.inr hcalls)
  exact ⟨earlier, i, more, u, hlater, hu, hlifts, op, hmem, hop⟩

/-- A task marks a record as barred. -/
theorem shut_of_refuse {a : Attachment} {rest : List Errand} (hquiet : c.Unannounced a.id)
    (hi : c.tasks[i]? = some (.refuse a :: rest)) (hbar : a.flags.contains .barred = true)
    (htakes : c.state.world.Takes a.id) (hidle : ¬ c.Pending a.id)
    (hclosed : ∀ e ∈ c.tasks.flatten, ¬ e.Opens a.id) (h : c.move setup (.turn i) = some c') :
    c'.Shut a.id ∧ c'.Unannounced a.id := by
  obtain ⟨e, rest', others, hi', -, hstate, htasks, hleft, -⟩ := turn_errands h
  obtain ⟨rfl, -⟩ := List.cons.inj (Option.some.inj (hi.symm.trans hi'))
  have hsub : ∀ x ∈ c'.tasks.flatten,
      x ∈ ((Errand.refuse a).perform setup c.state).next ++ others ∨ x.isStart = true := by
    intro x hx
    refine (hleft x hx).imp_right ?_
    rintro ⟨job, rfl⟩
    rfl
  rw [Shut, Unannounced, hstate]
  constructor
  · refine (State.shut_of_refuse hbar htakes (fun hpending => hidle ?_) fun e he => ?_).of_mem hsub
    · exact hpending.mono fun x hx => (htasks x).mpr hx
    · exact hclosed e ((htasks e).mpr (.tail _ he))
  · exact (hquiet.of_mem fun x hx => .inl ((htasks x).mpr hx)).refuse.of_mem hsub

end Crew

/-! ### Operations, one after another -/

namespace Desk

variable {setup : Setup} {d d₀ d₁ d' : Desk} {a : Attachment} {id : Int} {m : Move}

/-- The next errand lifts the bar from the attachment. -/
def Lifts (d : Desk) (id : Int) : Prop := ∃ e rest, d.task = e :: rest ∧ e.Lifts id

/-- The way to a transfer of the attachment is shut. -/
def Shut (d : Desk) (id : Int) : Prop := d.state.Shut d.task id

/-- The operation in hand does not announce the attachment without the bar. -/
def Unannounced (d : Desk) (id : Int) : Prop :=
  ∀ e ∈ d.task, ¬ e.Announces id ∧ e ≠ .listen

/-- **The bar is left alone** from outside. -/
def LeavesBar (id : Int) (d : Desk) (m : Move) : Prop :=
  ∀ w, m = .world w → d.state.world.Bars id → w.Bars id

theorem shut_move (hd : d.Settled setup) (hshut : d.Shut id) (hworld : d.LeavesBar id m)
    (hlifts : m = .turn → ¬ d.Lifts id) (h : d.move setup m = some d') : d'.Shut id := by
  refine keeps_of_turn (Q := fun s es => s.Shut es id)
    (fun hs hsub => hs.of_mem fun e he => .inl (hsub e he)) h
    (fun w hw => ⟨hshut.idle, hworld w hw hshut.bars, hshut.closed⟩)
    (fun op _ => hshut.begin op) fun e rest hm ht => ?_
  rw [Shut, ht] at hshut
  exact hshut.perform (Tidy.matched hd.sound.books) (Tidy.filed hd.sound.books) fun he =>
    hlifts hm ⟨e, rest, ht, he⟩

theorem unannounced_move (hbars : d.state.world.Bars id) (hquiet : d.Unannounced id)
    (hop : ∀ op, m = .begin op → ¬ op.Lifts id) (h : d.move setup m = some d') :
    d'.Unannounced id := by
  refine keeps_of_turn (Q := fun _ es => ∀ e ∈ es, ¬ e.Announces id ∧ e ≠ .listen)
    (fun hs hsub e he => hs e (hsub e he)) h (fun _ _ => hquiet) (fun op hm e he => ?_)
    fun e rest _ ht x hx => ?_
  · rcases List.mem_append.mp he with he | he
    · exact hquiet e he
    · refine ⟨Operation.not_announces (hop op hm) he, ?_⟩
      rintro rfl
      cases Operation.isFirst_of_mem_errands he
  · obtain ⟨hann, hlisten⟩ := hquiet e (by rw [ht]; exact List.mem_cons_self)
    rcases List.mem_append.mp hx with hx | hx
    · refine ⟨Errand.announces_perform hbars hann (fun he => absurd he hlisten) x hx, ?_⟩
      rintro rfl
      exact hlisten ((Errand.perform_leads setup d.state e).of_notice hx (.inl rfl))
    · exact hquiet x (by rw [ht]; exact .tail _ hx)

theorem Unannounced.not_lifts (h : d.Unannounced id) : ¬ d.Lifts id := by
  rintro ⟨e, rest, ht, he⟩
  have hann := (h e (by rw [ht]; exact List.mem_cons_self)).1
  cases e with
  | review a => exact hann he
  | _ => exact he.elim

/-- **While the way is shut, the carrier is asked for the transfer only after the bar has been
lifted.** -/
theorem lifted_of_calls {later : List Move} (hd : d.Settled setup) (hshut : d.Shut id)
    (hquiet : d.Unannounced id) (hworld : Throughout (move setup) (LeavesBar id) d later)
    (h : d.run setup later = some d') (hcalls : d'.Calls id) :
    ∃ earlier more u, later = earlier ++ .turn :: more ∧ d.run setup earlier = some u ∧
      u.Lifts id ∧ ∃ op, .begin op ∈ earlier ∧ op.Lifts id := by
  obtain ⟨r, onward, rest, ht, hid⟩ := hcalls
  have hpending : d'.state.Pending d'.task id :=
    .inr ⟨_, by rw [ht]; exact List.mem_cons_self, by simp [Errand.asks, hid]⟩
  obtain ⟨earlier, _, more, u, hlater, hu, ⟨rfl, hlifts⟩, _, hmem, op, rfl, hop⟩ :=
    broken_after (P := fun u : Desk => u.Settled setup ∧ u.Shut id)
      (R := fun u => u.Unannounced id) (L := fun u m => m = .turn ∧ u.Lifts id)
      (O := fun m => ∃ op, m = .begin op ∧ op.Lifts id)
      (fun u m u' hp hq hl hm => ⟨settled_move hp.1 hm,
        shut_move hp.1 hp.2 hq (fun hturn hlifts => hl ⟨hturn, hlifts⟩) hm⟩)
      (fun u m u' hp hr _ ho hm => unannounced_move hp.2.bars hr
        (fun op hop hlifts => ho ⟨op, hop, hlifts⟩) hm)
      (fun u m hr hl => hr.not_lifts hl.2) ⟨hd, hshut⟩ hquiet hworld h
      fun hend => hend.2.idle hpending
  exact ⟨earlier, more, u, hlater, hu, hlifts, op, hmem, hop⟩

/-! ### A report that bars an attachment -/

/-- **A report is applied by which a download is forbidden**: the operation in hand reviews the
record of an attachment that is barred and that a user asks for, and comes to its end. The
attachment is not in flight, its record exists and takes updates. -/
structure AppliesBar (setup : Setup) (d₀ : Desk) (applying : List Move) (d₁ : Desk)
    (a : Attachment) : Prop where
  task : d₀.task = [.review a]
  barred : a.flags.contains .barred = true
  asked : a.flags.contains .requested = true
  grounded : d₀.state.scheduler.flights.contains a.id = false
  takes : d₀.state.world.Takes a.id
  stillTakes : ∀ w, .world w ∈ applying → w.Takes a.id
  alone : ∀ op, .begin op ∉ applying
  run : d₀.run setup applying = some d₁
  complete : d₁.task = []

/-- **How far the report has been applied**: the record is to be reviewed, it is to be marked, or it
has been marked. -/
inductive Refusing (d : Desk) (a : Attachment) : Prop
  | reviews (ht : d.task = [.review a]) (hqueue : d.state.scheduler.queue.contains a.id = false)
      (hground : d.state.scheduler.flights.contains a.id = false)
      (htakes : d.state.world.Takes a.id)
  | marks (ht : d.task = [.refuse a]) (hqueue : d.state.scheduler.queue.contains a.id = false)
      (hground : d.state.scheduler.flights.contains a.id = false)
      (htakes : d.state.world.Takes a.id)
  | marked (ht : d.task = [.ring] ∨ d.task = []) (hshut : d.Shut a.id)

theorem refusing_move (hbar : a.flags.contains .barred = true)
    (hasked : a.flags.contains .requested = true) (hd : d.Settled setup) (hphase : d.Refusing a)
    (hop : ∀ op, m ≠ .begin op) (htakes : ∀ w, m = .world w → w.Takes a.id)
    (hworld : d.LeavesBar a.id m) (h : d.move setup m = some d') : d'.Refusing a := by
  cases hphase with
  | reviews ht hqueue hground hnow =>
    rcases move_cases h with ⟨w, rfl, -, rfl⟩ | ⟨op, rfl, -, -⟩ | ⟨e, rest, rfl, ht', rfl⟩
    · exact .reviews ht hqueue hground (htakes w rfl)
    · exact absurd rfl (hop op)
    · obtain ⟨rfl, rfl⟩ := List.cons.inj (ht.symm.trans ht')
      have hturn : (Errand.review a).perform setup d.state =
          { state := d.state, next := [.refuse a] } := by
        simp [Errand.perform, Errand.doReview,
          Scheduler.verdict_of_barred hbar hasked hqueue hground]
      rw [hturn]
      exact .marks rfl hqueue hground hnow
  | marks ht hqueue hground hnow =>
    rcases move_cases h with ⟨w, rfl, -, rfl⟩ | ⟨op, rfl, -, -⟩ | ⟨e, rest, rfl, ht', rfl⟩
    · exact .marks ht hqueue hground (htakes w rfl)
    · exact absurd rfl (hop op)
    · obtain ⟨rfl, rfl⟩ := List.cons.inj (ht.symm.trans ht')
      have hidle : ¬ d.state.Pending [.refuse a] a.id := by
        refine State.not_pending_of_absent hqueue hground fun e he => ?_
        rw [List.mem_singleton.mp he]
        exact ⟨⟨rfl, rfl⟩, fun _ => rfl⟩
      exact .marked (.inl rfl) (State.shut_of_refuse hbar hnow hidle fun e he => by cases he)
  | marked ht hshut =>
    have hnext : d'.Shut a.id := by
      refine shut_move hd hshut hworld (fun _ hlifts => ?_) h
      obtain ⟨e, rest, ht', he⟩ := hlifts
      rcases ht with ht | ht <;> rw [ht] at ht' <;> cases ht'
      exact he
    rcases move_cases h with ⟨w, rfl, -, rfl⟩ | ⟨op, rfl, -, -⟩ | ⟨e, rest, rfl, ht', rfl⟩
    · exact .marked ht hnext
    · exact absurd rfl (hop op)
    · rcases ht with ht | ht <;> rw [ht] at ht' <;> cases ht'
      exact .marked (.inr rfl) hnext

/-- **After a report that bars an attachment the way is shut**, if the attachment did not wait. -/
theorem AppliesBar.shut {applying : List Move} (h : AppliesBar setup d₀ applying d₁ a)
    (hd : d₀.Settled setup) (hqueue : d₀.state.scheduler.queue.contains a.id = false)
    (hworld : Throughout (move setup) (LeavesBar a.id) d₀ applying) : d₁.Shut a.id := by
  have hend := follow_keeps_of
    (P := fun u : Desk => u.Settled setup ∧ u.Refusing a)
    (Q := fun u m => u.LeavesBar a.id m ∧ (∀ op, m ≠ .begin op) ∧ ∀ w, m = .world w → w.Takes a.id)
    (fun u m u' hp hq hm => ⟨settled_move hp.1 hm,
      refusing_move h.barred h.asked hp.1 hp.2 hq.2.1 hq.2.2 hq.1 hm⟩)
    ⟨hd, .reviews h.task hqueue h.grounded h.takes⟩ (fun earlier m later u hmoves hu => ?_) h.run
  · cases hend.2 with
    | reviews ht => rw [h.complete] at ht; cases ht
    | marks ht => rw [h.complete] at ht; cases ht
    | marked _ hshut => exact hshut
  · have hmem : m ∈ applying := by
      rw [hmoves]
      exact List.mem_append_right _ List.mem_cons_self
    refine ⟨hworld earlier m later u hmoves hu, ?_, ?_⟩
    · rintro op rfl
      exact h.alone op hmem
    · rintro w rfl
      exact h.stillTakes w hmem

end Desk

/-- **The policy keeps the gate.** A report is applied that bars an attachment which a user asks
for, and which neither waits nor is in flight. From then on, and as long as nobody takes the bar
from its record without a report, the carrier is asked for its transfer only after the bar has been
lifted: a review of the record without the bar has been made, and the attachment has been reported
without the bar before.

With operations one after another this holds from the end of the report on; however the tasks are
interleaved, from the moment on at which the record is marked, if nothing is to come for the
attachment at that moment. -/
theorem bar_holds (setup : Setup) (w : World) (a : Attachment) :
    (∀ before applying later d₀ d₁ d, (Desk.fresh w).run setup before = some d₀ →
        Desk.AppliesBar setup d₀ applying d₁ a →
          d₀.state.scheduler.queue.contains a.id = false →
            Throughout (Desk.move setup) (Desk.LeavesBar a.id) d₀ (applying ++ later) →
              d₁.run setup later = some d → d.Calls a.id →
                ∃ earlier more u, later = earlier ++ .turn :: more ∧
                  d₁.run setup earlier = some u ∧ u.Lifts a.id ∧
                  ∃ op, .begin op ∈ earlier ∧ op.Lifts a.id) ∧
      ∀ before later c₀ c₁ c i rest, (Crew.fresh w).run setup before = some c₀ →
        c₀.tasks[i]? = some (.refuse a :: rest) → a.flags.contains .barred = true →
          c₀.state.world.Takes a.id → ¬ c₀.Pending a.id → c₀.Unannounced a.id →
            (∀ e ∈ c₀.tasks.flatten, ¬ e.Opens a.id) → c₀.move setup (.turn i) = some c₁ →
              Throughout (Crew.move setup) (Crew.LeavesBar a.id) c₁ later →
                c₁.run setup later = some c → c.Calls a.id →
                  ∃ earlier j more u, later = earlier ++ .turn j :: more ∧
                    c₁.run setup earlier = some u ∧ u.Lifts j a.id ∧
                    ∃ op, .begin op ∈ earlier ∧ op.Lifts a.id := by
  constructor
  · intro before applying later d₀ d₁ d hbefore happlies hqueue hworld hlater hcalls
    have hd₀ : d₀.Settled setup :=
      follow_keeps (fun _ _ _ => Desk.settled_move) (Desk.settled_fresh setup w) hbefore
    have hd₁ : d₁.Settled setup := follow_keeps (fun _ _ _ => Desk.settled_move) hd₀ happlies.run
    obtain ⟨hfirst, hrest⟩ := throughout_append happlies.run hworld
    refine Desk.lifted_of_calls hd₁ (happlies.shut hd₀ hqueue hfirst) ?_ hrest hlater hcalls
    intro e he
    rw [happlies.complete] at he
    cases he
  · intro before later c₀ c₁ c i rest hbefore hi hbar htakes hidle hquiet hclosed hmove hworld
      hlater hcalls
    have hc₀ := Crew.legible_run hbefore
    obtain ⟨hshut, hquiet₁⟩ := Crew.shut_of_refuse hquiet hi hbar htakes hidle hclosed hmove
    exact Crew.lifted_of_calls (Crew.legible_move hc₀ hmove) hshut hquiet₁ hworld hlater hcalls

/-! ### A part that is barred and asked for again -/

/-- An inline part that a user asks for. -/
def wishedPart : Attachment :=
  { id := 1, message := 10, account := 1, flags := .requested, contentId := some "part" }

/-- The part as the policy bars it. -/
def barredPart : Attachment := { wishedPart with flags := .union .requested .barred }

/-- A world with the part and its account. -/
def partWorld : World where
  records := .ofSeed { accounts := [{ id := 1 }], attachments := [wishedPart] }

theorem takes_partWorld : partWorld.Takes 1 := ⟨Records.filed_ofSeed _, ⟨_, rfl⟩, rfl⟩

namespace Desk

/-- As long as the world stays as it is, the bar is left alone. -/
theorem leavesBar_of_forall {setup : Setup} {id : Int} {d : Desk} {moves : List Move}
    (h : ∀ w, .world w ∉ moves) : Throughout (move setup) (LeavesBar id) d moves := by
  rintro earlier m later u hmoves - w rfl
  exact absurd (by rw [hmoves]; simp) (h w)

/-- The bar is reported, reviewed, entered into the record, and the main loop is woken. -/
def barReported : List Move := .begin (.change barredPart) :: List.replicate 3 .turn

/-- A report of the part without the bar, and a round up to the moment at which the carrier is to be
asked. -/
def askedOnceMore : List Move :=
  .begin (.change wishedPart) :: .turn :: .begin .round :: List.replicate 3 .turn

/-- Nothing stands in the way of the bar of the part, if the part is not in flight. -/
theorem appliesBar_part {d₀ d₁ : Desk} {n : Nat} (ht : d₀.task = [.review barredPart])
    (hworld : d₀.state.world = partWorld) (hground : d₀.state.scheduler.flights.contains 1 = false)
    (hrun : d₀.run {} (List.replicate n .turn) = some d₁) (hcomplete : d₁.task = []) :
    AppliesBar {} d₀ (List.replicate n .turn) d₁ barredPart where
  task := ht
  barred := rfl
  asked := rfl
  grounded := hground
  takes := by
    rw [hworld]
    exact takes_partWorld
  stillTakes w hw := by cases List.eq_of_mem_replicate hw
  alone op hop := by cases List.eq_of_mem_replicate hop
  run := hrun
  complete := hcomplete

end Desk

namespace Crew

theorem leavesBar_of_forall {setup : Setup} {id : Int} {c : Crew} {moves : List CrewMove}
    (h : ∀ w, .world w ∉ moves) : Throughout (move setup) (LeavesBar id) c moves := by
  rintro earlier m later u hmoves - w rfl
  exact absurd (by rw [hmoves]; simp) (h w)

/-- The bar is reported, and the record is to be marked. -/
def barReported : List CrewMove := [.begin (.change barredPart), .turn 0]

/-- A report of the part without the bar, and a round up to the moment at which the carrier is to be
asked. -/
def askedOnceMore : List CrewMove :=
  .begin (.change wishedPart) :: .turn 1 :: .begin .round :: List.replicate 3 (.turn 2)

end Crew

theorem bar_holds_asked_again :
    (∃ d₁ d earlier more u, (Desk.fresh partWorld).run {} Desk.barReported = some d₁ ∧
        d₁.run {} Desk.askedOnceMore = some d ∧ d.Calls 1 ∧
        Desk.askedOnceMore = earlier ++ .turn :: more ∧ d₁.run {} earlier = some u ∧ u.Lifts 1 ∧
        ∃ op, .begin op ∈ earlier ∧ op.Lifts 1) ∧
      ∃ c₁ c earlier j more u,
        (Crew.fresh partWorld).run {} (Crew.barReported ++ [.turn 0]) = some c₁ ∧
        c₁.run {} Crew.askedOnceMore = some c ∧ c.Calls 1 ∧
        Crew.askedOnceMore = earlier ++ .turn j :: more ∧ c₁.run {} earlier = some u ∧
        u.Lifts j 1 ∧ ∃ op, .begin op ∈ earlier ∧ op.Lifts 1 := by
  constructor
  · obtain ⟨d₀, d₁, d, hbefore, ht, hworld, hground, hqueue, hrun, hcomplete, hboth, hlater,
        hcalls⟩ :
        ∃ d₀ d₁ d, (Desk.fresh partWorld).run {} [.begin (.change barredPart)] = some d₀ ∧
          d₀.task = [.review barredPart] ∧ d₀.state.world = partWorld ∧
          d₀.state.scheduler.flights.contains 1 = false ∧
          d₀.state.scheduler.queue.contains 1 = false ∧
          d₀.run {} (List.replicate 3 .turn) = some d₁ ∧ d₁.task = [] ∧
          (Desk.fresh partWorld).run {} Desk.barReported = some d₁ ∧
          d₁.run {} Desk.askedOnceMore = some d ∧ d.Calls 1 :=
      ⟨_, _, _, rfl, rfl, rfl, rfl, rfl, rfl, rfl, rfl, rfl, _, _, _, rfl, rfl⟩
    obtain ⟨earlier, more, u, hsplit, hu, hlifts⟩ :=
      (bar_holds {} partWorld barredPart).1 _ _ _ d₀ d₁ d hbefore
        (Desk.appliesBar_part ht hworld hground hrun hcomplete) hqueue
        (Desk.leavesBar_of_forall fun w hw => by simp [Desk.askedOnceMore] at hw) hlater hcalls
    exact ⟨d₁, d, earlier, more, u, hboth, hlater, hcalls, hsplit, hu, hlifts⟩
  · obtain ⟨c₀, c₁, c, hbefore, hi, hflat, hqueue, hground, hnotices, hworld, hmove, hboth, hlater,
        hcalls⟩ :
        ∃ c₀ c₁ c, (Crew.fresh partWorld).run {} Crew.barReported = some c₀ ∧
          c₀.tasks[0]? = some [.refuse barredPart] ∧ c₀.tasks.flatten = [.refuse barredPart] ∧
          c₀.state.scheduler.queue.contains 1 = false ∧
          c₀.state.scheduler.flights.contains 1 = false ∧ c₀.state.scheduler.notices = [] ∧
          c₀.state.world = partWorld ∧ c₀.move {} (.turn 0) = some c₁ ∧
          (Crew.fresh partWorld).run {} (Crew.barReported ++ [.turn 0]) = some c₁ ∧
          c₁.run {} Crew.askedOnceMore = some c ∧ c.Calls 1 :=
      ⟨_, _, _, rfl, rfl, rfl, rfl, rfl, rfl, rfl, rfl, rfl, rfl, _, .tail _ (.head _), rfl⟩
    have hidle : ¬ c₀.Pending 1 := by
      refine State.not_pending_of_absent hqueue hground fun e he => ?_
      rw [hflat] at he
      rw [List.mem_singleton.mp he]
      exact ⟨⟨rfl, rfl⟩, fun _ => rfl⟩
    have hquiet : c₀.Unannounced 1 := by
      refine ⟨fun e he => ?_, fun flags hn => ?_⟩
      · rw [hflat] at he
        rw [List.mem_singleton.mp he]
        exact fun hannounces => hannounces
      · rw [hnotices] at hn
        cases hn
    have hclosed : ∀ e ∈ c₀.tasks.flatten, ¬ e.Opens 1 := by
      intro e he
      rw [hflat] at he
      rw [List.mem_singleton.mp he]
      rintro (⟨a, ha, -⟩ | ⟨a, ha, -, hbar⟩ | ⟨u, f, hu, -⟩)
      · cases ha
      · rw [← Option.some.inj ha] at hbar
        cases hbar
      · cases hu
    obtain ⟨earlier, j, more, u, hsplit, hu, hlifts⟩ :=
      (bar_holds {} partWorld barredPart).2 _ _ c₀ c₁ c 0 [] hbefore hi rfl
        (by rw [hworld]; exact takes_partWorld) hidle hquiet hclosed hmove
        (Crew.leavesBar_of_forall fun w hw => by simp [Crew.askedOnceMore] at hw) hlater hcalls
    exact ⟨c₁, c, earlier, j, more, u, hboth, hlater, hcalls, hsplit, hu, hlifts⟩

/-! ### Where the gate is open -/

namespace Desk

/-- **A bar holds whatever came before it**, and whatever becomes of the record from outside. -/
def BarHolds (setup : Setup) (w : World) : Prop :=
  ∀ (before applying later : List Move) (d₀ d₁ d : Desk) (a : Attachment),
    (fresh w).run setup before = some d₀ → AppliesBar setup d₀ applying d₁ a →
      d₁.run setup later = some d → d.Calls a.id → ∃ op, .begin op ∈ later ∧ op.Lifts a.id

/-- The part has been asked for before its bar is reported. -/
def askedBefore : List Move :=
  [.begin (.change wishedPart), .turn, .begin (.change barredPart)]

/-- The part is without any flag, and no report tells of it. -/
def strippedWorld : World :=
  { partWorld with
    records := partWorld.records.putAttachment { wishedPart with flags := .none } }

/-- A round up to the moment at which the carrier is to be asked for the part, unasked. -/
def claimedUnasked : List Move :=
  .world strippedWorld :: .begin .round :: List.replicate 8 .turn

/-- **The bar does not hold for everybody**: a request that waits already is handed over all the
same. And for those who do not wait it holds only as long as the record keeps the bar: it is not
needed that the attachment is reported without it. -/
theorem not_bar_holds :
    ¬ BarHolds {} partWorld ∧
      ∃ d₀ d₁ d, (fresh partWorld).run {} [.begin (.change barredPart)] = some d₀ ∧
        AppliesBar {} d₀ (List.replicate 3 .turn) d₁ barredPart ∧
        d₀.state.scheduler.queue.contains 1 = false ∧ d₁.run {} claimedUnasked = some d ∧
        d.Calls 1 ∧ ∀ op, .begin op ∈ claimedUnasked → ¬ op.Lifts 1 := by
  constructor
  · intro hholds
    obtain ⟨op, hop, hlifts⟩ := hholds askedBefore (List.replicate 1 .turn)
      (.begin .round :: List.replicate 3 .turn) _ _ _ barredPart rfl
      (appliesBar_part rfl rfl rfl rfl rfl) rfl ⟨_, _, _, rfl, rfl⟩
    obtain rfl : op = .round := by simpa using hop
    exact hlifts
  · refine ⟨_, _, _, rfl, appliesBar_part rfl rfl rfl rfl rfl, rfl, rfl, ⟨_, _, _, rfl, rfl⟩, ?_⟩
    intro op hop hlifts
    obtain rfl : op = .round := by simpa [claimedUnasked] using hop
    exact hlifts

end Desk

end MailFetch

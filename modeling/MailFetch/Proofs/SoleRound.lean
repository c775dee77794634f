import MailFetch.Proofs.Limits
import MailFetch.Proofs.RetryBudget

/-! # A round by itself

A `Desk.Round` is a round of admissions that is held from its beginning to its end with nothing in
between but changes of the world: no operation begins, and no report comes while a request is handed
over. What it does to the requests is written down as its deeds (`Desk.deeds`).

* `Errand.home_stays`: a request at home stays there, unless its own look-up drops it or takes it
  off.
* `Errand.flight_stays`: a request in flight stays there, unless it is the one handed over.
* `Errand.live_of_round`: there is no new request but one that is claimed.
* `Desk.OnRound`: what holds all along such a round, as long as the books can be read.
* `Desk.Held`: what holds besides if the books were in order when it began. -/

namespace MailFetch

namespace Errand

variable {setup : Setup} {s : State} {e x : Errand} {r : Request} {id : Int}

/-! ### The errands of a round -/

/-- Whether an errand belongs to the way of a round through the queue. -/
def inLoop : Errand → Bool
  | beginRound | takeNext _ | screen _ _ | handOver _ (.queue _) | landed _ _ (.queue _) => true
  | _ => false

/-- Whether an errand belongs to a round. -/
def ofRound : Errand → Bool
  | beginRound | takeNext _ | screen _ _ | handOver _ _ | landed _ _ _ | putBack _ | discard _
  | endRound => true
  | e => e.scouts

/-- Whether an errand may stand behind another one in a round. -/
def closes : Errand → Bool
  | consider _ | endRound => true
  | _ => false

/-- Whether a report is heard. -/
def hears : Errand → Bool
  | hear _ => true
  | _ => false

/-- The request that is handed over. -/
def handing : Errand → Option Request
  | handOver r _ | landed r _ _ => some r
  | _ => none

/-- A round goes on with its own errands, or with a report. -/
theorem Leads.ofRound {l : List Errand} (hl : e.Leads l) (he : e.ofRound = true) (hx : x ∈ l) :
    x.ofRound = true ∨ ∃ report, x = hear report := by
  cases e with
  | budget account asker =>
    cases asker with
    | caller => cases he
    | round a rest => grind [Leads, LeadsOn, Errand.ofRound, scouts, Errand.hasCleared]
  | share account total asker =>
    cases asker with
    | caller => cases he
    | round a rest => grind [Leads, LeadsOn, Errand.ofRound, scouts, Errand.hasCleared]
  | _ => grind [Leads, Errand.ofRound, scouts, Errand.hasCleared]

/-- Behind the next errand of a round there is at most what closes it. -/
theorem Leads.closes {l : List Errand} (hl : e.Leads l) (he : e.ofRound = true)
    (hhear : ∀ report, hear report ∉ l) (hx : x ∈ l.tail) : x.closes = true := by
  cases e with
  | budget account asker =>
    cases asker with
    | caller => cases he
    | round a rest => grind [Leads, LeadsOn]
  | share account total asker =>
    cases asker with
    | caller => cases he
    | round a rest => grind [Leads, LeadsOn]
  | _ => grind [Leads, Errand.ofRound, scouts, Errand.hasCleared, Errand.closes]

/-- Once a round is through the queue, it does not come back to it. -/
theorem Leads.inLoop {l : List Errand} (hl : e.Leads l) (he : e.ofRound = true) (hx : x ∈ l)
    (h : x.inLoop = true) : e.inLoop = true := by
  cases e with
  | budget account asker => cases asker <;> grind [Leads, LeadsOn, Errand.inLoop]
  | share account total asker => cases asker <;> grind [Leads, LeadsOn, Errand.inLoop]
  | handOver r onward => cases onward <;> grind [Leads, Errand.inLoop]
  | landed r accepted onward => cases onward <;> grind [Leads, Errand.inLoop]
  | _ => grind [Leads, Errand.inLoop, Errand.ofRound, scouts, Errand.hasCleared]

theorem closes_carries_nothing (h : e.closes = true) :
    e.aside = [] ∧ e.settling = none ∧ e.handing = none ∧ e.inLoop = false := by
  cases e <;> first | exact ⟨rfl, rfl, rfl, rfl⟩ | cases h

/-- No errand of a round looks into the end of a transfer. -/
theorem settling_of_ofRound (h : e.ofRound = true) : e.settling = none := by
  cases e <;> first | rfl | cases h

/-- Who is handed over next was so before, or has just been taken off. -/
theorem Leads.handing {l : List Errand} (hl : e.Leads l) (hx : x ∈ l) (h : x.handing = some r) :
    (∃ onward, e = handOver r onward) ∨ ∃ onward, x = handOver r onward := by
  cases x with
  | handOver r' onward => exact .inr ⟨onward, by rw [Option.some.inj h]⟩
  | landed r' accepted onward => cases e <;> grind [Leads, LeadsOn, Errand.handing]
  | _ => cases h

/-! ### Who stays in flight -/

/-- Who has just been taken off was not in flight before. -/
theorem grounded_of_taken (hready : e.Ready setup s) {onward : Onward}
    (h : handOver r onward ∈ (e.perform setup s).next) :
    s.scheduler.flights.contains r.id = false := by
  rcases taken_off h with ⟨r₀, aside, rfl, -, rfl, -⟩ | ⟨a, rest, rfl, -, rfl⟩
  · exact hready.2.2
  · exact (creates_of_claim h).1.2.1

/-- Nobody is taken off for an attachment in flight. -/
theorem ne_of_taken (hready : e.Ready setup s) (h : s.scheduler.flights.get? id = some r)
    {y : Request} {onward : Onward} (hnext : handOver y onward ∈ (e.perform setup s).next) :
    id ≠ y.id := by
  rintro rfl
  have hground := grounded_of_taken hready hnext
  rw [Flights.contains_iff.mpr ⟨r, h⟩] at hground
  cases hground

/-- A start that the carrier refuses brings nobody down but the one handed over. -/
theorem get?_flights_landed {y : Request} {accepted : Bool} {onward : Onward} (hid : id ≠ y.id)
    (h : s.scheduler.flights.get? id = some r) :
    ((landed y accepted onward).perform setup s).state.scheduler.flights.get? id = some r := by
  rw [perform]
  unfold doLanded
  split_ifs
  · exact h
  · simp only [State.arm_flights, State.breakOff_scheduler, Scheduler.flights_breakOff]
    split_ifs
    · rw [Flights.get?_erase, if_neg hid]
      exact h
    · exact h

/-- **Who is in flight stays there in a round**, as it is, unless it is the one handed over. -/
theorem flight_stays (he : e.ofRound = true) (hready : e.Ready setup s)
    (h : s.scheduler.flights.get? id = some r) (hother : ∀ y, e.handing = some y → y.id ≠ id) :
    (e.perform setup s).state.scheduler.flights.get? id = some r := by
  by_cases htouch : e.touchesBooks = false
  · rw [(perform_frame setup s e).flights htouch]
    exact h
  cases e with
  | takeNext aside =>
    rw [perform, doTakeNext]
    split_ifs
    · exact h
    · split <;> exact h
  | screen y aside =>
    rcases flights_screen setup s y aside with heq | ⟨-, -, heq, hnext⟩
    · rw [perform, heq]
      exact h
    · have hid : id ≠ (y.dispatch s.world.now).id :=
        ne_of_taken hready h (by rw [perform, hnext]; exact List.mem_cons_self)
      rw [perform, heq, Flights.get?_insert, if_neg hid]
      exact h
  | landed y accepted onward => exact get?_flights_landed (hother y rfl).symm h
  | putBack aside => exact h
  | claim a rest =>
    rcases flights_claim setup s a rest with ⟨heq, -⟩ | ⟨-, heq, hnext⟩
    · rw [perform, heq]
      exact h
    · have hid := ne_of_taken hready h (by rw [perform, hnext]; exact List.mem_cons_self)
      rw [perform, heq, Flights.get?_insert, if_neg hid]
      exact h
  | review _ | hear _ | settle _ _ | askParent _ _ | tick _ => cases he
  | _ => exact absurd rfl htouch

/-- While the request handed over is another one, whoever is handed over next is another one. -/
theorem handing_ne (hready : e.Ready setup s) (h : s.scheduler.flights.get? id = some r)
    (hother : ∀ y, e.handing = some y → y.id ≠ id) :
    ∀ x ∈ (e.perform setup s).next, ∀ y, x.handing = some y → y.id ≠ id := by
  intro x hx y hy
  rcases (perform_leads setup s e).handing hx hy with ⟨onward, rfl⟩ | ⟨onward, rfl⟩
  · exact hother y rfl
  · exact (ne_of_taken hready h hx).symm

/-! ### Who stays at home -/

/-- Whoever waits still does when others are put back. -/
theorem get?_restore_of_waiting (f : Flights) (aside : List Request) {q : Queue}
    (h : q.index.get? id = some r) :
    (aside.foldl (fun q r => if f.contains r.id then q else q.push r) q).index.get? id =
      some r := by
  induction aside generalizing q with
  | nil => exact h
  | cons y rest ih =>
    rw [List.foldl_cons]
    refine ih ?_
    split_ifs
    · exact h
    · rw [Queue.get?_push, if_neg]
      · exact h
      · rintro ⟨rfl, -, hfree⟩
        rw [Queue.contains_iff.mpr ⟨r, h⟩] at hfree
        cases hfree

/-- **Whoever has been set aside is put back**, if nobody else stands in its place. -/
theorem get?_restore_of_mem {f : Flights} {aside : List Request} {q : Queue}
    (hdistinct : (aside.map (·.id)).Nodup)
    (hfree : ∀ y ∈ aside, 0 ≤ y.id ∧ q.contains y.id = false ∧ f.contains y.id = false)
    (h : r ∈ aside) :
    (aside.foldl (fun q r => if f.contains r.id then q else q.push r) q).index.get? r.id =
      some r := by
  induction aside generalizing q with
  | nil => cases h
  | cons y rest ih =>
    obtain ⟨hpos, hqueue, hflights⟩ := hfree y List.mem_cons_self
    rw [List.map_cons, List.nodup_cons] at hdistinct
    rw [List.foldl_cons, if_neg (by rw [hflights]; nofun)]
    rcases List.mem_cons.mp h with rfl | hrest
    · refine get?_restore_of_waiting f rest ?_
      rw [Queue.get?_push, if_pos ⟨rfl, hpos, hqueue⟩]
    · refine ih hdistinct.2 (fun z hz => ?_) hrest
      obtain ⟨hpos', hqueue', hflights'⟩ := hfree z (.tail _ hz)
      refine ⟨hpos', ?_, hflights'⟩
      rw [Queue.contains_eq_false_iff, Queue.get?_push, if_neg]
      · exact Queue.contains_eq_false_iff.mp hqueue'
      · rintro ⟨hid, -⟩
        exact hdistinct.1 (hid ▸ List.mem_map_of_mem hz)

/-- Taking the next request from the queue leaves the others there. -/
theorem waiting_stays_takeNext (hmatched : s.scheduler.queue.Matched) {aside : List Request}
    (hr : s.scheduler.queue.index.get? r.id = some r) :
    ((takeNext aside).perform setup s).state.AtHome ((takeNext aside).perform setup s).next r := by
  rw [perform, doTakeNext]
  split_ifs
  · exact .inl hr
  rcases Queue.pop_cases hmatched with ⟨hpop, -⟩ | ⟨y, q, hpop, -, hy, hget⟩
  · rw [hpop]
    exact .inl hr
  rw [hpop]
  by_cases hid : r.id = y.id
  · rw [hid, hy] at hr
    obtain rfl := Option.some.inj hr
    right
    dsimp only
    split_ifs
    · exact ⟨_, List.mem_cons_self, List.mem_cons_self⟩
    · exact ⟨_, List.mem_cons_self, List.mem_append_right _ List.mem_cons_self⟩
  · left
    dsimp only
    rw [hget, if_neg hid]
    exact hr

/-- A start that the carrier refuses leaves the queue as it is, but for the one handed over. -/
theorem waiting_stays_landed (h : s.InOrder setup) {y : Request} {accepted : Bool}
    {onward : Onward} (hr : s.scheduler.queue.index.get? r.id = some r) :
    ((landed y accepted onward).perform setup s).state.scheduler.queue.index.get? r.id =
      some r := by
  rw [perform]
  unfold doLanded
  split_ifs
  · exact hr
  simp only [State.arm_queue, State.breakOff_scheduler]
  by_cases hid : r.id = y.id
  · have hground := Tidy.apart h r.id (Queue.contains_iff.mpr ⟨r, hr⟩)
    rw [hid, Flights.contains_eq_false_iff] at hground
    rw [Scheduler.breakOff_of_none _ _ _ hground]
    exact hr
  · rw [Scheduler.get?_breakOff _ _ _ (Tidy.filed h) hid]
    exact hr

/-- A waiting request goes on to wait, or the round takes it from the queue. -/
theorem waiting_stays (h : s.InOrder setup) (he : e.ofRound = true)
    (hr : s.scheduler.queue.index.get? r.id = some r) :
    (e.perform setup s).state.AtHome (e.perform setup s).next r := by
  by_cases htouch : e.touchesBooks = false
  · left
    rw [(perform_frame setup s e).queue htouch]
    exact hr
  cases e with
  | takeNext aside => exact waiting_stays_takeNext (Tidy.matched h) hr
  | screen y aside =>
    left
    rw [perform, doScreen]
    split
    · exact hr
    · exact hr
    · dsimp only
      split_ifs <;> exact hr
  | landed y accepted onward => exact .inl (waiting_stays_landed h hr)
  | putBack aside => exact .inl (get?_restore_of_waiting _ aside hr)
  | claim a rest =>
    left
    rw [perform, doClaim]
    split_ifs <;> exact hr
  | review _ | hear _ | settle _ _ | askParent _ _ | tick _ => cases he
  | _ => exact absurd rfl htouch

/-- The look-up of a request sets it aside, unless it drops it or takes it off. -/
theorem screened_stays (aside : List Request) :
    ((screen r aside).perform setup s).state.AtHome ((screen r aside).perform setup s).next r ∨
      (s.world.attachment r.id = .ok none ∨ ((screen r aside).perform setup s).next =
        [handOver (r.dispatch s.world.now) (.queue aside)]) := by
  rw [perform]
  unfold doScreen
  split
  next hgone => exact .inr (.inl hgone)
  · exact .inl (.inr ⟨_, List.mem_cons_self, List.mem_append_right _ List.mem_cons_self⟩)
  · dsimp only
    split_ifs
    · exact .inl (.inr ⟨_, List.mem_cons_self, List.mem_append_right _ List.mem_cons_self⟩)
    · exact .inl (.inr ⟨_, List.mem_cons_self, List.mem_append_right _ List.mem_cons_self⟩)
    · exact .inr (.inr rfl)

/-- A request that is set aside stays so or is put back, unless its own look-up drops it or takes it
off. -/
theorem aside_stays (hready : e.Ready setup s) (hc : Carried s [e]) (he : e.ofRound = true)
    (hr : r ∈ e.aside) :
    (e.perform setup s).state.AtHome (e.perform setup s).next r ∨
      ∃ aside, e = screen r aside ∧ (s.world.attachment r.id = .ok none ∨
        (e.perform setup s).next = [handOver (r.dispatch s.world.now) (.queue aside)]) := by
  have hl := perform_leads setup s e
  cases e with
  | takeNext aside =>
    refine .inl (.inr ?_)
    rcases hl with hnext | ⟨y, hnext | hnext⟩ <;> rw [hnext]
    · exact ⟨_, List.mem_cons_self, hr⟩
    · exact ⟨_, List.mem_cons_self, .tail _ hr⟩
    · exact ⟨_, List.mem_cons_self, List.mem_append_left _ hr⟩
  | screen y aside =>
    rcases List.mem_cons.mp hr with rfl | haside
    · exact (screened_stays aside).imp_right fun hleaves => ⟨aside, rfl, hleaves⟩
    · refine .inl (.inr ?_)
      rcases hl with hnext | hnext | hnext | ⟨now, hnext⟩ <;> rw [hnext]
      · exact ⟨_, List.mem_cons_self, haside⟩
      · exact ⟨_, List.mem_cons_self, List.mem_append_left _ haside⟩
      · exact ⟨_, List.mem_cons_self, List.mem_append_left _ haside⟩
      · exact ⟨_, List.mem_cons_self, haside⟩
  | handOver y onward =>
    refine .inl (.inr ?_)
    obtain ⟨accepted, hnext | ⟨report, hnext⟩⟩ := hl <;> rw [hnext]
    · exact ⟨_, List.mem_cons_self, hr⟩
    · exact ⟨_, .tail _ List.mem_cons_self, hr⟩
  | landed y accepted onward =>
    refine .inl (.inr ?_)
    rcases hl with ⟨rfl, -⟩ | ⟨aside, rfl, hnext | hnext⟩
    · cases hr
    · rw [hnext]
      exact ⟨_, List.mem_cons_self, hr⟩
    · rw [hnext]
      exact ⟨_, List.mem_cons_self, hr⟩
  | putBack aside =>
    refine .inl (.inl (get?_restore_of_mem ?_ (fun y hy => ?_) hr))
    · have hnodup := hc.nodup
      rwa [inHand_of_keeps rfl rfl] at hnodup
    · have hun : s.Unbooked y.id := hc.of_mem (mem_inHand_of_aside hy)
      exact ⟨(hready y hy).id_nonneg, hun.1, hun.2⟩
  | _ => cases hr

/-- **A request at home stays there in a round**, unless its own look-up drops it or takes it
off. -/
theorem home_stays (h : s.InOrder setup) (hready : e.Ready setup s) (hc : Carried s [e])
    (he : e.ofRound = true) (hr : s.AtHome [e] r) :
    (e.perform setup s).state.AtHome (e.perform setup s).next r ∨
      ∃ aside, e = screen r aside ∧ (s.world.attachment r.id = .ok none ∨
        (e.perform setup s).next = [handOver (r.dispatch s.world.now) (.queue aside)]) := by
  rcases hr with hwaits | ⟨x, hx, haside⟩
  · exact .inl (waiting_stays h he hwaits)
  · rw [List.mem_singleton.mp hx] at haside
    exact aside_stays hready hc he haside

/-! ### Who is new -/

/-- **There is no new request in a round** but one that is claimed. -/
theorem live_of_round {others : List Errand} (hq : s.scheduler.queue.Matched)
    (hfiled : s.scheduler.flights.Filed) (he : e.ofRound = true)
    (h : (e.perform setup s).state.Live ((e.perform setup s).next ++ others) id) :
    s.Live (e :: others) id ∨ ∃ r, handOver r .done ∈ (e.perform setup s).next ∧ r.id = id := by
  refine (perform_live hq hfiled h).imp_right fun hnew => ?_
  cases e with
  | claim a rest =>
    obtain ⟨rfl, hfree, hroom⟩ := hnew
    refine ⟨(a.request .background s.world.now).dispatch s.world.now, ?_, rfl⟩
    rw [perform, doClaim, hfree, hroom]
    exact List.mem_cons_self
  | review a => cases he
  | _ => exact hnew.elim

end Errand

/-! ### Deeds -/

/-- **What a round does to a request.** -/
inductive Deed
  /-- The request was dropped, for its own look-up answered that the record is gone. -/
  | dropped (r : Request)
  /-- The request, one from the queue, was handed over to the carrier, which took it or did not. -/
  | handed (r : Request) (accepted : Bool)
  /-- The request, one that nobody asked for, was handed over. -/
  | claimed (r : Request) (accepted : Bool)
deriving DecidableEq

/-- What an errand does to a request. -/
def Errand.deeds (s : State) : Errand → List Deed
  | screen r _ =>
    match s.world.attachment r.id with
    | .ok none => [.dropped r]
    | _ => []
  | landed r accepted (.queue _) => [.handed r accepted]
  | landed r accepted .done => [.claimed r accepted]
  | _ => []

/-- Whether an operation begins. -/
def Move.begins : Move → Bool
  | .begin _ => true
  | _ => false

namespace Desk

/-- The deeds of a move. -/
def deeds (d : Desk) : Move → List Deed
  | .turn =>
    match d.task with
    | e :: _ => e.deeds d.state
    | [] => []
  | _ => []

/-- A move that begins no operation and after which no report is there to be heard. -/
def Undisturbed (setup : Setup) (d : Desk) (m : Move) : Prop :=
  (∀ op, m ≠ .begin op) ∧
    ∀ d', d.move setup m = some d' → ∀ report, .hear report ∉ d'.task

theorem undisturbed_iff {setup : Setup} {d : Desk} {m : Move} : d.Undisturbed setup m ↔
    m.begins = false ∧
      (d.move setup m).all (fun d' => d'.task.all fun e => !e.hears) = true := by
  have hbegins : (∀ op, m ≠ .begin op) ↔ m.begins = false := by
    cases m with
    | begin op => exact ⟨fun h => absurd rfl (h op), fun h => by cases h⟩
    | _ => exact ⟨fun _ => rfl, fun _ _ h => by cases h⟩
  have hhears (es : List Errand) : (∀ report, .hear report ∉ es) ↔
      es.all (fun e => !e.hears) = true := by
    rw [List.all_eq_true]
    constructor
    · intro h e he
      cases e with
      | hear report => exact absurd he (h report)
      | _ => rfl
    · intro h report hmem
      cases h _ hmem
  rw [Undisturbed, hbegins]
  cases d.move setup m with
  | none => simp
  | some d' => simp [hhears]

instance (setup : Setup) (d : Desk) (m : Move) : Decidable (d.Undisturbed setup m) :=
  decidable_of_iff' _ undisturbed_iff

/-- **A round by itself**, from the state in which it begins to the desk at which it is over:
nothing happens in between but its own errands and changes of the world. -/
structure Round (setup : Setup) (s : State) (moves : List Move) (d : Desk) : Prop where
  run : run setup ⟨s, [.beginRound]⟩ moves = some d
  alone : Throughout (move setup) (Undisturbed setup) ⟨s, [.beginRound]⟩ moves
  done : d.task = []

/-- The deeds of a round, the latest first. -/
def roundDeeds (setup : Setup) (s : State) (moves : List Move) : List Deed :=
  recorded (move setup) deeds ⟨s, [.beginRound]⟩ moves

variable {setup : Setup} {s : State} {d d' : Desk}

/-- **What holds all along a round by itself** that began in the state `s`, as long as the books
can be read. -/
structure OnRound (s : State) (d : Desk) : Prop where
  matched : d.state.scheduler.queue.Matched
  filed : d.state.scheduler.flights.Filed
  course : ∀ e ∈ d.task, e.ofRound = true
  behind : ∀ e ∈ d.task.tail, e.closes = true
  later : s.world.now ≤ d.state.world.now

theorem onRound_begin (hq : s.scheduler.queue.Matched) (hfiled : s.scheduler.flights.Filed) :
    OnRound s ⟨s, [.beginRound]⟩ where
  matched := hq
  filed := hfiled
  course := List.forall_mem_singleton.mpr rfl
  behind := List.forall_mem_nil _
  later := Nat.le_refl _

/-- **What a move of a round can be**: the world changes, or the round does its next errand, and all
that stands behind this one is what closes the round. -/
theorem OnRound.move_cases {m : Move} (hd : d.OnRound s) (hm : d.Undisturbed setup m)
    (h : d.move setup m = some d') :
    (∃ w, m = .world w ∧ d.state.world.now ≤ w.now ∧
        d' = { d with state := d.state.withWorld w }) ∨
      ∃ e rest, m = .turn ∧ d = ⟨d.state, e :: rest⟩ ∧
        d' = ⟨(e.perform setup d.state).state, (e.perform setup d.state).next ++ rest⟩ := by
  rcases Desk.move_cases h with ⟨w, rfl, hle, rfl⟩ | ⟨op, rfl, -⟩ | ⟨e, rest, rfl, ht, rfl⟩
  · exact .inl ⟨w, rfl, hle, rfl⟩
  · exact absurd rfl (hm.1 op)
  · refine .inr ⟨e, rest, rfl, by rw [← ht], ?_⟩
    have hcourse := hd.course e (by rw [ht]; exact List.mem_cons_self)
    rw [Errand.left_perform setup d.state rest]
    cases e <;> first | rfl | cases hcourse

theorem onRound_move {m : Move} (hd : d.OnRound s) (hm : d.Undisturbed setup m)
    (h : d.move setup m = some d') : d'.OnRound s := by
  have hlater := Nat.le_trans hd.later (now_le_of_move h)
  have hhear := hm.2 d' h
  rcases hd.move_cases hm h with ⟨w, rfl, -, rfl⟩ | ⟨e, rest, rfl, ht, rfl⟩
  · exact ⟨hd.matched, hd.filed, hd.course, hd.behind, hlater⟩
  generalize d.state = t at *
  subst ht
  have he : e.ofRound = true := hd.course e List.mem_cons_self
  have hleads := Errand.perform_leads setup t e
  have hnext : ∀ report, .hear report ∉ (e.perform setup t).next := fun report hmem =>
    hhear report (List.mem_append_left _ hmem)
  refine ⟨Errand.perform_matched setup e hd.matched, Errand.perform_filed hd.filed, fun x hx => ?_,
    fun x hx => ?_, hlater⟩
  · rcases List.mem_append.mp hx with hx | hx
    · refine (hleads.ofRound he hx).resolve_right ?_
      rintro ⟨report, rfl⟩
      exact hnext report hx
    · exact hd.course x (.tail _ hx)
  · cases hl : (e.perform setup t).next with
    | nil =>
      rw [hl] at hx
      exact hd.behind x (List.mem_of_mem_tail hx)
    | cons y l =>
      rw [hl] at hx hleads hnext
      rcases List.mem_append.mp hx with hx | hx
      · exact hleads.closes he hnext hx
      · exact hd.behind x hx

/-- **What holds all along a round by itself** that began in the state `s`, if the books were in
order there. -/
structure Held (setup : Setup) (s : State) (d : Desk) : Prop extends OnRound s d where
  settled : d.Settled setup
  handing : ∀ e ∈ d.task, ∀ r, e.handing = some r →
    d.state.scheduler.flights.get? r.id = some r
  logged : s.log <:+ d.state.log

theorem held_begin (h : s.InOrder setup) : Held setup s ⟨s, [.beginRound]⟩ where
  toOnRound := onRound_begin (Tidy.matched h) (Tidy.filed h)
  settled := by
    have hready : Errand.beginRound.Ready setup s := trivial
    have hclear : Errand.beginRound.Clear s := trivial
    have hcarries : ∀ e ∈ [Errand.beginRound], e.inHand = [] := List.forall_mem_singleton.mpr rfl
    exact ⟨⟨h, Errand.inLine_singleton hready⟩, Errand.inLine_singleton hclear,
      Errand.trailing_of_empty hcarries, Errand.carried_of_empty hcarries⟩
  handing e he r hr := by
    rw [List.mem_singleton.mp he] at hr
    cases hr
  logged := List.suffix_rfl

theorem held_move {m : Move} (hd : d.Held setup s) (hm : d.Undisturbed setup m)
    (h : d.move setup m = some d') : d'.Held setup s := by
  have hsettled := settled_move hd.settled h
  have honRound := onRound_move hd.toOnRound hm h
  rcases hd.move_cases hm h with ⟨w, rfl, -, rfl⟩ | ⟨e, rest, rfl, ht, rfl⟩
  · exact ⟨honRound, hsettled, hd.handing, hd.logged⟩
  generalize d.state = t at *
  subst ht
  refine ⟨honRound, hsettled, fun x hx r hr => ?_,
    hd.logged.trans (Errand.suffix_perform setup t e)⟩
  rcases List.mem_append.mp hx with hx | hx
  · rcases (Errand.perform_leads setup t e).handing hx hr with ⟨onward, rfl⟩ | ⟨onward, rfl⟩
    · have hflies := hd.handing _ List.mem_cons_self r rfl
      rwa [(Errand.perform_frame setup t _).flights rfl]
    · exact (Errand.flying_of_taken hx).1
  · rw [(Errand.closes_carries_nothing (hd.behind x hx)).2.2.1] at hr
    cases hr

/-! ### The errand whose turn it is -/

namespace OnRound

variable {t : State} {e : Errand} {rest : List Errand} {r : Request}

theorem ofRound (hd : OnRound s ⟨t, e :: rest⟩) : e.ofRound = true :=
  hd.course e List.mem_cons_self

/-- Nothing is at home behind the errand whose turn it is. -/
theorem atHome (hd : OnRound s ⟨t, e :: rest⟩) (h : t.AtHome (e :: rest) r) : t.AtHome [e] r := by
  refine h.of_mem fun x hx => ?_
  rcases List.mem_cons.mp hx with rfl | hx
  · exact .inl (List.mem_singleton_self _)
  · exact .inr (Errand.closes_carries_nothing (hd.behind x hx)).1

end OnRound

namespace Held

variable {t : State} {e : Errand} {rest : List Errand} {r : Request}

theorem books (hd : Held setup s ⟨t, e :: rest⟩) : t.InOrder setup := hd.settled.sound.books

theorem ready (hd : Held setup s ⟨t, e :: rest⟩) : e.Ready setup t := hd.settled.sound.ready.1

theorem carried (hd : Held setup s ⟨t, e :: rest⟩) : Errand.Carried t [e] := by
  have hall := hd.settled.apart.carried
  obtain ⟨hself, -, -⟩ := List.nodup_append'.mp (List.flatMap_cons ▸ hall.distinct)
  exact Errand.carried_singleton hself fun id hid =>
    hall.unbooked id (List.mem_append_left _ hid)

/-- Nothing is carried behind the errand whose turn it is. -/
theorem inHand_behind (hd : Held setup s ⟨t, e :: rest⟩) : ∀ x ∈ rest, x.inHand = [] := by
  intro x hx
  obtain ⟨haside, hsettling, -⟩ := Errand.closes_carries_nothing (hd.behind x hx)
  exact Errand.inHand_of_keeps haside hsettling

/-- A request at home is nobody else than the one of its attachment that the round keeps. -/
theorem eq_of_aside (hd : Held setup s ⟨t, e :: rest⟩) (h : t.AtHome (e :: rest) r)
    {y : Request} (hy : y ∈ e.aside) (hid : y.id = r.id) : y = r := by
  rcases hd.atHome h with hwaits | ⟨x, hx, hr⟩
  · have hun := (hd.carried.of_mem (Errand.mem_inHand_of_aside hy)).1
    rw [hid, Queue.contains_iff.mpr ⟨r, hwaits⟩] at hun
    cases hun
  · rw [List.mem_singleton.mp hx] at hr
    have hnodup := hd.carried.nodup
    rw [Errand.inHand_of_keeps rfl (Errand.settling_of_ofRound hd.ofRound)] at hnodup
    exact List.inj_on_of_nodup_map hnodup hy hr hid

end Held

theorem Round.held {moves : List Move} (h : Round setup s moves d) (hs : s.InOrder setup) :
    d.Held setup s :=
  follow_keeps_of (P := fun u => u.Held setup s) (fun _ _ _ hu hm hmove => held_move hu hm hmove)
    (held_begin hs) h.alone h.run

/-- When the round is over, the books are in order. -/
theorem Round.inOrder {moves : List Move} (h : Round setup s moves d) (hs : s.InOrder setup) :
    d.state.InOrder setup :=
  (h.held hs).settled.sound.books

/-- **What every turn of a round keeps of the state, the errands and the deeds**, and every change
of the world, holds all along the round. For this it may be used of every desk on the way that it is
on the round and satisfies `P`, if all undisturbed moves keep this. -/
theorem keeps_along {moves : List Move} {P : Desk → Prop} {Q : Desk → Move → Prop}
    {I : State → List Errand → List Deed → Prop}
    (hrun : run setup ⟨s, [.beginRound]⟩ moves = some d)
    (halone : Throughout (move setup) (Undisturbed setup) ⟨s, [.beginRound]⟩ moves)
    (hon : ∀ u, P u → OnRound s u) (hfirst : P ⟨s, [.beginRound]⟩)
    (hmove : ∀ u m u', P u → u.Undisturbed setup m → u.move setup m = some u' → P u')
    (hQ : Throughout (move setup) Q ⟨s, [.beginRound]⟩ moves) (hbegin : I s [.beginRound] [])
    (hworld : ∀ t es l w, I t es l → t.world.now ≤ w.now → I (t.withWorld w) es l)
    (hturn : ∀ t e rest l, P ⟨t, e :: rest⟩ → Q ⟨t, e :: rest⟩ .turn →
      P ⟨(e.perform setup t).state, (e.perform setup t).next ++ rest⟩ → I t (e :: rest) l →
        I (e.perform setup t).state ((e.perform setup t).next ++ rest) (e.deeds t ++ l)) :
    P d ∧ I d.state d.task (roundDeeds setup s moves) := by
  have hboth : Throughout (move setup) (fun u m => u.Undisturbed setup m ∧ Q u m)
      ⟨s, [.beginRound]⟩ moves := fun earlier m later t hms ht =>
    ⟨halone earlier m later t hms ht, hQ earlier m later t hms ht⟩
  refine follow_records_of (I := fun u l => P u ∧ I u.state u.task l)
    (fun u m u' l hu hm hm' => ?_) ⟨hfirst, hbegin⟩ hboth hrun
  have hafter := hmove u m u' hu.1 hm.1 hm'
  refine ⟨hafter, ?_⟩
  rcases (hon u hu.1).move_cases hm.1 hm' with ⟨w, rfl, hle, rfl⟩ | ⟨e, rest, rfl, ht, rfl⟩
  · exact hworld _ _ l w hu.2 hle
  · obtain ⟨t, task⟩ := u
    obtain rfl := (Desk.mk.inj ht).2
    exact hturn t e rest l hu.1 hm.2 hafter hu.2

/-- What holds all along a round holds when the round is over. -/
theorem Round.keeps_of {moves : List Move} {P : Desk → Prop} {Q : Desk → Move → Prop}
    {I : State → List Errand → List Deed → Prop} (h : Round setup s moves d)
    (hon : ∀ u, P u → OnRound s u) (hfirst : P ⟨s, [.beginRound]⟩)
    (hmove : ∀ u m u', P u → u.Undisturbed setup m → u.move setup m = some u' → P u')
    (hQ : Throughout (move setup) Q ⟨s, [.beginRound]⟩ moves) (hbegin : I s [.beginRound] [])
    (hworld : ∀ t es l w, I t es l → t.world.now ≤ w.now → I (t.withWorld w) es l)
    (hturn : ∀ t e rest l, P ⟨t, e :: rest⟩ → Q ⟨t, e :: rest⟩ .turn →
      P ⟨(e.perform setup t).state, (e.perform setup t).next ++ rest⟩ → I t (e :: rest) l →
        I (e.perform setup t).state ((e.perform setup t).next ++ rest) (e.deeds t ++ l)) :
    I d.state [] (roundDeeds setup s moves) := by
  rw [← h.done]
  exact (keeps_along h.run h.alone hon hfirst hmove hQ hbegin hworld hturn).2

/-- The same for a round from books that are in order. -/
theorem Round.keeps {moves : List Move} {I : State → List Errand → List Deed → Prop}
    (h : Round setup s moves d) (hs : s.InOrder setup) (hbegin : I s [.beginRound] [])
    (hworld : ∀ t es l w, I t es l → t.world.now ≤ w.now → I (t.withWorld w) es l)
    (hturn : ∀ t e rest l, Held setup s ⟨t, e :: rest⟩ → I t (e :: rest) l →
      I (e.perform setup t).state ((e.perform setup t).next ++ rest) (e.deeds t ++ l)) :
    I d.state [] (roundDeeds setup s moves) :=
  h.keeps_of (P := fun u => u.Held setup s) (Q := fun _ _ => True) (fun _ => Held.toOnRound)
    (held_begin hs) (fun _ _ _ => held_move) (fun _ _ _ _ _ _ => trivial) hbegin hworld
    fun t e rest l hd _ _ => hturn t e rest l hd

end Desk

end MailFetch

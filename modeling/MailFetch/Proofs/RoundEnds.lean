import MailFetch.Proofs.Limits
import MailFetch.Proofs.TriesLeft

/-! # A round comes to an end

While a round is on its way through the queue, transfers may end and put their requests back
there, so the queue need not become any shorter. Still the round ends (`Crew.round_ends`), however
the tasks of a crew are interleaved and whatever reports come: every request that is taken from the
queue makes what there is lighter, and nothing makes it heavier.

* `Errand.weight_turn`: what a turn takes from the queue comes off the weight.
* `Errand.depth_turn`: between two requests that are taken from the queue, a round and the reports
  that it hears have only so many errands. -/

namespace MailFetch

namespace Errand

/-! ### What a turn weighs -/

/-- What an errand weighs: the request that it carries, which has left the queue and is not in
flight. Requests that are set aside do not count; the round does not come back to them. -/
def weight (limits : Settings) : Errand → Nat
  | screen r _ | conclude r _ | askParent r _ => r.flyingWeight limits
  | _ => 0

/-- The requests that an errand takes from the queue. -/
def pops (setup : Setup) (s : State) : Errand → List Request
  | takeNext _ =>
    if s.scheduler.stopped || !s.scheduler.hasRoom setup.settings then []
    else s.scheduler.queue.pop.1.toList
  | _ => []

/-- Whether an errand may bring requests into the books that did not count before: new ones, or
those that have been set aside. -/
def recruits : Errand → Bool
  | review _ | putBack _ | claim _ _ => true
  | _ => false

/-- Nobody who is there has more retries than allowed. -/
def WithinRetries (setup : Setup) (s : State) (es : List Errand) : Prop :=
  ∀ r, s.AtHome es r ∨ s.Abroad es r → r.retries ≤ setup.settings.maxRetries

theorem WithinRetries.of_mem {setup : Setup} {s : State} {es es' : List Errand}
    (h : WithinRetries setup s es)
    (hsub : ∀ e ∈ es', e ∈ es ∨ e.aside = [] ∧ e.settling = none) : WithinRetries setup s es' :=
  fun r hr => h r (hr.imp (·.of_mem fun e he => (hsub e he).imp_right And.left)
    (·.of_mem fun e he => (hsub e he).imp_right And.right))

end Errand

namespace State

@[simp] theorem weight_ring (s : State) (limits : Settings) :
    s.ring.scheduler.weight limits = s.scheduler.weight limits := rfl

@[simp] theorem weight_arm (s : State) (setup : Setup) (delay : Nat) (limits : Settings) :
    (s.arm setup delay).scheduler.weight limits = s.scheduler.weight limits := rfl

end State

/-- What a turn leaves weighs, in the books and in the errands that come next. -/
def Turn.weight (limits : Settings) (t : Turn) : Nat :=
  t.state.scheduler.weight limits + (t.next.map (Errand.weight limits)).sum

namespace Errand

section Weight

variable {setup : Setup} {s : State} {e : Errand} {r : Request}

theorem weight_of_same {s s' : State} (limits : Settings)
    (hq : s'.scheduler.queue = s.scheduler.queue)
    (hf : s'.scheduler.flights = s.scheduler.flights) :
    s'.scheduler.weight limits = s.scheduler.weight limits := by
  rw [Scheduler.weight, hq, hf]
  rfl

theorem sum_weight_of_forall {limits : Settings} {l : List Errand}
    (h : ∀ x ∈ l, x.weight limits = 0) : (l.map (weight limits)).sum = 0 := by
  induction l with
  | nil => rfl
  | cons x rest ih =>
    rw [List.map_cons, List.sum_cons, h x List.mem_cons_self, ih fun y hy => h y (.tail _ hy)]

/-- An errand that leaves the books alone leads to nothing heavier. -/
theorem Leads.weight_le {l : List Errand} (hl : e.Leads l) (he : e.touchesBooks = false)
    (limits : Settings) : (l.map (Errand.weight limits)).sum ≤ e.weight limits := by
  cases e with
  | conclude r status =>
    rcases hl with rfl | ⟨record, rfl | rfl | rfl⟩
    · exact Nat.zero_le _
    · exact Nat.le_refl _
    · exact Nat.zero_le _
    · exact Nat.zero_le _
  | _ =>
    have hnone : ∀ x ∈ l, x.weight limits = 0 := by
      grind [Leads, LeadsOn, Errand.weight, touchesBooks]
    rw [sum_weight_of_forall hnone]
    exact Nat.zero_le _

/-- **Whoever is taken from the queue** becomes lighter, whether looked up next or set aside. -/
theorem weight_takeNext {aside : List Request} (hq : s.scheduler.queue.Matched)
    (hlive : WithinRetries setup s [takeNext aside]) :
    ((takeNext aside).pops setup s).length + (doTakeNext setup s aside).weight setup.settings ≤
      s.scheduler.weight setup.settings := by
  unfold pops doTakeNext
  split_ifs
  · exact Nat.le_of_eq (Nat.zero_add _)
  rcases Queue.pop_cases hq with ⟨hpop, -⟩ | ⟨r, q, hpop, -, hr, -⟩
  · rw [hpop]
    exact Nat.le_of_eq (Nat.zero_add _)
  · have hweight := Queue.weight_pop setup.settings hpop
    have hlt := Request.flyingWeight_lt (hlive r (.inl (.inl hr)))
    rw [hpop]
    unfold Turn.weight Scheduler.weight
    dsimp only
    split_ifs
    · simp only [Option.toList_some, List.length_singleton, List.map_cons, List.map_nil,
        List.sum_cons, List.sum_nil, weight]
      omega
    · simp only [Option.toList_some, List.length_singleton, List.map_cons, List.map_nil,
        List.sum_cons, List.sum_nil, weight]
      omega

/-- Whoever is taken off weighs in the air what they weighed on the way there. -/
theorem weight_screen (aside : List Request) :
    (doScreen setup s r aside).weight setup.settings ≤
      s.scheduler.weight setup.settings + r.flyingWeight setup.settings := by
  unfold doScreen
  split
  · exact Nat.le_add_right _ _
  · exact Nat.le_add_right _ _
  · dsimp only
    split_ifs
    · exact Nat.le_add_right _ _
    · exact Nat.le_add_right _ _
    · have hinsert := s.scheduler.flights.weight_insert_le setup.settings (r.dispatch s.world.now)
      have hsame : (r.dispatch s.world.now).flyingWeight setup.settings =
          r.flyingWeight setup.settings := rfl
      unfold Turn.weight Scheduler.weight Scheduler.takeOff
      simp only [List.map_cons, List.map_nil, List.sum_cons, List.sum_nil, weight]
      omega

theorem weight_landed (hmax : setup.settings.maxRetries.toNat + 1 < UInt32.size) {accepted : Bool}
    {onward : Onward} (hfiled : s.scheduler.flights.Filed)
    (hlive : WithinRetries setup s [landed r accepted onward]) :
    (doLanded setup s r accepted onward).weight setup.settings ≤
      s.scheduler.weight setup.settings := by
  have hnext : ∀ x ∈ (doLanded setup s r accepted onward).next, x.weight setup.settings = 0 := by
    have hleads := leads_landed setup s r accepted onward
    rcases hleads with ⟨-, hnext⟩ | ⟨aside, -, hnext | hnext⟩ <;> rw [hnext]
    · exact List.forall_mem_nil _
    · exact List.forall_mem_singleton.mpr rfl
    · exact List.forall_mem_singleton.mpr rfl
  rw [Turn.weight, sum_weight_of_forall hnext, Nat.add_zero]
  unfold doLanded
  split_ifs
  · exact Nat.le_refl _
  · rw [State.weight_arm, State.breakOff_scheduler]
    refine Scheduler.weight_breakOff_le hmax _ _ fun x hx => hlive x (.inr (.inl ?_))
    rw [hfiled _ _ hx]
    exact hx

theorem weight_hear {report : Report} (hfiled : s.scheduler.flights.Filed) :
    (doHear s report).weight setup.settings ≤ s.scheduler.weight setup.settings := by
  unfold doHear
  split
  · exact Nat.le_refl _
  next r hr =>
    have hid : (r.heard s.world.now report.status report.percent).id = report.id := by
      rw [Request.id_heard]
      exact hfiled _ _ hr
    have hsame := Flights.weight_insert_of_eq setup.settings (by rw [hid]; exact hr)
      (Request.flyingWeight_heard (r := r) s.world.now report.status report.percent)
    unfold Turn.weight Scheduler.weight
    dsimp only
    rw [hsame]
    split_ifs <;> exact Nat.le_refl _

theorem weight_settle (hmax : setup.settings.maxRetries.toNat + 1 < UInt32.size) {id : Int}
    {status : Status} (hfiled : s.scheduler.flights.Filed)
    (hlive : WithinRetries setup s [settle id status]) :
    (doSettle setup s id status).weight setup.settings ≤ s.scheduler.weight setup.settings := by
  unfold doSettle
  split
  · exact Nat.le_refl _
  next r hr =>
    have hle : r.land.retries ≤ setup.settings.maxRetries := by
      refine hlive r (.inr (.inl ?_))
      rw [hfiled _ _ hr]
      exact hr
    have herase := Flights.weight_erase setup.settings hr
    have hland : r.land.flyingWeight setup.settings = r.flyingWeight setup.settings := rfl
    dsimp only
    split_ifs
    · have hlt := Scheduler.weight_retryAfterError_lt
        (s := { s.scheduler with
          flights := s.scheduler.flights.erase id
          failures := s.scheduler.failures.settle id (status == Status.success) })
        hmax s.world.now hle
      rcases hretry : Scheduler.retryAfterError _ setup.settings s.world.now r.land with
        ⟨retry, after⟩
      rw [hretry] at hlt
      have hafter : after.weight setup.settings ≤ s.scheduler.weight setup.settings := by
        unfold Scheduler.weight at hlt ⊢
        dsimp only at hlt
        omega
      cases retry with
      | abandoned x =>
        rw [Turn.weight, State.weight_ring, State.abandon_scheduler]
        exact hafter
      | delayed => exact hafter
      | immediate => exact hafter
    · have hdrop := s.scheduler.queue.weight_drop_le setup.settings id
      unfold Turn.weight Scheduler.weight
      simp only [List.map_cons, List.map_nil, List.sum_cons, List.sum_nil, weight]
      omega

theorem weight_askParent (hmax : setup.settings.maxRetries.toNat + 1 < UInt32.size)
    {record : Option Attachment} (hlive : WithinRetries setup s [askParent r record]) :
    (doAskParent setup s r record).weight setup.settings ≤
      s.scheduler.weight setup.settings + r.flyingWeight setup.settings := by
  have hle := hlive r (.inr (.inr ⟨_, List.mem_cons_self, rfl⟩))
  unfold doAskParent
  split
  · rw [Turn.weight, State.weight_ring, State.requeue_scheduler]
    exact Nat.le_of_lt (Scheduler.weight_requeue_lt hmax _ hle)
  · exact Nat.le_add_right _ _
  · exact Nat.le_add_right _ _

theorem weight_tick (hmax : setup.settings.maxRetries.toNat + 1 < UInt32.size) {timeout : Nat}
    (hfiled : s.scheduler.flights.Filed) (hlive : WithinRetries setup s [tick timeout]) :
    (doTick setup s timeout).weight setup.settings ≤ s.scheduler.weight setup.settings := by
  have hnext : ∀ x ∈ (doTick setup s timeout).next, x.weight setup.settings = 0 := by
    rcases leads_tick setup s timeout with hnext | hnext | hnext <;> rw [hnext]
    · exact List.forall_mem_nil _
    · exact List.forall_mem_singleton.mpr rfl
    · exact List.forall_mem_cons.mpr ⟨rfl, List.forall_mem_singleton.mpr rfl⟩
  rw [Turn.weight, sum_weight_of_forall hnext, Nat.add_zero]
  have hbroken := Scheduler.weight_breakOffAll_le hmax s.world.now
    (s.scheduler.flights.stalled timeout s.world.now) fun id r hr => hlive r (.inr (.inl (by
      rw [hfiled _ _ hr]
      exact hr)))
  cases hstopped : s.scheduler.stopped with
  | true =>
    rw [doTick, if_pos hstopped]
  | false =>
    unfold Scheduler.weight at hbroken ⊢
    rwa [queue_tick timeout hstopped, flights_tick timeout hstopped]

/-- Any other errand leaves nothing heavier. -/
theorem weight_other (hmax : setup.settings.maxRetries.toNat + 1 < UInt32.size)
    (hfiled : s.scheduler.flights.Filed) (he : e.recruits = false)
    (hlive : WithinRetries setup s [e]) (hother : ∀ aside, e ≠ takeNext aside) :
    (e.perform setup s).weight setup.settings ≤
      s.scheduler.weight setup.settings + e.weight setup.settings := by
  by_cases htouch : e.touchesBooks = false
  · have hframe := perform_frame setup s e
    rw [Turn.weight, weight_of_same _ (hframe.queue htouch) (hframe.flights htouch)]
    exact Nat.add_le_add_left ((perform_leads setup s e).weight_le htouch setup.settings) _
  cases e with
  | takeNext aside => exact absurd rfl (hother aside)
  | screen r aside => exact weight_screen aside
  | landed r accepted onward => exact weight_landed hmax hfiled hlive
  | hear report => exact weight_hear hfiled
  | settle id status => exact weight_settle hmax hfiled hlive
  | askParent r record => exact weight_askParent hmax hlive
  | tick timeout => exact weight_tick hmax hfiled hlive
  | review _ | putBack _ | claim _ _ => cases he
  | _ => exact absurd rfl htouch

/-- **What a turn takes from the queue comes off the weight**, unless it brings in somebody who did
not count before. -/
theorem weight_turn (hmax : setup.settings.maxRetries.toNat + 1 < UInt32.size)
    (hq : s.scheduler.queue.Matched) (hfiled : s.scheduler.flights.Filed)
    (he : e.recruits = false) (hlive : WithinRetries setup s [e]) :
    (e.pops setup s).length + (e.perform setup s).weight setup.settings ≤
      s.scheduler.weight setup.settings + e.weight setup.settings := by
  by_cases htake : ∃ aside, e = takeNext aside
  · obtain ⟨aside, rfl⟩ := htake
    exact weight_takeNext hq hlive
  · have hother : ∀ aside, e ≠ takeNext aside := fun aside heq => htake ⟨aside, heq⟩
    have hpops : e.pops setup s = [] := by
      cases e with
      | takeNext aside => exact absurd rfl (hother aside)
      | _ => rfl
    rw [hpops, List.length_nil, Nat.zero_add]
    exact weight_other hmax hfiled he hlive hother

end Weight

/-! ### How far a turn goes -/

/-- Whether an errand takes a round through the queue, once it has begun. -/
def loops : Errand → Bool
  | takeNext _ | screen _ _ | handOver _ (.queue _) | landed _ _ (.queue _) => true
  | _ => false

/-- **How many errands there are at most** from one that deals with a report to the last one that
does, and from one on the way through the queue to the next request that is taken from there. -/
def depth : Errand → Nat
  | ring | write _ _ | takeNext _ => 1
  | sendMail _ | recordProgress _ _ | landed _ _ (.queue _) => 2
  | sendIfComplete _ => 3
  | close _ _ _ => 4
  | expunge _ _ _ => 5
  | askParent _ _ => 6
  | conclude _ _ => 7
  | settle _ _ => 8
  | hear _ => 9
  | handOver _ (.queue _) => 12
  | screen _ _ => 13
  | _ => 0

section Depth

variable {setup : Setup} {s : State} {e : Errand} {l rest : List Errand}

/-- An errand that deals with a report leads to fewer of them. -/
theorem Leads.depth_lt (hl : e.Leads l) (he : e.isReport = true) :
    (l.map Errand.depth).sum < e.depth := by
  cases e with
  | hear report => rcases hl with rfl | rfl | rfl <;> exact Nat.le_of_ble_eq_true rfl
  | recordProgress id percent =>
    rcases hl with rfl | ⟨size, rfl⟩ <;> exact Nat.le_of_ble_eq_true rfl
  | settle id status => rcases hl with rfl | ⟨r, rfl⟩ <;> exact Nat.le_of_ble_eq_true rfl
  | conclude r status =>
    rcases hl with rfl | ⟨record, rfl | rfl | rfl⟩ <;> exact Nat.le_of_ble_eq_true rfl
  | askParent r record => rcases hl with rfl | rfl | rfl <;> exact Nat.le_of_ble_eq_true rfl
  | expunge id status record =>
    obtain ⟨deleted, rfl⟩ := hl
    exact Nat.le_of_ble_eq_true rfl
  | close status record deleted =>
    rcases hl with rfl | rfl | ⟨a, rfl⟩ <;> exact Nat.le_of_ble_eq_true rfl
  | sendIfComplete a => rcases hl with rfl | rfl <;> exact Nat.le_of_ble_eq_true rfl
  | write _ _ | sendMail _ | ring =>
    rw [show l = _ from hl]
    exact Nat.le_of_ble_eq_true rfl
  | _ => cases he

/-- An errand on the way through the queue goes on there, or is the last one. Before it goes on, it
may have a report to hear. -/
theorem Leads.of_loops (hl : e.Leads l) (he : e.loops = true) :
    (∃ aside, l = [putBack aside]) ∨
      ∃ x, x.loops = true ∧ (l = [x] ∨ ∃ report, l = [hear report, x]) := by
  cases e with
  | takeNext aside =>
    rcases hl with rfl | ⟨r, rfl | rfl⟩
    · exact .inl ⟨_, rfl⟩
    · exact .inr ⟨_, rfl, .inl rfl⟩
    · exact .inr ⟨_, rfl, .inl rfl⟩
  | screen r aside =>
    rcases hl with rfl | rfl | rfl | ⟨now, rfl⟩
    · exact .inr ⟨_, rfl, .inl rfl⟩
    · exact .inr ⟨_, rfl, .inl rfl⟩
    · exact .inl ⟨_, rfl⟩
    · exact .inr ⟨_, rfl, .inl rfl⟩
  | handOver r onward =>
    cases onward with
    | done => cases he
    | queue aside =>
      obtain ⟨accepted, rfl | ⟨report, rfl⟩⟩ := hl
      · exact .inr ⟨_, rfl, .inl rfl⟩
      · exact .inr ⟨_, rfl, .inr ⟨report, rfl⟩⟩
  | landed r accepted onward =>
    rcases hl with ⟨rfl, -⟩ | ⟨aside, rfl, rfl | rfl⟩
    · cases he
    · exact .inr ⟨_, rfl, .inl rfl⟩
    · exact .inl ⟨_, rfl⟩
  | _ => cases he

/-- **Between two requests that are taken from the queue** a round has only so many errands. -/
theorem depth_turn (setup : Setup) (s : State) (he : e.loops = true) :
    ((e.perform setup s).next.map depth).sum < e.depth + 13 * (e.pops setup s).length := by
  have hl := perform_leads setup s e
  cases e with
  | takeNext aside =>
    have hpops : (∃ aside', (doTakeNext setup s aside).next = [putBack aside']) ∨
        ((takeNext aside).pops setup s).length = 1 := by
      unfold doTakeNext pops
      split_ifs
      · exact .inl ⟨aside, rfl⟩
      · rcases hpop : s.scheduler.queue.pop with ⟨r, q⟩
        cases r with
        | none => exact .inl ⟨aside, rfl⟩
        | some r => exact .inr rfl
    rcases hpops with ⟨aside', hnext⟩ | hone
    · rw [show (takeNext aside).perform setup s = doTakeNext setup s aside from rfl, hnext]
      exact Nat.le_add_right _ _
    · rw [hone]
      rcases hl with h | ⟨r, h | h⟩ <;> rw [h] <;> exact Nat.le_of_ble_eq_true rfl
  | screen r aside =>
    rcases hl with h | h | h | ⟨now, h⟩ <;> rw [h] <;> exact Nat.le_of_ble_eq_true rfl
  | handOver r onward =>
    cases onward with
    | done => cases he
    | queue aside =>
      obtain ⟨accepted, h | ⟨report, h⟩⟩ := hl <;> rw [h] <;> exact Nat.le_of_ble_eq_true rfl
  | landed r accepted onward =>
    rcases hl with ⟨rfl, -⟩ | ⟨aside, rfl, h | h⟩
    · cases he
    · rw [h]
      exact Nat.le_of_ble_eq_true rfl
    · rw [h]
      exact Nat.le_of_ble_eq_true rfl
  | _ => cases he

/-! ### A task on its way through the queue -/

/-- **A task is on its way through the queue**: its next errand takes a round there, or deals with a
report that the round hears on its way. -/
def underWay : List Errand → Bool
  | [] => false
  | e :: rest => e.loops || e.isReport && underWay rest

/-- How many errands such a task has at most to the next request that is taken from the queue. -/
def leadDepth : List Errand → Nat
  | [] => 0
  | e :: rest =>
    if e.loops then e.depth else if e.isReport then e.depth + leadDepth rest else 0

theorem holdsRound_of_loops (he : e.loops = true) : e.holdsRound = true := by
  cases e with
  | handOver r onward => cases onward <;> first | rfl | cases he
  | landed r accepted onward => cases onward <;> first | rfl | cases he
  | _ => first | rfl | cases he

theorem loops_of_isReport (he : e.isReport = true) : e.loops = false := by
  cases e <;> first | rfl | cases he

/-- With reports to hear before, a task is on its way as it was. -/
theorem underWay_append (hl : ∀ x ∈ l, x.isReport = true) :
    underWay (l ++ rest) = underWay rest := by
  induction l with
  | nil => rfl
  | cons x l ih =>
    have hx := hl x List.mem_cons_self
    rw [List.cons_append, underWay, loops_of_isReport hx, hx, Bool.false_or, Bool.true_and]
    exact ih fun y hy => hl y (.tail _ hy)

theorem leadDepth_append_le (l rest : List Errand) :
    leadDepth (l ++ rest) ≤ (l.map depth).sum + leadDepth rest := by
  induction l with
  | nil => exact Nat.le_of_eq (Nat.zero_add _).symm
  | cons x l ih =>
    rw [List.cons_append, leadDepth, List.map_cons, List.sum_cons]
    split_ifs
    · omega
    · omega
    · exact Nat.zero_le _

/-- **A turn of a task on its way** leaves it on its way, or is the last one there; and the way gets
shorter, unless a request is taken from the queue. -/
theorem underWay_turn (setup : Setup) (s : State) (h : underWay (e :: rest) = true) :
    (underWay ((e.perform setup s).left rest) = true ∨
        ∃ aside, (e.perform setup s).left rest = putBack aside :: rest) ∧
      leadDepth ((e.perform setup s).left rest) <
        leadDepth (e :: rest) + 13 * (e.pops setup s).length := by
  have hleads := perform_leads setup s e
  have hstays : e.mayCollapse = false := by cases e <;> first | rfl | cases h
  rw [left_perform setup s rest hstays]
  by_cases hloops : e.loops = true
  · have hturn := depth_turn setup s hloops
    rw [leadDepth, if_pos hloops]
    rcases hleads.of_loops hloops with ⟨aside, hnext⟩ | ⟨x, hx, hnext | ⟨report, hnext⟩⟩
    · rw [hnext] at hturn ⊢
      exact ⟨.inr ⟨aside, rfl⟩, Nat.lt_of_le_of_lt (Nat.zero_le _) hturn⟩
    · rw [hnext] at hturn ⊢
      rw [List.singleton_append, underWay, leadDepth, hx, if_pos rfl]
      exact ⟨.inl rfl, hturn⟩
    · rw [hnext] at hturn ⊢
      rw [List.cons_append, List.singleton_append, underWay, underWay, leadDepth, leadDepth, hx]
      exact ⟨.inl rfl, hturn⟩
  · have hloops' : e.loops = false := by simpa using hloops
    rw [underWay, hloops', Bool.false_or, Bool.and_eq_true] at h
    have hall := hleads.isReport h.1
    have hlt := hleads.depth_lt h.1
    have happend := leadDepth_append_le (e.perform setup s).next rest
    rw [leadDepth, if_neg hloops, if_pos h.1]
    refine ⟨.inl ?_, by omega⟩
    rw [underWay_append hall]
    exact h.2

/-- A task on its way has an errand that takes it there. -/
theorem exists_loops (h : underWay l = true) : ∃ x ∈ l, x.loops = true := by
  induction l with
  | nil => cases h
  | cons x rest ih =>
    rw [underWay, Bool.or_eq_true, Bool.and_eq_true] at h
    rcases h with hx | ⟨-, hrest⟩
    · exact ⟨x, List.mem_cons_self, hx⟩
    · obtain ⟨y, hy, hloops⟩ := ih hrest
      exact ⟨y, .tail _ hy, hloops⟩

/-- It has to wait for nothing but look-ups. -/
theorem isHeldUp_of_underWay (h : underWay (e :: rest) = true) (hhold : s.world.hold = none) :
    e.isHeldUp s = false := by
  have hholds : ∀ kind id, s.world.holds kind id = false := by
    intro kind id
    rw [World.holds, hhold]
    rfl
  cases e with
  | screen _ _ | conclude _ _ | recordProgress _ _ | askParent _ _ => exact hholds _ _
  | review _ | beginRound | applyNotice _ _ | vet _ _ | awaitNetwork | idle _ | listen => cases h
  | _ => rfl

end Depth

end Errand

/-! ### The loop of a crew -/

namespace Crew

variable {setup : Setup} {c c' : Crew} {i : Nat}

/-- **A task takes a round through the queue.** -/
def LoopsAt (c : Crew) (i : Nat) : Prop := Errand.underWay (c.tasks[i]?.getD []) = true

instance (c : Crew) (i : Nat) : Decidable (c.LoopsAt i) := inferInstanceAs (Decidable (_ = _))

/-- The requests that a move takes from the queue. -/
def pops (setup : Setup) (c : Crew) : CrewMove → List Request
  | .turn j =>
    match c.tasks[j]? with
    | some (e :: _) => e.pops setup c.state
    | _ => []
  | _ => []

/-- **The requests that are taken from the queue** in a run, the latest first. -/
def popped (setup : Setup) : Crew → List CrewMove → List Request :=
  recorded (move setup) (pops setup)

/-- What a crew weighs, in the books and in the errands that are left. -/
def weight (setup : Setup) (c : Crew) : Nat :=
  c.state.scheduler.weight setup.settings +
    (c.tasks.flatten.map (Errand.weight setup.settings)).sum

theorem loopsAt_iff : c.LoopsAt i ↔
    ∃ e rest, c.tasks[i]? = some (e :: rest) ∧ Errand.underWay (e :: rest) = true := by
  unfold LoopsAt
  cases hi : c.tasks[i]? with
  | none => exact ⟨fun h => (by cases h), fun ⟨_, _, h, _⟩ => (by cases h)⟩
  | some task =>
    cases task with
    | nil => exact ⟨fun h => (by cases h), fun ⟨_, _, h, _⟩ => (by cases h)⟩
    | cons e rest =>
      refine ⟨fun h => ⟨e, rest, rfl, h⟩, fun ⟨e', rest', htask, h⟩ => ?_⟩
      rw [Option.some.inj htask]
      exact h

/-- A round on its way has an errand that takes it there. -/
theorem LoopsAt.exists_loops (h : c.LoopsAt i) : ∃ x ∈ c.tasks.flatten, x.loops = true := by
  obtain ⟨e, rest, hi, hway⟩ := loopsAt_iff.mp h
  obtain ⟨x, hx, hloops⟩ := Errand.exists_loops hway
  exact ⟨x, mem_errands_of_task hi hx, hloops⟩

/-! ### Nobody has too many retries -/

/-- **What holds all along a run**: the books can be read, there is one round at a time, and nobody
has more retries than allowed. -/
structure Steady (setup : Setup) (c : Crew) : Prop where
  legible : c.Legible
  bounded : c.Bounded setup
  within : Errand.WithinRetries setup c.state c.tasks.flatten

theorem withinRetries_move {m : CrewMove} (hc : c.Legible)
    (hwithin : Errand.WithinRetries setup c.state c.tasks.flatten) (h : c.move setup m = some c') :
    Errand.WithinRetries setup c'.state c'.tasks.flatten := by
  refine keeps_of_turn (Q := Errand.WithinRetries setup) (fun {s es es'} hes hsub r hr => ?_) h
    hwithin (fun w _ r hr => hwithin r hr) (fun op _ r hr => hwithin r ?_)
    (fun i e rest others _ _ hbefore r hr => ?_)
  · -- Whoever begins carries nothing.
    refine hes.of_mem (fun e he => (hsub e he).imp_right fun hstart => ?_) r hr
    cases e <;> first | exact ⟨rfl, rfl⟩ | cases hstart
  · exact hr.imp (Operation.atHome_begin _) (Operation.abroad_begin _)
  · have hself : Errand.WithinRetries setup c.state [e] := hbefore.of_mem fun x hx =>
      .inl (by rw [List.mem_singleton.mp hx]; exact List.mem_cons_self)
    have hothers : ∀ x, (∃ y ∈ others, x ∈ y.aside ∨ y.settling = some x) →
        x.retries ≤ setup.settings.maxRetries := by
      rintro x ⟨y, hy, haside | hsettling⟩
      · exact hbefore x (.inl (.inr ⟨y, .tail _ hy, haside⟩))
      · exact hbefore x (.inr (.inr ⟨y, .tail _ hy, hsettling⟩))
    have hzero : (0 : UInt32) ≤ setup.settings.maxRetries :=
      UInt32.le_iff_toNat_le.mpr (Nat.zero_le _)
    rcases hr with hhome | habroad
    · rcases hhome.append with hnext | ⟨y, hy, haside⟩
      · rcases Errand.perform_atHome hc.matched hc.filed hnext with
          hr | ⟨r₀, -, -, -, hle⟩ | ⟨-, hnew⟩
        · exact hself r (.inl hr)
        · exact hle
        · rw [hnew]
          exact hzero
      · exact hothers r ⟨y, hy, .inl haside⟩
    · rcases habroad.append with hnext | ⟨y, hy, hsettling⟩
      · rcases Errand.perform_abroad hc.filed hnext with ⟨r₀, hr₀, -, hretries⟩ | ⟨onward, htaken⟩
        · rw [← hretries]
          exact hself r₀ (.inr hr₀)
        · rcases Errand.taken_perform htaken with ⟨r₀, hr₀, -, hretries⟩ | ⟨-, hnew⟩
          · rw [← hretries]
            exact hself r₀ (.inl (.inr ⟨e, List.mem_cons_self, hr₀⟩))
          · rw [hnew]
            exact hzero
      · exact hothers r ⟨y, hy, .inr hsettling⟩

theorem steady_move {m : CrewMove} (hc : c.Steady setup) (h : c.move setup m = some c') :
    c'.Steady setup :=
  ⟨legible_move hc.legible h, bounded_move hc.bounded h, withinRetries_move hc.legible hc.within h⟩

theorem steady_fresh (setup : Setup) (w : World) : (fresh w).Steady setup := by
  refine ⟨legible_fresh w, bounded_fresh setup w, ?_⟩
  rintro r (hhome | habroad)
  · exact absurd hhome (not_atHome_fresh w r)
  · exact absurd habroad (not_abroad_fresh w r)

theorem steady_run {w : World} {moves : List CrewMove} (h : (fresh w).run setup moves = some c) :
    c.Steady setup :=
  follow_keeps (fun _ _ _ => steady_move) (steady_fresh setup w) h

/-! ### What a move takes from the queue -/

/-- While a round is on its way through the queue, it has no other errand that keeps it. -/
theorem Bounded.loops_of_holdsRound (hc : c.Bounded setup) (hloop : c.LoopsAt i) {e : Errand}
    (he : e ∈ c.tasks.flatten) (hholds : e.holdsRound = true) : e.loops = true := by
  obtain ⟨x, hx, hloops⟩ := hloop.exists_loops
  by_contra hnot
  have hne : x ≠ e := by
    rintro rfl
    exact hnot hloops
  have htwo : [x, e].Subperm (c.tasks.flatten.filter Errand.holdsRound) := by
    refine List.Nodup.subperm (by simpa using hne) fun z hz => List.mem_filter.mpr ?_
    rcases List.mem_pair.mp hz with rfl | rfl
    · exact ⟨hx, Errand.holdsRound_of_loops hloops⟩
    · exact ⟨he, hholds⟩
  have hle := htwo.length_le
  rw [← List.countP_eq_length_filter] at hle
  have hone := Nat.le_trans hc.rounds (Bool.toNat_le _)
  simp only [List.length_cons, List.length_nil] at hle
  omega

/-- While a round is on its way through the queue, nobody is brought in who did not count before:
reviews wait for the round, and it does not look ahead yet. -/
theorem Bounded.not_recruits (hc : c.Bounded setup) (hloop : c.LoopsAt i) {j : Nat} {e : Errand}
    {rest : List Errand} (hj : c.tasks[j]? = some (e :: rest))
    (hfree : e.isHeldUp c.state = false) : e.recruits = false := by
  cases e with
  | review a =>
    obtain ⟨x, hx, hloops⟩ := hloop.exists_loops
    have hround := hc.inRound_of_holdsRound hx (Errand.holdsRound_of_loops hloops)
    rw [Errand.isHeldUp, hround] at hfree
    cases hfree
  | putBack aside =>
    cases hc.loops_of_holdsRound hloop (mem_errands_of_task hj List.mem_cons_self) rfl
  | claim a others =>
    -- Whoever looks ahead has the end of the round behind it.
    have hlt := (hc.covered _ (List.mem_of_getElem? hj)).1 rfl
    obtain ⟨x, hx, hend⟩ := List.countP_pos_iff.mp (Nat.lt_of_le_of_lt (Nat.zero_le _) hlt)
    rw [eq_of_beq hend] at hx
    cases hc.loops_of_holdsRound hloop (mem_errands_of_task hj (.tail _ hx)) rfl
  | _ => rfl

/-- **What a turn takes from the queue comes off the weight of the crew.** -/
theorem weight_of_turn (hmax : setup.settings.maxRetries.toNat + 1 < UInt32.size)
    (hc : c.Steady setup) {j : Nat} {e : Errand} {rest : List Errand}
    (hj : c.tasks[j]? = some (e :: rest)) (he : e.recruits = false)
    (h : c.move setup (.turn j) = some c') :
    (c.pops setup (.turn j)).length + c'.weight setup ≤ c.weight setup := by
  obtain ⟨before, e', rest', after, hj', htasks, -, rfl⟩ := move_turn h
  obtain ⟨rfl, rfl⟩ : e' = e ∧ rest' = rest := by simpa using hj'.symm.trans hj
  have hpops : c.pops setup (.turn j) = e'.pops setup c.state := by
    simp only [pops, hj]
  have hself : Errand.WithinRetries setup c.state [e'] := hc.within.of_mem fun x hx => by
    rw [List.mem_singleton.mp hx]
    exact .inl (mem_errands_of_task hj List.mem_cons_self)
  have hturn := Errand.weight_turn hmax hc.legible.matched hc.legible.filed he hself
  have hleft : (((e'.perform setup c.state).left rest').map
        (Errand.weight setup.settings)).sum ≤
      ((e'.perform setup c.state).next.map (Errand.weight setup.settings)).sum +
        (rest'.map (Errand.weight setup.settings)).sum := by
    unfold Turn.left
    split_ifs
    · exact Nat.zero_le _
    · rw [List.map_append, List.sum_append]
  have hstarted : ((e'.perform setup c.state).started.flatten.map
      (Errand.weight setup.settings)).sum = 0 := by
    refine Errand.sum_weight_of_forall fun x hx => ?_
    obtain ⟨task, htask, hx⟩ := List.mem_flatten.mp hx
    obtain ⟨job, rfl⟩ := Errand.perform_started setup c.state e' task htask
    rw [List.mem_singleton.mp hx]
    rfl
  rw [hpops]
  unfold weight Turn.weight at *
  simp only [htasks, List.flatten_append, List.flatten_cons, List.map_append, List.map_cons,
    List.sum_append, List.sum_cons, hstarted] at hturn ⊢
  omega

/-- **While a round is on its way through the queue**, what a move takes from there comes off the
weight of the crew, and nothing is added to it. -/
theorem weight_of_move (hmax : setup.settings.maxRetries.toNat + 1 < UInt32.size)
    (hc : c.Steady setup) (hloop : c.LoopsAt i) {m : CrewMove} (h : c.move setup m = some c') :
    (c.pops setup m).length + c'.weight setup ≤ c.weight setup := by
  rcases move_cases h with ⟨w, rfl, rfl⟩ | ⟨op, rfl, rfl⟩ | ⟨rfl, rfl⟩ | ⟨j, rfl⟩
  · exact Nat.le_of_eq (Nat.zero_add _)
  · have hbooks := Errand.weight_of_same setup.settings (op.state_queue c.state)
      (op.state_flights c.state)
    have hnone : ((op.errands c.state).map (Errand.weight setup.settings)).sum = 0 := by
      refine Errand.sum_weight_of_forall fun x hx => ?_
      have hfirst := Operation.isFirst_of_mem_errands hx
      cases x <;> first | rfl | cases hfirst
    unfold weight
    simp only [pops, List.length_nil, List.flatten_append, List.flatten_singleton, List.map_append,
      List.sum_append, hbooks, hnone]
    omega
  · unfold weight
    simp only [pops, List.length_nil, List.flatten_append, List.map_append, List.sum_append]
    exact Nat.le_of_eq (Nat.zero_add _)
  · obtain ⟨e, rest, -, hj, hfree, -⟩ := turn_errands h
    exact weight_of_turn hmax hc hj (hc.bounded.not_recruits hloop hj hfree) h

/-- **The way through the queue** goes on, or is over; and its task's turns are paid for by the
requests that are taken from the queue. -/
theorem loopsAt_move (hloop : c.LoopsAt i) {m : CrewMove} (h : c.move setup m = some c') :
    (c'.LoopsAt i ∨ ∃ aside rest, c'.tasks[i]? = some (.putBack aside :: rest)) ∧
      (if m = .turn i then 1 else 0) + Errand.leadDepth (c'.tasks[i]?.getD []) ≤
        Errand.leadDepth (c.tasks[i]?.getD []) + 13 * (c.pops setup m).length := by
  obtain ⟨e, rest, hi, hway⟩ := loopsAt_iff.mp hloop
  by_cases hm : m = .turn i
  · subst hm
    obtain ⟨-, htask⟩ := task_of_self hi h
    obtain ⟨hgoes, hlt⟩ := Errand.underWay_turn setup c.state hway
    have hpops : c.pops setup (.turn i) = e.pops setup c.state := by
      simp only [pops, hi]
    unfold LoopsAt
    rw [htask, hi, hpops, if_pos rfl]
    simp only [Option.getD_some]
    refine ⟨hgoes.imp_right fun ⟨aside, hleft⟩ => ⟨aside, rest, congrArg some hleft⟩, by omega⟩
  · have htask := task_of_other hm h hi
    unfold LoopsAt
    rw [htask, hi, if_neg hm, Nat.zero_add]
    exact ⟨.inl hway, Nat.le_add_right _ _⟩

/-! ### The end of the loop -/

/-- **While a round is on its way through the queue**, the requests that are taken from there come
off the weight of the crew, and they pay for the turns of its task. -/
theorem loop_bound (hmax : setup.settings.maxRetries.toNat + 1 < UInt32.size)
    {moves : List CrewMove} (hc : c.Steady setup)
    (hloop : Throughout (move setup) (fun u _ => u.LoopsAt i) c moves)
    (h : c.run setup moves = some c') :
    (c.popped setup moves).length + c'.weight setup ≤ c.weight setup ∧
      moves.count (.turn i) + Errand.leadDepth (c'.tasks[i]?.getD []) ≤
        Errand.leadDepth (c.tasks[i]?.getD []) + 13 * (c.popped setup moves).length := by
  induction moves generalizing c with
  | nil =>
    obtain rfl := Option.some.inj h
    exact ⟨Nat.le_of_eq (Nat.zero_add _), Nat.le_of_eq (Nat.zero_add _)⟩
  | cons m rest ih =>
    obtain ⟨u, hm, hrest⟩ := follow_cons_eq_some h
    obtain ⟨hself, hloop⟩ := throughout_cons hm hloop
    obtain ⟨hweight, hturns⟩ := ih (steady_move hc hm) hloop hrest
    have hmove := weight_of_move hmax hc hself hm
    have hturn := (loopsAt_move hself hm).2
    have hpopped : (c.popped setup (m :: rest)).length =
        (u.popped setup rest).length + (c.pops setup m).length := by
      rw [popped, recorded_cons hm, List.length_append]
    rw [hpopped, List.count_cons]
    simp only [beq_iff_eq]
    constructor <;> omega

end Crew

/-- **How often requests may be taken from the queue**: twice for every try that they have left. -/
def takings (limits : Settings) (rs : List Request) : Nat :=
  (rs.map fun r => 2 * r.triesLeft limits).sum

/-- The requests that wait or are in flight. -/
def State.booked (s : State) : List Request :=
  s.scheduler.queue.toList ++ s.scheduler.flights.table.values

namespace Crew

variable {setup : Setup} {c c' : Crew} {i : Nat}

/-- The requests whose ends are being looked into by some of the tasks. -/
def settledBy (counts : Nat → Bool) (tasks : List (List Errand)) : List Request :=
  (tasks.mapIdx fun j task => if counts j then task.filterMap Errand.settling else []).flatten

/-- The requests whose ends are being looked into by tasks that have a turn in a run. -/
def beingSettled (c : Crew) (moves : List CrewMove) : List Request :=
  settledBy (fun j => decide (.turn j ∈ moves)) c.tasks

theorem takings_append (limits : Settings) (rs rs' : List Request) :
    takings limits (rs ++ rs') = takings limits rs + takings limits rs' := by
  unfold takings
  rw [List.map_append, List.sum_append]

theorem weight_flights_le (limits : Settings) (f : Flights) :
    f.weight limits ≤ takings limits f.table.values := by
  unfold Flights.weight Table.total takings
  induction f.table.values with
  | nil => exact Nat.le_refl _
  | cons r rest ih =>
    have hle : r.flyingWeight limits ≤ 2 * r.triesLeft limits := Nat.sub_le _ _
    simp only [List.map_cons, List.sum_cons]
    omega

/-- While no round is under way, the errands weigh what is being settled. -/
theorem weight_errands_le (limits : Settings) {l : List Errand}
    (hl : ∀ e ∈ l, e.holdsRound = false) :
    (l.map (Errand.weight limits)).sum ≤ takings limits (l.filterMap Errand.settling) := by
  induction l with
  | nil => exact Nat.le_refl _
  | cons e rest ih =>
    have hrest := ih fun x hx => hl x (.tail _ hx)
    have hself : e.weight limits ≤ takings limits e.settling.toList := by
      cases e with
      | screen r aside => cases hl _ List.mem_cons_self
      | conclude r status => exact Nat.sub_le _ _
      | askParent r record => exact Nat.sub_le _ _
      | _ => exact Nat.zero_le _
    have hsplit : (e :: rest).filterMap Errand.settling =
        e.settling.toList ++ rest.filterMap Errand.settling := by
      rw [List.filterMap_cons]
      cases e.settling <;> rfl
    rw [hsplit, takings_append, List.map_cons, List.sum_cons]
    exact Nat.add_le_add hself hrest

/-- Tasks without a turn weigh afterwards what they weighed before. -/
theorem weight_tasks_le (limits : Settings) (counts : Nat → Bool)
    {tasks tasks' : List (List Errand)} (hnone : ∀ e ∈ tasks.flatten, e.holdsRound = false)
    (hkept : ∀ j task, tasks[j]? = some task → counts j = false → tasks'[j]? = some task) :
    (tasks.flatten.map (Errand.weight limits)).sum ≤
      takings limits (settledBy counts tasks) +
        (tasks'.flatten.map (Errand.weight limits)).sum := by
  induction tasks generalizing counts tasks' with
  | nil => exact Nat.zero_le _
  | cons task rest ih =>
    have hkept' : ∀ j t, rest[j]? = some t → counts (j + 1) = false → tasks'.tail[j]? = some t := by
      intro j t hj hidle
      rw [List.getElem?_tail]
      exact hkept (j + 1) t hj hidle
    have hrest := ih (fun j => counts (j + 1)) (fun e he => hnone e (List.mem_append_right _ he))
      hkept'
    have hself := weight_errands_le limits fun e he => hnone e (List.mem_append_left _ he)
    have hsplit : settledBy counts (task :: rest) =
        (if counts 0 then task.filterMap Errand.settling else []) ++
          settledBy (fun j => counts (j + 1)) rest := by
      rw [settledBy, List.mapIdx_cons, List.flatten_cons]
      rfl
    rw [hsplit, takings_append, List.flatten_cons, List.map_append, List.sum_append]
    cases hcounts : counts 0 with
    | true =>
      have htail : (tasks'.tail.flatten.map (Errand.weight limits)).sum ≤
          (tasks'.flatten.map (Errand.weight limits)).sum := by
        cases tasks' with
        | nil => exact Nat.le_refl _
        | cons task' rest' =>
          rw [List.flatten_cons, List.map_append, List.sum_append]
          exact Nat.le_add_left _ _
      rw [if_pos rfl]
      omega
    | false =>
      have hhead := hkept 0 task rfl hcounts
      obtain ⟨rest', rfl⟩ : ∃ rest', tasks' = task :: rest' := by
        cases tasks' with
        | nil => cases hhead
        | cons task' rest' => exact ⟨rest', by rw [Option.some.inj hhead]⟩
      rw [List.flatten_cons, List.map_append, List.sum_append]
      rw [List.tail_cons] at hrest
      omega

/-- A crew without a round weighs at most what is in the books, what is being settled by tasks that
have a turn in a run, and what the others still weigh after it. -/
theorem weight_le_takings (hc : c.Steady setup) (hround : c.state.scheduler.inRound = false)
    {moves : List CrewMove} (h : c.run setup moves = some c') :
    c.weight setup ≤ takings setup.settings (c.state.booked ++ c.beingSettled moves) +
      (c'.tasks.flatten.map (Errand.weight setup.settings)).sum := by
  have hnone : ∀ e ∈ c.tasks.flatten, e.holdsRound = false := by
    intro e he
    by_contra hholds
    rw [hc.bounded.inRound_of_holdsRound he (by simpa using hholds)] at hround
    cases hround
  have hqueue := Queue.weight_eq setup.settings hc.legible.matched
  have hflights := weight_flights_le setup.settings c.state.scheduler.flights
  have herrands := weight_tasks_le setup.settings (fun j => decide (.turn j ∈ moves)) hnone
    fun j task hj hidle => task_of_idle h (by simpa using hidle) hj
  have hwaiting : takings setup.settings c.state.scheduler.queue.toList =
    (c.state.scheduler.queue.toList.map (·.waitingWeight setup.settings)).sum := rfl
  rw [State.booked, takings_append, takings_append, hwaiting]
  unfold weight Scheduler.weight beingSettled
  omega

theorem beingSettled_eq_nil {moves : List CrewMove}
    (h : ∀ j task, .turn j ∈ moves → c.tasks[j]? = some task → ∀ e ∈ task, e.settling = none) :
    c.beingSettled moves = [] := by
  refine List.flatten_eq_nil_iff.mpr fun rs hrs => ?_
  obtain ⟨j, hj, rfl⟩ := List.mem_mapIdx.mp hrs
  split_ifs with hturn
  · exact List.filterMap_eq_nil_iff.mpr
      (h j _ (by simpa using hturn) (List.getElem?_eq_getElem hj))
  · rfl

/-- **A round comes to the end of its way through the queue**, however the tasks of a crew are
interleaved, whatever reports come meanwhile, and whatever the world answers. If a round begins in a
state that a run can reach, then for as long as it is on its way,

* at most `takings` requests are taken from the queue: two for every try that those have left who
  wait or are in flight when it begins, or whose ends are then being looked into by tasks that go on
  meanwhile;
* these are only those who wait or are in flight, if there are no such tasks;
* its task has a bounded number of turns;
* it may have its next turn as soon as no look-up is held back, until it puts back the requests that
  it has set aside. -/
theorem round_ends (setup : Setup) (w : World) (before moves : List CrewMove) (i : Nat)
    (c₀ c₁ c : Crew) (behind : List Errand)
    (hmax : setup.settings.maxRetries.toNat + 1 < UInt32.size)
    (h₀ : (fresh w).run setup before = some c₀)
    (hbegin : c₀.tasks[i]? = some (.beginRound :: behind))
    (h₁ : c₀.move setup (.turn i) = some c₁)
    (hloop : Throughout (move setup) (fun u _ => u.LoopsAt i) c₁ moves)
    (h : c₁.run setup moves = some c) :
    (c₁.popped setup moves).length ≤
        takings setup.settings (c₀.state.booked ++ c₀.beingSettled (.turn i :: moves)) ∧
      ((∀ j task, .turn j ∈ .turn i :: moves → c₀.tasks[j]? = some task →
          ∀ e ∈ task, e.settling = none) →
        (c₁.popped setup moves).length ≤ takings setup.settings c₀.state.booked) ∧
      moves.count (.turn i) ≤
        13 * takings setup.settings (c₀.state.booked ++ c₀.beingSettled (.turn i :: moves)) + 1 ∧
      (c.LoopsAt i ∧ (c.state.world.hold = none → ∃ c', c.move setup (.turn i) = some c') ∨
        ∃ aside rest, c.tasks[i]? = some (.putBack aside :: rest)) := by
  have hsteady := steady_run h₀
  obtain ⟨-, htask⟩ := task_of_self hbegin h₁
  have htask : c₁.tasks[i]? = some (.takeNext [] :: behind) := htask
  have hround : c₀.state.scheduler.inRound = false := by
    obtain ⟨e, rest, -, hi, hfree, -⟩ := turn_errands h₁
    obtain ⟨rfl, -⟩ : e = .beginRound ∧ rest = behind := by simpa using hi.symm.trans hbegin
    exact hfree
  -- The round begins with the weight of what is there, and its first errand is one step deep.
  have hweight := weight_le_takings hsteady hround ((follow_cons h₁).trans h)
  have hfirst := weight_of_turn hmax hsteady hbegin rfl h₁
  have hstart : c₁.LoopsAt i := loopsAt_iff.mpr ⟨_, _, htask, rfl⟩
  have hdepth : Errand.leadDepth (c₁.tasks[i]?.getD []) = 1 := by
    rw [htask]
    rfl
  obtain ⟨hpopped, hturns⟩ := loop_bound hmax (steady_move hsteady h₁) hloop h
  have hleft : (c.tasks.flatten.map (Errand.weight setup.settings)).sum ≤ c.weight setup :=
    Nat.le_add_left _ _
  have htaken : (c₁.popped setup moves).length ≤
      takings setup.settings (c₀.state.booked ++ c₀.beingSettled (.turn i :: moves)) := by omega
  refine ⟨htaken, fun hnone => ?_, by omega, ?_⟩
  · rwa [beingSettled_eq_nil hnone, List.append_nil] at htaken
  · have hend : c.LoopsAt i ∨ ∃ aside rest, c.tasks[i]? = some (.putBack aside :: rest) :=
      follow_keeps_of (fun u m u' _ hu hmove => (loopsAt_move hu hmove).1) (.inl hstart) hloop h
    refine hend.imp_left fun hloops => ⟨hloops, fun hhold => ?_⟩
    obtain ⟨e, rest, hi, hway⟩ := loopsAt_iff.mp hloops
    exact turn_of_free setup hi (Errand.isHeldUp_of_underWay hway hhold)

/-- A world with one attachment that is wanted, whose first transfer loses its connection while it
is being handed over. -/
def jumpyWorld : World where
  records := .ofSeed
    { attachments := [{ id := 1, message := 10, account := 1, flags := .forward }] }
  carrier := .noting 0 (some ⟨.connectionError, 0, 1⟩)

/-- The attachment joins the queue, and a round is asked for. -/
def roundAskedFor : List CrewMove :=
  .begin .rescan :: List.replicate 3 (.turn 0) ++ [.begin .round]

/-- The second transfer loses its connection, too; another task deals with that. -/
def twiceLost : List CrewMove :=
  List.replicate 9 (.turn 1) ++ [.begin (.report ⟨10, 1, .connectionError, 0⟩), .turn 2, .turn 2] ++
    List.replicate 6 (.turn 1)

/-- The crew with the round still to begin. -/
def beforeRound : Crew := ((fresh jumpyWorld).run {} roundAskedFor).getD (fresh jumpyWorld)

/-- The crew with the round at the queue. -/
def roundBegun : Crew := (beforeRound.move {} (.turn 1)).getD beforeRound

/-- One request waits, which is taken from the queue three times before the round goes on. -/
theorem round_ends_twice_lost :
    beforeRound.state.scheduler.queue.toList.map (·.id) = [1] ∧
      takings {} beforeRound.state.booked = 22 ∧
      (roundBegun.popped {} twiceLost).map (·.retries) = [2, 1, 0] ∧
      (roundBegun.popped {} twiceLost).length ≤ takings {} beforeRound.state.booked ∧
      ∃ c, roundBegun.run {} twiceLost = some c ∧ c.tasks[1]? = some [.putBack []] := by
  have hbefore : (fresh jumpyWorld).run {} roundAskedFor = some beforeRound := rfl
  have hbegun : beforeRound.move {} (.turn 1) = some roundBegun := rfl
  have hnone : ∀ e ∈ beforeRound.tasks.flatten, e.settling = none := by decide
  refine ⟨rfl, rfl, rfl, ?_, _, rfl, rfl⟩
  exact (round_ends {} jumpyWorld roundAskedFor twiceLost 1 beforeRound roundBegun _ [] (by decide)
    hbefore rfl hbegun (by decide) rfl).2.1 fun _ _ _ hj e he => hnone e (mem_errands_of_task hj he)

end Crew

end MailFetch

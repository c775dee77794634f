import MailFetch.Proofs.Course
import MailFetch.Proofs.Run

/-! # Operations, one after another

From outside, the scheduler is asked for operations: a record has changed, a round is to be held, a
transfer reports, an alarm goes off. A `Desk` is the scheduler with the errands that are left of the
operation in hand, and the next operation begins when none is left. Between any two errands the
world may become whatever it likes, as long as its clock does not go back: so look-ups are answered
in every way, transfers are accepted or refused, records come and go, and the network changes.

A run is a list of moves (`Desk.run`), so that what holds before a move, after it, and of two moves
of one run can be stated. Transfers that an errand starts beside it report through operations of
their own. -/

namespace MailFetch

/-! ### Operations -/

/-- **What the scheduler is asked for from outside.** -/
inductive Operation
  /-- A record was inserted or changed. -/
  | change (a : Attachment)
  /-- A reported change of a record is applied. -/
  | applyNotice (id : Int) (flags : Flags)
  /-- A change of a record is reported. -/
  | notify (id : Int) (flags : Flags)
  /-- All records whose download is asked for are reviewed. -/
  | rescan
  /-- A round of admissions is held. -/
  | round
  /-- A transfer reports. -/
  | report (r : Report)
  /-- Stalled transfers are looked for. -/
  | tick (timeout : Nat)
  /-- The watchdog's alarm goes off. -/
  | alarm
  /-- The caller asks whether an account has room for downloads that nobody asked for. -/
  | askBudget (account : Account)
  /-- The main loop is woken. -/
  | ring
  | stop
deriving DecidableEq

/-- The state as the scheduler changes its memory. -/
def State.withScheduler (s : State) (c : Scheduler) : State := { s with scheduler := c }

/-- The state as the world changes. -/
def State.withWorld (s : State) (w : World) : State := { s with world := w }

namespace Operation

/-- What an operation changes at once. -/
def state (s : State) : Operation → State
  | notify id flags => s.withScheduler (s.scheduler.notify id flags)
  | alarm => s.withScheduler { s.scheduler with alarm := none }
  | ring => s.ring
  | stop => s.withScheduler s.scheduler.stop
  | _ => s

/-- The errands that an operation begins with. -/
def errands (s : State) : Operation → List Errand
  | change a => [.review a]
  | applyNotice id flags => [.applyNotice id flags]
  | rescan => [.sweep]
  | round => [.beginRound]
  | report r => [.hear r]
  | tick timeout => [.tick timeout]
  | alarm => (s.scheduler.alarm.map fun a => Errand.tick a.timeout).toList
  | askBudget account => [.budget account .caller]
  | notify _ _ | ring | stop => []

@[simp] theorem state_world (s : State) (op : Operation) : (op.state s).world = s.world := by
  cases op <;> rfl

theorem state_flights (s : State) (op : Operation) :
    (op.state s).scheduler.flights = s.scheduler.flights := by
  cases op with
  | notify id flags =>
    unfold state Scheduler.notify State.withScheduler
    split_ifs <;> rfl
  | _ => rfl

theorem state_inRound (s : State) (op : Operation) :
    (op.state s).scheduler.inRound = s.scheduler.inRound := by
  cases op with
  | notify id flags =>
    unfold state Scheduler.notify State.withScheduler
    split_ifs <;> rfl
  | _ => rfl

/-- Nothing but `stop` stops the scheduler. -/
theorem state_stopped {s : State} {op : Operation} (hstop : op ≠ .stop) :
    (op.state s).scheduler.stopped = s.scheduler.stopped := by
  cases op with
  | notify id flags =>
    unfold state Scheduler.notify State.withScheduler
    split_ifs <;> rfl
  | stop => exact absurd rfl hstop
  | _ => rfl

/-- An errand that an operation may begin with. -/
def isFirst : Errand → Bool
  | .review _ | .applyNotice _ _ | .sweep | .beginRound | .hear _ | .tick _ | .budget _ .caller =>
    true
  | _ => false

theorem isFirst_of_mem_errands {s : State} {op : Operation} {e : Errand} (h : e ∈ op.errands s) :
    isFirst e = true := by
  cases op with
  | alarm =>
    unfold errands at h
    cases ha : s.scheduler.alarm with
    | none => simp [ha] at h
    | some a =>
      simp only [ha, Option.map_some, Option.toList_some, List.mem_singleton] at h
      rw [h]
      rfl
  | notify _ _ | ring | stop => cases h
  | _ =>
    rw [List.mem_singleton.mp h]
    rfl

end Operation

/-! ### The desk -/

/-- **The scheduler with the operation in hand**: the errands that are left of it. -/
structure Desk where
  state : State
  task : List Errand := []
deriving DecidableEq

/-- What happens next. -/
inductive Move
  /-- The world becomes another one. -/
  | world (w : World)
  /-- An operation begins. -/
  | begin (op : Operation)
  /-- The next errand is done. -/
  | turn
deriving DecidableEq

namespace Desk

/-- A scheduler that has just been made. -/
def fresh (w : World) : Desk := ⟨{ world := w }, []⟩

/-- **One move.** Operations begin only when nothing is left of the one before, and the clock does
not go back. -/
def move (setup : Setup) (d : Desk) : Move → Option Desk
  | .world w =>
    if d.state.world.now ≤ w.now then some { d with state := d.state.withWorld w } else none
  | .begin op =>
    match d.task with
    | [] => some ⟨op.state d.state, op.errands d.state⟩
    | _ :: _ => none
  | .turn =>
    match d.task with
    | [] => none
    | e :: rest =>
      let t := e.perform setup d.state
      some ⟨t.state, t.left rest⟩

/-- What a run of moves leads to. -/
def run (setup : Setup) : Desk → List Move → Option Desk := follow (move setup)

variable {setup : Setup} {d d' : Desk}

/-- **What a move can be**: the three kinds of it, and what each leads to. -/
theorem move_cases {m : Move} (h : d.move setup m = some d') :
    (∃ w, m = .world w ∧ d.state.world.now ≤ w.now ∧
        d' = { d with state := d.state.withWorld w }) ∨
      (∃ op, m = .begin op ∧ d.task = [] ∧ d' = ⟨op.state d.state, op.errands d.state⟩) ∨
      ∃ e rest, m = .turn ∧ d.task = e :: rest ∧
        d' = ⟨(e.perform setup d.state).state, (e.perform setup d.state).left rest⟩ := by
  cases m with
  | world w =>
    unfold move at h
    dsimp only at h
    split_ifs at h with hle
    exact .inl ⟨w, rfl, hle, (Option.some.inj h).symm⟩
  | begin op =>
    unfold move at h
    cases ht : d.task with
    | nil =>
      simp only [ht] at h
      exact .inr (.inl ⟨op, rfl, rfl, (Option.some.inj h).symm⟩)
    | cons e rest => simp [ht] at h
  | turn =>
    unfold move at h
    cases ht : d.task with
    | nil => simp [ht] at h
    | cons e rest =>
      simp only [ht] at h
      exact .inr (.inr ⟨e, rest, rfl, rfl, (Option.some.inj h).symm⟩)

theorem move_turn (h : d.move setup .turn = some d') :
    ∃ e rest, d.task = e :: rest ∧
      d' = ⟨(e.perform setup d.state).state, (e.perform setup d.state).left rest⟩ := by
  rcases move_cases h with ⟨_, hm, -⟩ | ⟨_, hm, -⟩ | ⟨e, rest, -, ht, hd⟩
  · cases hm
  · cases hm
  · exact ⟨e, rest, ht, hd⟩

/-- **An operation comes to its end** by turns alone: nothing else happens in between. -/
def Finishes (setup : Setup) (d d' : Desk) : Prop :=
  ∃ turns, d.run setup (List.replicate turns .turn) = some d' ∧ d'.task = []

theorem finishes_nil (setup : Setup) (s : State) : Finishes setup ⟨s, []⟩ ⟨s, []⟩ := ⟨0, rfl, rfl⟩

theorem finishes_cons {s : State} {e : Errand} {rest : List Errand}
    (he : e.mayCollapse = false)
    (h : Finishes setup ⟨(e.perform setup s).state, (e.perform setup s).next ++ rest⟩ d) :
    Finishes setup ⟨s, e :: rest⟩ d := by
  obtain ⟨turns, hrun, hdone⟩ := h
  refine ⟨turns + 1, ?_, hdone⟩
  rw [← Errand.left_perform setup s rest he] at hrun
  exact hrun

/-- One turn of an errand, when it is known what the turn does. -/
theorem finishes_turn {s s' : State} {e : Errand} (next : List Errand) {rest : List Errand}
    (he : e.mayCollapse = false) (hturn : e.perform setup s = { state := s', next := next })
    (h : Finishes setup ⟨s', next ++ rest⟩ d) : Finishes setup ⟨s, e :: rest⟩ d := by
  refine finishes_cons he ?_
  rw [hturn]
  exact h

/-- **What a move keeps** of the state and the errands that are left: what the world, an operation
and the errand in hand keep. -/
theorem keeps_of_turn {Q : State → List Errand → Prop}
    (hmem : ∀ {s es es'}, Q s es → (∀ e ∈ es', e ∈ es) → Q s es') {m : Move}
    (h : d.move setup m = some d') (hworld : ∀ w, m = .world w → Q (d.state.withWorld w) d.task)
    (hbegin : ∀ op, m = .begin op → Q (op.state d.state) (d.task ++ op.errands d.state))
    (hturn : ∀ e rest, m = .turn → d.task = e :: rest →
      Q (e.perform setup d.state).state ((e.perform setup d.state).next ++ rest)) :
    Q d'.state d'.task := by
  rcases move_cases h with ⟨w, rfl, -, rfl⟩ | ⟨op, rfl, ht, rfl⟩ | ⟨e, rest, rfl, ht, rfl⟩
  · exact hworld w rfl
  · have hfirst := hbegin op rfl
    rw [ht] at hfirst
    exact hfirst
  · exact hmem (hturn e rest rfl ht) fun x hx => List.mem_append.mpr (Turn.mem_left hx)

end Desk

end MailFetch

import MailFetch.Proofs.Desk
import MailFetch.Proofs.Whereabouts

/-! # Many tasks at once

A `Crew` is the scheduler with all the tasks that are under way. Any task may do its next errand
whenever this errand does not have to wait, operations begin whenever they like, and between any two
errands the world may change. So a run of a crew is an arbitrary interleaving of its tasks; the
order in which tasks are let in, and who is served first, is left open.

* `Crew.move_cases`: what a move can be, with the task that it is about singled out.
* `Crew.turn_errands`: what a turn does to all errands that are left, of whatever task.
* `Crew.task_of_other`, `Crew.task_of_self`, `Crew.plain_of_new`: what a move leaves of one of the
  tasks, and what a new one begins with.
* `Crew.keeps_of_turn`: what every errand keeps of the state and the errands that are left, every
  move of a crew keeps. `Crew.arises_by_turn`: what comes about there, an errand brings about.
* `Crew.legible_run`: the books can be read in every state that a run can reach. -/

namespace MailFetch

/-- **The scheduler with its tasks**: for each the errands that are left of it. -/
structure Crew where
  state : State
  tasks : List (List Errand) := []
deriving DecidableEq

/-- What happens next to a crew. -/
inductive CrewMove
  /-- The world becomes another one. -/
  | world (w : World)
  /-- An operation begins, as a task of its own. -/
  | begin (op : Operation)
  /-- The worker and the main loop are started. -/
  | start
  /-- A task does its next errand. -/
  | turn (i : Nat)
deriving DecidableEq

/-- Whether the worker, the main loop or a transfer over the web begins with an errand. -/
def Errand.isStart : Errand → Bool
  | .listen | .sweep | .loop | .fetch _ => true
  | _ => false

namespace Crew

/-- A scheduler that has just been made. -/
def fresh (w : World) : Crew := ⟨{ world := w }, []⟩

/-- **One move of a crew.** An errand that has to wait is not done. -/
def move (setup : Setup) (c : Crew) : CrewMove → Option Crew
  | .world w =>
    if c.state.world.now ≤ w.now then some { c with state := c.state.withWorld w } else none
  | .begin op => some ⟨op.state c.state, c.tasks ++ [op.errands c.state]⟩
  | .start => some { c with tasks := c.tasks ++ [[.listen], [.sweep, .loop]] }
  | .turn i =>
    match c.tasks[i]? with
    | some (e :: rest) =>
      if e.isHeldUp c.state then none
      else
        let t := e.perform setup c.state
        some ⟨t.state, c.tasks.set i (t.left rest) ++ t.started⟩
    | _ => none

/-- What a run of moves leads to. -/
def run (setup : Setup) : Crew → List CrewMove → Option Crew := follow (move setup)

/-- Nobody is at home at first, nor abroad. -/
theorem not_atHome_fresh (w : World) (r : Request) :
    ¬ (fresh w).state.AtHome (fresh w).tasks.flatten r := by
  rintro (hwaits | ⟨e, he, -⟩)
  · cases hwaits
  · cases he

theorem not_abroad_fresh (w : World) (r : Request) :
    ¬ (fresh w).state.Abroad (fresh w).tasks.flatten r := by
  rintro (hflies | ⟨e, he, -⟩)
  · cases hflies
  · cases he

variable {setup : Setup} {c c' : Crew}

/-- A turn of a task, with the tasks before it and after it. -/
theorem move_turn {i : Nat} (h : c.move setup (.turn i) = some c') :
    ∃ before e rest after, c.tasks[i]? = some (e :: rest) ∧
      c.tasks = before ++ (e :: rest) :: after ∧ e.isHeldUp c.state = false ∧
      c' = ⟨(e.perform setup c.state).state,
        before ++ (e.perform setup c.state).left rest :: after ++
          (e.perform setup c.state).started⟩ := by
  unfold move at h
  dsimp only at h
  split at h
  next e rest hi =>
    split_ifs at h with hheld
    obtain ⟨hlt, hget⟩ := List.getElem?_eq_some_iff.mp hi
    refine ⟨c.tasks.take i, e, rest, c.tasks.drop (i + 1), hi, ?_, by simpa using hheld, ?_⟩
    · rw [← hget, ← List.drop_eq_getElem_cons hlt, List.take_append_drop]
    · rw [← Option.some.inj h, List.set_eq_take_append_cons_drop, if_pos hlt]
  · cases h

/-- **What a turn does to all errands that are left**: those that the errand in hand leads to come
in place of it, and the others stay, unless its task collapses. Only transfers over the web begin
beside it. -/
theorem turn_errands {i : Nat} (h : c.move setup (.turn i) = some c') :
    ∃ e rest others, c.tasks[i]? = some (e :: rest) ∧ e.isHeldUp c.state = false ∧
      c'.state = (e.perform setup c.state).state ∧
      (∀ x, x ∈ c.tasks.flatten ↔ x ∈ e :: others) ∧
      (∀ x ∈ c'.tasks.flatten,
        x ∈ (e.perform setup c.state).next ++ others ∨ ∃ job, x = .fetch job) ∧
      ((e.perform setup c.state).collapses = false →
        ∀ x ∈ (e.perform setup c.state).next ++ others, x ∈ c'.tasks.flatten) := by
  obtain ⟨before, e, rest, after, hi, htasks, hheld, rfl⟩ := move_turn h
  refine ⟨e, rest, before.flatten ++ rest ++ after.flatten, hi, hheld, rfl, fun x => ?_,
    fun x hx => ?_, fun hstays x hx => ?_⟩
  · simp only [htasks, List.flatten_append, List.flatten_cons, List.mem_append, List.mem_cons]
    tauto
  · simp only [List.flatten_append, List.flatten_cons, List.mem_append] at hx ⊢
    rcases hx with (hx | hx | hx) | hx
    · tauto
    · exact .inl ((Turn.mem_left hx).imp_right fun hx => .inl (.inr hx))
    · tauto
    · obtain ⟨task, htask, hx⟩ := List.mem_flatten.mp hx
      obtain ⟨job, rfl⟩ := Errand.perform_started setup c.state e task htask
      exact .inr ⟨job, List.mem_singleton.mp hx⟩
  · simp only [List.flatten_append, List.flatten_cons, List.mem_append, Turn.left, hstays] at hx ⊢
    simp only [Bool.false_eq_true, if_false, List.mem_append]
    tauto

/-- **What a move of a crew can be**: the four kinds of it, and what each leads to. -/
theorem move_cases {m : CrewMove} (h : c.move setup m = some c') :
    (∃ w, m = .world w ∧ c' = { c with state := c.state.withWorld w }) ∨
      (∃ op, m = .begin op ∧ c' = ⟨op.state c.state, c.tasks ++ [op.errands c.state]⟩) ∨
      (m = .start ∧ c' = { c with tasks := c.tasks ++ [[.listen], [.sweep, .loop]] }) ∨
      ∃ i, m = .turn i := by
  cases m with
  | world w =>
    unfold move at h
    dsimp only at h
    split_ifs at h
    exact .inl ⟨w, rfl, (Option.some.inj h).symm⟩
  | begin op => exact .inr (.inl ⟨op, rfl, (Option.some.inj h).symm⟩)
  | start => exact .inr (.inr (.inl ⟨rfl, (Option.some.inj h).symm⟩))
  | turn i => exact .inr (.inr (.inr ⟨i, rfl⟩))

/-! ### One of the tasks -/

section Task

variable {i : Nat} {e : Errand} {rest : List Errand}

theorem mem_errands_of_task {task : List Errand} (hi : c.tasks[i]? = some task) (he : e ∈ task) :
    e ∈ c.tasks.flatten :=
  List.mem_flatten.mpr ⟨task, List.mem_of_getElem? hi, he⟩

/-- A task stays as it is while others do their errands. -/
theorem task_of_other {m : CrewMove} {task : List Errand} (hm : m ≠ .turn i)
    (h : c.move setup m = some c') (hi : c.tasks[i]? = some task) : c'.tasks[i]? = some task := by
  have hlt : i < c.tasks.length := (List.getElem?_eq_some_iff.mp hi).1
  rcases move_cases h with ⟨w, rfl, rfl⟩ | ⟨op, rfl, rfl⟩ | ⟨rfl, rfl⟩ | ⟨j, rfl⟩
  · exact hi
  · exact (List.getElem?_append_left hlt).trans hi
  · exact (List.getElem?_append_left hlt).trans hi
  · have hj : j ≠ i := fun hj => hm (hj ▸ rfl)
    unfold move at h
    dsimp only at h
    split at h
    next e rest _ =>
      split_ifs at h
      obtain rfl := Option.some.inj h
      dsimp only
      rw [List.getElem?_append_left (by rwa [List.length_set]), List.getElem?_set_ne hj]
      exact hi
    · cases h

/-- A task stays as it is in a run in which it has no turn. -/
theorem task_of_idle {moves : List CrewMove} {task : List Errand} (h : c.run setup moves = some c')
    (hidle : .turn i ∉ moves) (hi : c.tasks[i]? = some task) : c'.tasks[i]? = some task := by
  refine follow_keeps_of (P := fun u => u.tasks[i]? = some task) (Q := fun _ m => m ≠ .turn i)
    (fun _ _ _ hu hm hmove => task_of_other hm hmove hu) hi (fun earlier m later _ hmoves _ => ?_) h
  rintro rfl
  exact hidle (hmoves ▸ List.mem_append_right _ List.mem_cons_self)

/-- A task whose errand need not wait can have its turn. -/
theorem turn_of_free (setup : Setup) (hi : c.tasks[i]? = some (e :: rest))
    (hfree : e.isHeldUp c.state = false) : ∃ c', c.move setup (.turn i) = some c' := by
  simp only [move, hi, hfree, Bool.false_eq_true, if_false]
  exact ⟨_, rfl⟩

/-- What a turn leaves of its own task. -/
theorem task_of_self (hi : c.tasks[i]? = some (e :: rest)) (h : c.move setup (.turn i) = some c') :
    c'.state = (e.perform setup c.state).state ∧
      c'.tasks[i]? = some ((e.perform setup c.state).left rest) := by
  have hlt : i < c.tasks.length := (List.getElem?_eq_some_iff.mp hi).1
  unfold move at h
  simp only [hi] at h
  split_ifs at h
  obtain rfl := Option.some.inj h
  refine ⟨rfl, ?_⟩
  dsimp only
  rw [List.getElem?_append_left (by rwa [List.length_set]), List.getElem?_set_self hlt]

/-- A task that comes in a move begins with an operation, or is one of those that start. -/
theorem plain_of_new {m : CrewMove} {task : List Errand} (h : c.move setup m = some c')
    (hi : c.tasks[i]? = none) (hi' : c'.tasks[i]? = some task) (he : e ∈ task) :
    Operation.isFirst e = true ∨ e.isStart = true := by
  have hle : c.tasks.length ≤ i := List.getElem?_eq_none_iff.mp hi
  rcases move_cases h with ⟨w, rfl, rfl⟩ | ⟨op, rfl, rfl⟩ | ⟨rfl, rfl⟩ | ⟨j, rfl⟩
  · rw [show c.tasks[i]? = some task from hi'] at hi
    cases hi
  · rw [List.getElem?_append_right hle] at hi'
    rw [List.mem_singleton.mp (List.mem_of_getElem? hi')] at he
    exact .inl (Operation.isFirst_of_mem_errands he)
  · rw [List.getElem?_append_right hle] at hi'
    have hstart : ∀ l ∈ [[Errand.listen], [Errand.sweep, Errand.loop]], ∀ x ∈ l,
        x.isStart = true := by decide
    exact .inr (hstart task (List.mem_of_getElem? hi') e he)
  · obtain ⟨before, e', rest', after, -, htasks, -, rfl⟩ := move_turn h
    have hlen : (before ++ (e'.perform setup c.state).left rest' :: after).length ≤ i := by
      rw [htasks] at hle
      simpa using hle
    rw [List.getElem?_append_right hlen] at hi'
    obtain ⟨job, rfl⟩ := Errand.perform_started setup c.state e' task (List.mem_of_getElem? hi')
    rw [List.mem_singleton.mp he]
    exact .inr rfl

end Task

/-! ### What a move keeps -/

/-- **What a move keeps** of the state and the errands that are left: what the world, an operation
and the errand in hand keep, if the errands of tasks that start do not matter. -/
theorem keeps_of_turn {Q : State → List Errand → Prop}
    (hmem : ∀ {s es es'}, Q s es → (∀ e ∈ es', e ∈ es ∨ e.isStart = true) → Q s es')
    {m : CrewMove} (h : c.move setup m = some c') (hc : Q c.state c.tasks.flatten)
    (hworld : ∀ w, m = .world w → Q (c.state.withWorld w) c.tasks.flatten)
    (hbegin : ∀ op, m = .begin op → Q (op.state c.state) (c.tasks.flatten ++ op.errands c.state))
    (hturn : ∀ i e rest others, m = .turn i → c.tasks[i]? = some (e :: rest) →
      Q c.state (e :: others) →
        Q (e.perform setup c.state).state ((e.perform setup c.state).next ++ others)) :
    Q c'.state c'.tasks.flatten := by
  rcases move_cases h with ⟨w, rfl, rfl⟩ | ⟨op, rfl, rfl⟩ | ⟨rfl, rfl⟩ | ⟨i, rfl⟩
  · exact hworld w rfl
  · rw [List.flatten_append, List.flatten_singleton]
    exact hbegin op rfl
  · refine hmem hc fun e he => ?_
    rw [List.flatten_append] at he
    refine (List.mem_append.mp he).imp_right ?_
    simp only [List.flatten_cons, List.flatten_nil, List.append_nil, List.mem_append,
      List.mem_cons, List.not_mem_nil, or_false]
    rintro (rfl | rfl | rfl) <;> rfl
  · obtain ⟨e, rest, others, hi, -, hstate, htasks, hleft, -⟩ := turn_errands h
    rw [hstate]
    refine hmem (hturn i e rest others rfl hi (hmem hc fun x hx => .inl ((htasks x).mpr hx)))
      fun x hx => (hleft x hx).imp_right ?_
    rintro ⟨job, rfl⟩
    rfl

/-- **What a move brings about** of the state and the errands that are left, the errand in hand
does, if neither the world nor an operation that begins does, and the errands of tasks that start do
not matter. -/
theorem arises_by_turn {Q : State → List Errand → Prop}
    (hmem : ∀ {s es es'}, Q s es → (∀ e ∈ es, e ∈ es' ∨ e.isStart = true) → Q s es')
    (hworld : ∀ {s w es}, Q (State.withWorld s w) es → Q s es)
    (hbegin : ∀ {s op es}, Q (Operation.state s op) (es ++ Operation.errands s op) → Q s es)
    {m : CrewMove} (h : c.move setup m = some c') (hafter : Q c'.state c'.tasks.flatten) :
    Q c.state c.tasks.flatten ∨ ∃ i e rest others, m = .turn i ∧ c.tasks[i]? = some (e :: rest) ∧
      ¬ Q c.state (e :: others) ∧
        Q (e.perform setup c.state).state ((e.perform setup c.state).next ++ others) := by
  by_contra hnot
  rw [not_or] at hnot
  refine keeps_of_turn (Q := fun s es => ¬ Q s es) (fun hes hsub hes' => hes (hmem hes' hsub)) h
    hnot.1 (fun _ _ hw => hnot.1 (hworld hw)) (fun _ _ hop => hnot.1 (hbegin hop))
    (fun i e rest others hm hi hbefore hturn => ?_) hafter
  exact hnot.2 ⟨i, e, rest, others, hm, hi, hbefore, hturn⟩

/-! ### The books of a crew -/

/-- **The books can be read**: whoever waits or is in flight is found under its own number. -/
structure Legible (c : Crew) : Prop where
  matched : c.state.scheduler.queue.Matched
  filed : c.state.scheduler.flights.Filed

theorem legible_fresh (w : World) : (fresh w).Legible := ⟨Queue.matched_empty, .empty⟩

theorem legible_move {m : CrewMove} (hc : c.Legible) (h : c.move setup m = some c') :
    c'.Legible := by
  rcases move_cases h with ⟨w, rfl, rfl⟩ | ⟨op, rfl, rfl⟩ | ⟨rfl, rfl⟩ | ⟨i, rfl⟩
  · exact ⟨hc.matched, hc.filed⟩
  · refine ⟨?_, ?_⟩
    · rw [Operation.state_queue]
      exact hc.matched
    · rw [Operation.state_flights]
      exact hc.filed
  · exact ⟨hc.matched, hc.filed⟩
  · obtain ⟨before, e, rest, after, -, -, -, rfl⟩ := move_turn h
    exact ⟨Errand.perform_matched setup e hc.matched, Errand.perform_filed hc.filed⟩

theorem legible_run {w : World} {moves : List CrewMove} (h : (fresh w).run setup moves = some c) :
    c.Legible :=
  follow_keeps (fun _ _ _ => legible_move) (legible_fresh w) h

end Crew

end MailFetch

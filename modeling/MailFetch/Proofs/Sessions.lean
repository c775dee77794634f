import Mathlib.Data.List.Nodup
import Mathlib.Data.List.Perm.Subperm
import MailFetch.Proofs.Crew
import MailFetch.Proofs.Errand
import MailFetch.Session

/-! # Sessions are crews

A session serves its tasks in an order of its own, lets rounds and reviews in first come first
served, and stops its clock at every alarm. A crew leaves all of this open. So whatever a session
does, a crew can do as well, and what holds of every crew holds of every session.

* `Session.Reachable`: the sessions that can come about.
* `Session.Reachable.crew`: for each of them there is a run of a crew to the same state, with all
  tasks of the session under way. -/

namespace MailFetch

namespace Crew

variable {setup : Setup} {c c' c'' : Crew}

theorem run_append {moves moves' : List CrewMove} (h : c.run setup moves = some c')
    (h' : c'.run setup moves' = some c'') : c.run setup (moves ++ moves') = some c'' := by
  rw [run, follow_append h]
  exact h'

/-- The turn of a task that stands between others. -/
theorem turn_of_split {before after : List (List Errand)} {e : Errand} {rest : List Errand}
    (htasks : c.tasks = before ++ (e :: rest) :: after) (hheld : e.isHeldUp c.state = false) :
    c.run setup [.turn before.length] = some ⟨(e.perform setup c.state).state,
      before ++ (e.perform setup c.state).left rest :: after ++
        (e.perform setup c.state).started⟩ := by
  have hmove : c.move setup (.turn before.length) = some ⟨(e.perform setup c.state).state,
      before ++ (e.perform setup c.state).left rest :: after ++
        (e.perform setup c.state).started⟩ := by
    simp [move, hheld, htasks]
  rw [run, follow_cons hmove]
  rfl

end Crew

namespace Session

/-! ### Numbers of tasks -/

/-- Every task has a number of its own, and the next one is free. -/
structure Numbered (s : Session) : Prop where
  distinct : (s.tasks.map (·.id)).Nodup
  free : ∀ t ∈ s.tasks, t.id < s.nextTask

/-- What is left of the tasks, for each of them. -/
def errands (s : Session) : List (List Errand) := s.tasks.map (·.errands)

variable {s s' : Session}

theorem Numbered.addTask (h : s.Numbered) (es : List Errand) : (s.addTask es).Numbered where
  distinct := by
    unfold Session.addTask
    dsimp only
    rw [List.map_append, List.nodup_append]
    refine ⟨h.distinct, by simp, fun i hi j hj => ?_⟩
    obtain ⟨t, ht, rfl⟩ := List.mem_map.mp hi
    obtain rfl : j = s.nextTask := by simpa using hj
    exact Nat.ne_of_lt (h.free t ht)
  free t ht := by
    unfold Session.addTask at ht ⊢
    rcases List.mem_append.mp ht with ht | ht
    · exact Nat.lt_succ_of_lt (h.free t ht)
    · rw [List.mem_singleton.mp ht]
      exact Nat.lt_succ_self _

theorem Numbered.sub (h : s.Numbered) (htasks : s'.tasks.Sublist s.tasks)
    (hnext : s'.nextTask = s.nextTask) : s'.Numbered where
  distinct := (htasks.map _).nodup h.distinct
  free t ht := by
    rw [hnext]
    exact h.free t (htasks.mem ht)

theorem errands_addTask (es : List Errand) : (s.addTask es).errands = s.errands ++ [es] := by
  simp [errands, addTask]

theorem sublist_addTask (es : List Errand) :
    (s.addTask es).errands.Sublist (s.errands ++ [es]) := by
  rw [errands_addTask]

/-- A task between others, with a number that they do not have. -/
theorem Numbered.split (h : s.Numbered) {t : Task} (ht : t ∈ s.tasks) :
    ∃ before after, s.tasks = before ++ t :: after ∧ ∀ u ∈ before ++ after, u.id ≠ t.id := by
  obtain ⟨before, after, htasks⟩ := List.append_of_mem ht
  refine ⟨before, after, htasks, fun u hu heq => ?_⟩
  have hdistinct := h.distinct
  rw [htasks, List.map_append, List.map_cons, List.nodup_middle, List.nodup_cons] at hdistinct
  refine hdistinct.1 ?_
  rw [← List.map_append, ← heq]
  exact List.mem_map_of_mem hu

/-! ### A crew for a session -/

/-- **A crew keeps track of a session**: on some run it comes to the same state, and has all tasks
of the session under way. It may have others. -/
structure Tracked (setup : Setup) (w : World) (s : Session) : Prop where
  numbered : s.Numbered
  setup_eq : s.setup = setup
  crew : ∃ moves c, (Crew.fresh w).run s.setup moves = some c ∧ c.state = s.state ∧
    s.errands.Subperm c.tasks

variable {setup : Setup} {w : World}

/-- What a crew can do to stay on track. -/
theorem Tracked.follow (h : s.Tracked setup w) (hnumbered : s'.Numbered)
    (hsetup : s'.setup = s.setup)
    (hcrew : ∀ c : Crew, c.state = s.state → s.errands.Subperm c.tasks →
      ∃ moves c', c.run s.setup moves = some c' ∧ c'.state = s'.state ∧
        s'.errands.Subperm c'.tasks) : s'.Tracked setup w := by
  obtain ⟨moves, c, hrun, hstate, htasks⟩ := h.crew
  obtain ⟨moves', c', hrun', hstate', htasks'⟩ := hcrew c hstate htasks
  refine ⟨hnumbered, hsetup.trans h.setup_eq, moves ++ moves', c', ?_, hstate', htasks'⟩
  rw [hsetup]
  exact Crew.run_append hrun hrun'

/-- Tasks may end. -/
theorem Tracked.sub (h : s.Tracked setup w) (hsetup : s'.setup = s.setup)
    (hstate : s'.state = s.state)
    (htasks : s'.tasks.Sublist s.tasks) (hnext : s'.nextTask = s.nextTask) : s'.Tracked setup w :=
  h.follow (h.numbered.sub htasks hnext) hsetup fun c hc hsub =>
    ⟨[], c, rfl, by rw [hc, hstate], (htasks.map _).subperm.trans hsub⟩

theorem Tracked.wake (h : s.Tracked setup w) : s.wake.Tracked setup w := h.sub rfl rfl (.refl _) rfl

/-- An operation may begin, as a task of its own or for nothing. -/
theorem Tracked.begin (h : s.Tracked setup w) (op : Operation) (hnumbered : s'.Numbered)
    (hsetup : s'.setup = s.setup) (hstate : s'.state = op.state s.state)
    (htasks : s'.errands.Sublist (s.errands ++ [op.errands s.state])) : s'.Tracked setup w := by
  refine h.follow hnumbered hsetup fun c hc hsub => ?_
  refine ⟨[.begin op], ⟨op.state s.state, c.tasks ++ [op.errands s.state]⟩, ?_, hstate.symm, ?_⟩
  · rw [← hc]
    rfl
  · exact htasks.subperm.trans ((List.subperm_append_right _).mpr hsub)

/-! ### Turns -/

/-- Tasks that start beside another one come last. -/
theorem errands_foldl_startLast (tasks : List (List Errand)) (s : Session) :
    (tasks.foldl startLast s).errands = s.errands ++ tasks ∧
      (tasks.foldl startLast s).setup = s.setup ∧ (tasks.foldl startLast s).state = s.state := by
  induction tasks generalizing s with
  | nil => exact ⟨(List.append_nil _).symm, rfl, rfl⟩
  | cons es rest ih =>
    obtain ⟨herrands, hsetup, hstate⟩ := ih (s.startLast es)
    refine ⟨?_, hsetup, hstate⟩
    rw [List.foldl_cons, herrands]
    have hlast : (s.startLast es).errands = s.errands ++ [es] := errands_addTask es
    rw [hlast, List.append_assoc, List.singleton_append]

theorem Numbered.foldl_startLast (h : s.Numbered) (tasks : List (List Errand)) :
    (tasks.foldl startLast s).Numbered := by
  induction tasks generalizing s with
  | nil => exact h
  | cons es rest ih =>
    have hadd := h.addTask es
    exact ih ⟨hadd.distinct, hadd.free⟩

/-- Other errands for a task between others. -/
theorem tasks_setErrands {t : Task} {before after : List Task} (es : List Errand)
    (htasks : s.tasks = before ++ t :: after) (hothers : ∀ u ∈ before ++ after, u.id ≠ t.id) :
    (s.setErrands t.id es).tasks = before ++ ⟨t.id, es⟩ :: after := by
  have hkept : ∀ l : List Task, (∀ u ∈ l, u.id ≠ t.id) →
      l.map (fun u => if u.id = t.id then ⟨t.id, es⟩ else u) = l := by
    intro l hl
    rw [List.map_congr_left fun u hu => if_neg (hl u hu), List.map_id'']
    exact fun u => rfl
  unfold setErrands
  dsimp only
  rw [htasks, List.map_append, List.map_cons, if_pos rfl,
    hkept before fun u hu => hothers u (List.mem_append_left _ hu),
    hkept after fun u hu => hothers u (List.mem_append_right _ hu)]

theorem Numbered.setErrands (h : s.Numbered) (id : Nat) (es : List Errand) :
    (s.setErrands id es).Numbered := by
  have hids : (s.setErrands id es).tasks.map (·.id) = s.tasks.map (·.id) := by
    unfold Session.setErrands
    rw [List.map_map]
    refine List.map_congr_left fun t _ => ?_
    dsimp only [Function.comp]
    split_ifs with ht
    · exact ht.symm
    · rfl
  refine ⟨by rw [hids]; exact h.distinct, fun t ht => ?_⟩
  have hid : t.id ∈ s.tasks.map (·.id) := by
    rw [← hids]
    exact List.mem_map_of_mem ht
  obtain ⟨u, hu, hut⟩ := List.mem_map.mp hid
  rw [← hut]
  exact h.free u hu

/-- **A turn of a task** is a turn of a crew. -/
theorem Tracked.turn (h : s.Tracked setup w) {t : Task} {e : Errand} {rest : List Errand}
    (ht : t ∈ s.tasks) (herrands : t.errands = e :: rest) (hheld : e.isHeldUp s.state = false) :
    (s.turn t e rest).Tracked setup w := by
  obtain ⟨before, after, htasks, hothers⟩ := h.numbered.split ht
  let turn := e.perform s.setup s.state
  let done : Session :=
    { s with
      state := turn.state
      line := if e.needsRound then s.line.filter (· ≠ t.id) else s.line }
  have hdone : (done.setErrands t.id (turn.left rest)).tasks =
      before ++ ⟨t.id, turn.left rest⟩ :: after := tasks_setErrands _ htasks hothers
  obtain ⟨hstarted, hsetup, hstate⟩ :=
    errands_foldl_startLast turn.started (done.setErrands t.id (turn.left rest))
  have hnumbered : done.Numbered := ⟨h.numbered.distinct, h.numbered.free⟩
  have hturn : s.turn t e rest =
      (turn.started.foldl startLast (done.setErrands t.id (turn.left rest))).wake := rfl
  rw [hturn]
  refine Tracked.wake (h.follow ((hnumbered.setErrands _ _).foldl_startLast turn.started) hsetup ?_)
  intro c hc hsub
  have hsplit : s.errands = before.map (·.errands) ++ (e :: rest) :: after.map (·.errands) := by
    rw [errands, htasks, List.map_append, List.map_cons, herrands]
  obtain ⟨earlier, later, hcrew⟩ : ∃ earlier later, c.tasks = earlier ++ (e :: rest) :: later := by
    refine List.append_of_mem (hsub.subset ?_)
    rw [hsplit]
    simp
  have hothers' : (before.map (·.errands) ++ after.map (·.errands)).Subperm (earlier ++ later) := by
    rw [hsplit, hcrew, List.perm_middle.subperm_right, List.perm_middle.subperm_left,
      List.subperm_cons] at hsub
    exact hsub
  refine ⟨_, _, Crew.turn_of_split hcrew (by rw [hc]; exact hheld), ?_, ?_⟩
  · rw [hstate, hc]
    rfl
  · dsimp only
    rw [hstarted, errands, hdone, List.map_append, List.map_cons, hc]
    refine (List.subperm_append_right _).mpr ?_
    rw [List.perm_middle.subperm_right, List.perm_middle.subperm_left, List.subperm_cons]
    exact hothers'

/-- A task that has to wait steps back behind the others. -/
theorem Tracked.stepBack (h : s.Tracked setup w) {t : Task} (ht : t ∈ s.tasks) (e : Errand) :
    (s.stepBack t e).Tracked setup w := by
  obtain ⟨before, after, htasks, hothers⟩ := h.numbered.split ht
  have hperm : (s.stepBack t e).tasks.Perm s.tasks := by
    have hfilter : s.tasks.filter (fun u => u.id ≠ t.id) = before ++ after := by
      rw [htasks, List.filter_append, List.filter_cons_of_neg (by simp), ← List.filter_append]
      exact List.filter_eq_self.mpr fun u hu => by simpa using hothers u hu
    unfold Session.stepBack
    dsimp only
    rw [hfilter, htasks]
    exact (List.perm_append_singleton _ _).trans List.perm_middle.symm
  refine h.follow ⟨(hperm.map _).nodup_iff.mpr h.numbered.distinct, fun u hu => ?_⟩ rfl ?_
  · exact h.numbered.free u (hperm.mem_iff.mp hu)
  · intro c hc hsub
    exact ⟨[], c, rfl, hc, (hperm.map _).subperm.trans hsub⟩

/-- An alarm goes off: the watchdog ticks, or, if nobody is there any more, nothing happens. -/
theorem Tracked.goOff (h : s.Tracked setup w) {op : Operation} {a : Alarm}
    (herrands : op.errands s.state = [.tick a.timeout]) (hsetup : s'.setup = s.setup)
    (hstate : s'.state = op.state s.state) (htasks : s'.tasks = s.tasks)
    (hnext : s'.nextTask = s.nextTask) : (s'.goOff (some a)).Tracked setup w := by
  have hnumbered : s'.Numbered := h.numbered.sub (by rw [htasks]) hnext
  have hkept : s'.errands = s.errands := by rw [errands, htasks, errands]
  unfold Session.goOff
  dsimp only
  split_ifs
  · have hadd := hnumbered.addTask [.tick a.timeout]
    refine h.begin op ⟨hadd.distinct, hadd.free⟩ hsetup hstate ?_
    rw [herrands, ← hkept]
    exact sublist_addTask _
  · refine h.begin op hnumbered hsetup hstate ?_
    rw [hkept]
    exact List.sublist_append_left _ _

/-- **A turn of a session** is followed by moves of a crew. -/
theorem Tracked.step (h : s.Tracked setup w) (hstep : s.step = some s') : s'.Tracked setup w := by
  unfold Session.step at hstep
  split at hstep
  · cases hstep
  · dsimp only at hstep
    split_ifs at hstep with hdue <;> rw [← Option.some.inj hstep]
    · cases halarm : s.state.scheduler.alarm with
      | none => simp [halarm, isDue] at hdue
      | some a =>
        have herrands : Operation.errands s.state .alarm = [.tick a.timeout] := by
          simp [Operation.errands, halarm]
        exact h.goOff herrands rfl rfl rfl rfl
    · exact h.sub rfl rfl (.refl _) rfl
  · dsimp only at hstep
    split_ifs at hstep with hdue <;> rw [← Option.some.inj hstep]
    · cases halarm : s.second with
      | none => simp [halarm, isDue] at hdue
      | some a =>
        have herrands : Operation.errands s.state (.tick a.timeout) = [.tick a.timeout] := rfl
        exact h.goOff herrands rfl rfl rfl rfl
    · exact h.sub rfl rfl (.refl _) rfl
  · split at hstep
    · rw [← Option.some.inj hstep]
      exact h.sub rfl rfl (.refl _) rfl
    next t ht =>
      have hmem := List.mem_of_find?_eq_some ht
      split at hstep
      · rw [← Option.some.inj hstep]
        exact h.sub rfl rfl List.filter_sublist rfl
      · rw [← Option.some.inj hstep]
        exact h.sub rfl rfl List.filter_sublist rfl
      next e more _ herrands =>
        split_ifs at hstep with hgo <;> rw [← Option.some.inj hstep]
        · unfold canGo at hgo
          rw [Bool.and_eq_true, Bool.not_eq_true'] at hgo
          exact h.turn hmem herrands hgo.1
        · exact (h.stepBack hmem e).sub rfl rfl (.refl _) rfl

/-! ### What is done to a session -/

theorem Tracked.run (h : s.Tracked setup w) : s.run.Tracked setup w := by
  have hfor : ∀ fuel (s : Session), s.Tracked setup w → (runFor fuel s).Tracked setup w := by
    intro fuel
    induction fuel with
    | zero => exact fun s h => h
    | succ fuel ih =>
      intro s h
      unfold runFor
      cases hstep : s.step with
      | none => exact h
      | some s' => exact ih s' (h.step hstep)
  exact hfor patience _ h.wake

theorem Tracked.call (h : s.Tracked setup w) (op : Operation) (hop : op.state s.state = s.state) :
    (s.call (op.errands s.state)).2.Tracked setup w := by
  have hadd := h.numbered.addTask (op.errands s.state)
  have hstarted : (s.startFirst (op.errands s.state)).Tracked setup w :=
    h.begin op ⟨hadd.distinct, hadd.free⟩ rfl hop.symm (sublist_addTask _)
  exact hstarted.run.sub rfl rfl (.refl _) rfl

theorem Tracked.change (h : s.Tracked setup w) (op : Operation) {f : Scheduler → Scheduler}
    (hf : op.state s.state = { s.state with scheduler := f s.state.scheduler }) :
    (s.change f).Tracked setup w :=
  Tracked.run (h.begin op ⟨h.numbered.distinct, h.numbered.free⟩ rfl hf.symm
    (List.sublist_append_left _ _))

/-- The world may change, if its clock does not go back. -/
theorem Tracked.setWorld (h : s.Tracked setup w) {v : World} (hv : s.state.world.now ≤ v.now) :
    ({ s with state := { s.state with world := v } } : Session).Tracked setup w := by
  refine Tracked.follow h ⟨h.numbered.distinct, h.numbered.free⟩ rfl fun c hc hsub => ?_
  have hmove : c.move s.setup (.world v) = some ⟨c.state.withWorld v, c.tasks⟩ := by
    unfold Crew.move
    dsimp only
    rw [hc, if_pos hv]
  refine ⟨[.world v], ⟨c.state.withWorld v, c.tasks⟩, ?_, by rw [hc]; rfl, hsub⟩
  rw [Crew.run, follow_cons hmove]
  rfl

theorem Tracked.start (h : s.Tracked setup w) (hstart : s.start = some s') :
    s'.Tracked setup w := by
  unfold Session.start at hstart
  split at hstart
  · cases hstart
  · rw [← Option.some.inj hstart]
    have hnumbered := (h.numbered.addTask [.listen]).addTask [.sweep, .loop]
    refine Tracked.run
      (Tracked.follow h ⟨hnumbered.distinct, hnumbered.free⟩ rfl fun c hc hsub => ?_)
    refine ⟨[.start], ⟨c.state, c.tasks ++ [[.listen], [.sweep, .loop]]⟩, rfl, hc, ?_⟩
    have herrands : ((s.addTask [.listen]).addTask [.sweep, .loop]).errands =
        s.errands ++ [[.listen], [.sweep, .loop]] := by
      rw [errands_addTask, errands_addTask, List.append_assoc, List.singleton_append]
    exact herrands ▸ (List.subperm_append_right _).mpr hsub

/-! ### The clock -/

/-- The clock stands still during a turn. -/
theorem now_step (hstep : s.step = some s') : s'.state.world.now = s.state.world.now := by
  have hgoOff : ∀ (u : Session) (a : Option Alarm),
      (u.goOff a).state.world.now = u.state.world.now := by
    intro u a
    unfold goOff
    split
    · split_ifs <;> rfl
    · rfl
  unfold Session.step at hstep
  split at hstep
  · cases hstep
  · dsimp only at hstep
    split_ifs at hstep <;> rw [← Option.some.inj hstep]
    rw [hgoOff]
  · dsimp only at hstep
    split_ifs at hstep <;> rw [← Option.some.inj hstep]
    rw [hgoOff]
  · split at hstep
    · rw [← Option.some.inj hstep]
    next t ht =>
      split at hstep
      · rw [← Option.some.inj hstep]
        rfl
      · rw [← Option.some.inj hstep]
        rfl
      next e more _ herrands =>
        split_ifs at hstep <;> rw [← Option.some.inj hstep]
        · have hturn : (s.turn t e more).state = (e.perform s.setup s.state).state :=
            (errands_foldl_startLast _ _).2.2
          rw [hturn, (Errand.perform_frame s.setup s.state e).now]
        · rfl

theorem now_run (s : Session) : s.run.state.world.now = s.state.world.now := by
  have hfor : ∀ fuel (s : Session), (runFor fuel s).state.world.now = s.state.world.now := by
    intro fuel
    induction fuel with
    | zero => exact fun s => rfl
    | succ fuel ih =>
      intro s
      unfold runFor
      cases hstep : s.step with
      | none => rfl
      | some s' => exact (ih s').trans (now_step hstep)
  exact hfor patience _

theorem Tracked.advanceFor (fuel : Nat) {target : Nat} (h : s.Tracked setup w)
    (hle : s.state.world.now ≤ target) : (advanceFor fuel s target).Tracked setup w := by
  induction fuel generalizing s with
  | zero => exact Tracked.run (h.setWorld hle)
  | succ fuel ih =>
    unfold Session.advanceFor
    split
    · exact Tracked.run (h.setWorld hle)
    next t ht =>
      have htarget : t ≤ target := by
        have hmem := List.min?_mem ht
        simpa using (List.mem_filter.mp hmem).2
      refine ih (Tracked.run (h.setWorld (Nat.le_max_right _ _))) ?_
      rw [now_run]
      exact Nat.max_le.mpr ⟨htarget, hle⟩

theorem Tracked.advance (h : s.Tracked setup w) (nanos : Nat) : (s.advance nanos).Tracked setup w :=
  h.advanceFor _ (Nat.le_add_right _ _)

/-! ### Sessions that can come about -/

/-- **The sessions that can come about** over a world: a new one, and whatever comes of it by calls,
changes of the scheduler and the world, the clock, and the start of the worker and the main loop. -/
inductive Reachable (setup : Setup) (w : World) : Session → Prop
  | new : Reachable setup w (ofWorld setup w)
  | call {s : Session} (h : Reachable setup w s) (op : Operation)
      (hop : op.state s.state = s.state) : Reachable setup w (s.call (op.errands s.state)).2
  | change {s : Session} (h : Reachable setup w s) (op : Operation) (f : Scheduler → Scheduler)
      (hf : op.state s.state = { s.state with scheduler := f s.state.scheduler }) :
      Reachable setup w (s.change f)
  | changeWorld {s : Session} (h : Reachable setup w s) (f : World → World)
      (hf : s.state.world.now ≤ (f s.state.world).now) : Reachable setup w (s.changeWorld f)
  | advance {s : Session} (h : Reachable setup w s) (nanos : Nat) :
      Reachable setup w (s.advance nanos)
  | start {s s' : Session} (h : Reachable setup w s) (hstart : s.start = some s') :
      Reachable setup w s'
  | run {s : Session} (h : Reachable setup w s) : Reachable setup w s.run
  /-- A second watchdog is set, or taken away. -/
  | second {s : Session} (h : Reachable setup w s) (a : Option Alarm) :
      Reachable setup w { s with second := a }
  /-- Nobody but its own tasks holds on to the scheduler any more. -/
  | release {s : Session} (h : Reachable setup w s) : Reachable setup w { s with released := true }

theorem Reachable.tracked (h : Reachable setup w s) : s.Tracked setup w := by
  induction h with
  | new =>
    exact ⟨⟨List.nodup_nil, List.forall_mem_nil _⟩, rfl, [], Crew.fresh w, rfl, rfl,
      List.nil_subperm⟩
  | call _ op hop ih => exact ih.call op hop
  | change _ op f hf ih => exact ih.change op hf
  | changeWorld _ f hf ih => exact (ih.setWorld hf).run
  | advance _ nanos ih => exact ih.advance nanos
  | start _ hstart ih => exact ih.start hstart
  | run _ ih => exact ih.run
  | second _ a ih => exact ih.sub rfl rfl (.refl _) rfl
  | release _ ih => exact ih.sub rfl rfl (.refl _) rfl

/-- **A session is a crew at work**: a crew can come to the same state, with all tasks of the
session under way. -/
theorem Reachable.crew (h : Reachable setup w s) :
    ∃ moves c, (Crew.fresh w).run setup moves = some c ∧ c.state = s.state ∧
      (s.tasks.map (·.errands)).Subperm c.tasks := by
  obtain ⟨-, hsetup, hcrew⟩ := h.tracked
  rw [hsetup] at hcrew
  exact hcrew

end Session

end MailFetch

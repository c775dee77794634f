import MailFetch.Proofs.Crew
import MailFetch.Proofs.Purpose

/-! # Lineages

A request is made by an errand, waits, is taken off, is heard of, lands, is sent back and waits
again, until nothing of it is left. While tasks are interleaved, several requests for one attachment
may be there at a time, so a lineage cannot be told by its number; it is told by following one
request from move to move. What is counted along it are the reports whose progress was entered.

* `Errand.Makes`, `Errand.PassesOn`: where a request begins, and what becomes of it by an errand
  other than a report. `Errand.has_origin`: there is nothing else.
* `Crew.Lineage`: a request with its lineage: the reports that have been taken on it, and the
  moments at which progress was entered for it.
* `Crew.exists_lineage`: whatever request is there has a lineage.
* `Crew.Lineage.throttled`, `Crew.Lineage.entries_le`: what the two counters of a request say of its
  lineage. -/

namespace MailFetch

/-! ### The counters of a request -/

theorem Status.eq_inProgress {status : Status} (h : status.isTerminal = false) :
    status = .inProgress := by
  cases status <;> first | rfl | cases h

namespace Request

/-- **The progress of a report is entered** for a request: the report does not end the transfer, and
it has reached the percentage at which progress is next entered. -/
def Enters (r : Request) (report : Report) : Prop :=
  report.status.isTerminal = false ∧ r.nextPersisted ≤ report.percent

instance (r : Request) (report : Report) : Decidable (r.Enters report) :=
  inferInstanceAs (Decidable (_ ∧ _))

/-- **The last percentage is less than a step ahead** of the one that was entered. -/
def Throttled (r : Request) : Prop := r.progress < r.persisted + progressStep

/-- Two requests have come equally far. -/
structure SameProgress (r r' : Request) : Prop where
  id : r'.id = r.id
  progress : r'.progress = r.progress
  persisted : r'.persisted = r.persisted

variable {r r' : Request} {now : Nat} {report : Report}

theorem Throttled.of_counters (h : r.progress = 0 ∧ r.persisted = 0) : r.Throttled := by
  unfold Throttled
  rw [h.1, h.2]
  decide

theorem Throttled.of_sameProgress (h : r.Throttled) (hsame : r.SameProgress r') : r'.Throttled := by
  unfold Throttled
  rw [hsame.progress, hsame.persisted]
  exact h

theorem IsNextTry.sameProgress (h : r'.IsNextTry r) : r.SameProgress r' := by
  obtain ⟨_, _, _, rfl⟩ := h
  exact ⟨rfl, rfl, rfl⟩

theorem Throttled.heard (h : r.Throttled) :
    (r.heard now report.status report.percent).Throttled := by
  unfold Throttled Request.heard at *
  dsimp only
  split_ifs with hends hreached
  · exact h
  · exact Nat.lt_add_of_pos_right (by decide)
  · exact Nat.lt_of_lt_of_le (Nat.lt_of_not_le hreached) (Nat.min_le_left ..)

/-- What is entered is the percentage of the report. -/
theorem persisted_heard (r : Request) (now : Nat) (report : Report) :
    (r.heard now report.status report.percent).persisted =
      if r.Enters report then report.percent else r.persisted := by
  unfold Request.heard Enters
  dsimp only
  by_cases hends : report.status.isTerminal = true
  · simp [hends]
  · have hgoes : report.status.isTerminal = false := by simpa using hends
    simp only [hgoes, Bool.false_eq_true, if_false, true_and]
    rfl

end Request

/-! ### How a request goes on -/

namespace State

variable {s : State} {es es' : List Errand} {r : Request}

/-- **A request is there**, at home or abroad. -/
def Has (s : State) (es : List Errand) (r : Request) : Prop := s.AtHome es r ∨ s.Abroad es r

theorem Has.mono (h : s.Has es r) (hsub : ∀ e ∈ es, e ∈ es') : s.Has es' r :=
  h.imp (·.mono hsub) (·.mono hsub)

theorem Has.append (h : s.Has (es ++ es') r) :
    s.Has es r ∨ ∃ e ∈ es', r ∈ e.aside ∨ e.settling = some r := by
  rcases h with hhome | habroad
  · exact hhome.append.imp .inl fun ⟨e, he, hr⟩ => ⟨e, he, .inl hr⟩
  · exact habroad.append.imp .inr fun ⟨e, he, hr⟩ => ⟨e, he, .inr hr⟩

theorem Has.of_carried {e : Errand} (he : e ∈ es) (hr : r ∈ e.aside ∨ e.settling = some r) :
    s.Has es r :=
  hr.imp (fun hr => .inr ⟨e, he, hr⟩) fun hr => .inr ⟨e, he, hr⟩

/-- Errands that carry nothing do not matter. -/
theorem Has.of_mem (h : s.Has es r) (hsub : ∀ e ∈ es, e ∈ es' ∨ e.aside = [] ∧ e.settling = none) :
    s.Has es' r :=
  h.imp (·.of_mem fun e he => (hsub e he).imp_right And.left)
    (·.of_mem fun e he => (hsub e he).imp_right And.right)

end State

namespace Errand

variable {setup : Setup} {s : State} {e : Errand} {r r' : Request}

/-- **An errand makes a request**: for the queue, or to be taken off at once. -/
def Makes (setup : Setup) (s : State) (r : Request) (e : Errand) : Prop :=
  e.Enqueues setup s r ∨
    ∃ a rest, e = claim a rest ∧ r = (a.request .background s.world.now).dispatch s.world.now

/-- **What an errand makes of a request** that goes on, other than by a report: the request is taken
off, it lands, or its next try comes in its place. -/
inductive PassesOn (s : State) : Errand → Request → Request → Prop
  | takesOff (r : Request) (aside : List Request) :
      PassesOn s (screen r aside) r (r.dispatch s.world.now)
  | lands (r : Request) (status : Status) : PassesOn s (settle r.id status) r r.land
  | sendsBack {e : Errand} {r r' : Request} (hback : e.SendsBack s r) (hnext : r'.IsNextTry r) :
      PassesOn s e r r'

theorem PassesOn.sameProgress (h : e.PassesOn s r r') : r.SameProgress r' := by
  cases h with
  | takesOff => exact ⟨rfl, rfl, rfl⟩
  | lands => exact ⟨rfl, rfl, rfl⟩
  | sendsBack _ hnext => exact hnext.sameProgress

/-- What is made has neither progress nor an entry of it. -/
theorem Makes.counters (h : e.Makes setup s r) : r.progress = 0 ∧ r.persisted = 0 := by
  rcases h with henqueues | ⟨a, rest, -, rfl⟩
  · cases e with
    | review a =>
      obtain ⟨p, -, rfl⟩ := henqueues
      exact ⟨rfl, rfl⟩
    | _ => exact henqueues.elim
  · exact ⟨rfl, rfl⟩

/-- **Where a request comes from that is there after an errand**: it was there before, it was made,
something else became of one that was there, or a report was taken on one in flight. -/
theorem has_origin (hq : s.scheduler.queue.Matched) (hfiled : s.scheduler.flights.Filed)
    (h : (e.perform setup s).state.Has (e.perform setup s).next r) :
    s.Has [e] r ∨ e.Makes setup s r ∨ (∃ r₀, s.Has [e] r₀ ∧ e.PassesOn s r₀ r) ∨
      ∃ report r₀, e = hear report ∧ s.scheduler.flights.get? report.id = some r₀ ∧
        r = r₀.heard s.world.now report.status report.percent := by
  rcases h with hhome | hflies | ⟨x, hx, hr⟩
  · rcases atHome_origin hq hfiled hhome with hbefore | ⟨r₀, hback, hnext⟩ | hnew
    · exact .inl (.inl hbefore)
    · exact .inr (.inr (.inl ⟨r₀, .inr (hback.abroad hfiled), .sendsBack hback hnext⟩))
    · exact .inr (.inl (.inl hnew))
  · rcases flying_cases hfiled hflies with
      ⟨r₀, hr₀, rfl | ⟨report, rfl, hid, rfl⟩⟩ | ⟨onward, htaken⟩
    · exact .inl (.inr (.inl hr₀))
    · exact .inr (.inr (.inr ⟨report, r₀, rfl, hid ▸ hr₀, rfl⟩))
    · rcases taken_off htaken with ⟨r₀, aside, rfl, -, rfl, -⟩ | ⟨a, rest, rfl, -, rfl⟩
      · exact .inr (.inr (.inl ⟨r₀, .inl (.inr ⟨_, List.mem_singleton_self _, List.mem_cons_self⟩),
          .takesOff r₀ aside⟩))
      · exact .inr (.inl (.inr ⟨a, rest, rfl, rfl⟩))
  · obtain ⟨r₀, hr₀, rfl | ⟨rfl, status, he⟩⟩ := settling_cases hfiled hx hr
    · exact .inl (.inr hr₀)
    · subst he
      exact .inr (.inr (.inl ⟨r₀, .inr hr₀, .lands r₀ status⟩))

end Errand

/-! ### Lineages -/

namespace Crew

/-- A request is there, in the books or with one of the tasks. -/
def Has (c : Crew) (r : Request) : Prop := c.state.Has c.tasks.flatten r

/-- **A request with its lineage**, at a moment of a run: which reports have been taken on it or on
one that it comes from, and at which moments one of them was entered as progress, the latest first.
A moment is told by the moves before it. -/
inductive Lineage (setup : Setup) (w : World) :
    List CrewMove → Request → List Report → List (List CrewMove) → Prop
  /-- The request is made. -/
  | begins {moves : List CrewMove} {c c' : Crew} {i : Nat} {e : Errand} {rest : List Errand}
      {r : Request} (hrun : (fresh w).run setup moves = some c)
      (hi : c.tasks[i]? = some (e :: rest)) (hmove : c.move setup (.turn i) = some c')
      (hmakes : e.Makes setup c.state r) (hhas : c'.Has r) :
      Lineage setup w (moves ++ [.turn i]) r [] []
  /-- A move leaves the request as it is. -/
  | rests {moves : List CrewMove} {c c' : Crew} {m : CrewMove} {r : Request} {told : List Report}
      {entries : List (List CrewMove)} (before : Lineage setup w moves r told entries)
      (hrun : (fresh w).run setup moves = some c) (hmove : c.move setup m = some c')
      (hhas : c'.Has r) : Lineage setup w (moves ++ [m]) r told entries
  /-- The request is taken off, lands, or is sent back. -/
  | goesOn {moves : List CrewMove} {c c' : Crew} {i : Nat} {e : Errand} {rest : List Errand}
      {r r' : Request} {told : List Report} {entries : List (List CrewMove)}
      (before : Lineage setup w moves r told entries) (hrun : (fresh w).run setup moves = some c)
      (hi : c.tasks[i]? = some (e :: rest)) (hmove : c.move setup (.turn i) = some c')
      (hpasses : e.PassesOn c.state r r') (hhas : c'.Has r') :
      Lineage setup w (moves ++ [.turn i]) r' told entries
  /-- A report is taken on the request, and its progress is entered or not. -/
  | isHeardOf {moves : List CrewMove} {c c' : Crew} {i : Nat} {rest : List Errand}
      {report : Report} {r : Request} {told : List Report} {entries : List (List CrewMove)}
      (before : Lineage setup w moves r told entries) (hrun : (fresh w).run setup moves = some c)
      (hi : c.tasks[i]? = some (.hear report :: rest)) (hmove : c.move setup (.turn i) = some c')
      (hflies : c.state.scheduler.flights.get? report.id = some r)
      (hhas : c'.Has (r.heard c.state.world.now report.status report.percent)) :
      Lineage setup w (moves ++ [.turn i])
        (r.heard c.state.world.now report.status report.percent) (report :: told)
        (if r.Enters report then moves :: entries else entries)

variable {setup : Setup} {w : World} {moves : List CrewMove} {c : Crew} {r : Request}
  {told : List Report} {entries : List (List CrewMove)}

theorem not_has_fresh : ¬ (fresh w).Has r := by
  rintro (hhome | habroad)
  · exact not_atHome_fresh w r hhome
  · exact not_abroad_fresh w r habroad

/-- **Where a request comes from that is there after a turn.** -/
theorem has_origin_of_turn {c' : Crew} {i : Nat} (hc : c.Legible)
    (h : c.move setup (.turn i) = some c') (hr : c'.Has r) :
    ∃ e rest, c.tasks[i]? = some (e :: rest) ∧
      (c.Has r ∨ e.Makes setup c.state r ∨ (∃ r₀, c.Has r₀ ∧ e.PassesOn c.state r₀ r) ∨
        ∃ report r₀, e = .hear report ∧ c.Has r₀ ∧
          c.state.scheduler.flights.get? report.id = some r₀ ∧
            r = r₀.heard c.state.world.now report.status report.percent) := by
  obtain ⟨e, rest, others, hi, -, hstate, htasks, hleft, -⟩ := turn_errands h
  refine ⟨e, rest, hi, ?_⟩
  have hself : ∀ x ∈ [e], x ∈ c.tasks.flatten := fun x hx =>
    (htasks x).mpr (List.mem_singleton.mp hx ▸ List.mem_cons_self)
  have hafter :
      (e.perform setup c.state).state.Has ((e.perform setup c.state).next ++ others) r := by
    rw [Has, hstate] at hr
    refine hr.of_mem fun x hx => (hleft x hx).imp_right ?_
    rintro ⟨job, rfl⟩
    exact ⟨rfl, rfl⟩
  rcases hafter.append with hnext | ⟨x, hx, hcarries⟩
  · rcases Errand.has_origin hc.matched hc.filed hnext with
      hbefore | hmakes | ⟨r₀, hbefore, hpasses⟩ | ⟨report, r₀, rfl, hflies, rfl⟩
    · exact .inl (hbefore.mono hself)
    · exact .inr (.inl hmakes)
    · exact .inr (.inr (.inl ⟨r₀, hbefore.mono hself, hpasses⟩))
    · have hid := hc.filed _ _ hflies
      exact .inr (.inr (.inr ⟨report, r₀, rfl, .inr (.inl (hid ▸ hflies)), hflies, rfl⟩))
  · exact .inl (.of_carried ((htasks x).mpr (.tail _ hx)) hcarries)

/-- **Whatever request is there has a lineage.** -/
theorem exists_lineage (h : (fresh w).run setup moves = some c) (hr : c.Has r) :
    ∃ told entries, Lineage setup w moves r told entries := by
  induction moves using List.reverseRecOn generalizing c r with
  | nil =>
    obtain rfl := Option.some.inj h
    exact absurd hr not_has_fresh
  | append_singleton moves m ih =>
    obtain ⟨u, hu, hm⟩ := follow_concat_eq_some h
    have hrests : u.Has r → ∃ told entries, Lineage setup w (moves ++ [m]) r told entries := by
      intro hbefore
      obtain ⟨told, entries, hlineage⟩ := ih hu hbefore
      exact ⟨told, entries, .rests hlineage hu hm hr⟩
    rcases move_cases hm with ⟨w', rfl, rfl⟩ | ⟨op, rfl, rfl⟩ | ⟨rfl, rfl⟩ | ⟨i, rfl⟩
    · exact hrests hr
    · rw [Has, List.flatten_append, List.flatten_singleton] at hr
      exact hrests (hr.imp (Operation.atHome_begin _) (Operation.abroad_begin _))
    · refine hrests (State.Has.of_mem hr fun e he => ?_)
      rw [List.flatten_append] at he
      refine (List.mem_append.mp he).imp_right fun hnew => ?_
      have hcarries : ∀ x ∈ [[Errand.listen], [Errand.sweep, Errand.loop]].flatten,
          x.aside = [] ∧ x.settling = none := by decide
      exact hcarries e hnew
    · obtain ⟨e, rest, hi, hbefore | hmakes | ⟨r₀, hr₀, hpasses⟩ |
        ⟨report, r₀, rfl, hr₀, hflies, rfl⟩⟩ := has_origin_of_turn (legible_run hu) hm hr
      · exact hrests hbefore
      · exact ⟨[], [], .begins hu hi hm hmakes hr⟩
      · obtain ⟨told, entries, hlineage⟩ := ih hu hr₀
        exact ⟨told, entries, .goesOn hlineage hu hi hm hpasses hr⟩
      · obtain ⟨told, entries, hlineage⟩ := ih hu hr₀
        exact ⟨report :: told, _, .isHeardOf hlineage hu hi hm hflies hr⟩

namespace Lineage

/-- **The last percentage is less than a step ahead** of the one that was entered, all along. -/
theorem throttled (h : Lineage setup w moves r told entries) : r.Throttled := by
  induction h with
  | begins _ _ _ hmakes _ => exact .of_counters hmakes.counters
  | rests _ _ _ _ ih => exact ih
  | goesOn _ _ _ _ hpasses _ ih => exact ih.of_sameProgress hpasses.sameProgress
  | isHeardOf _ _ _ _ _ _ ih => exact ih.heard

/-- **Every entry is a step further than the one before it**, if no report claims more than all of
the transfer. -/
theorem entries_le (h : Lineage setup w moves r told entries)
    (hpercent : ∀ report ∈ told, report.status.isTerminal = false → report.percent ≤ 100) :
    progressStep * entries.length ≤ r.persisted ∧ r.persisted ≤ 100 := by
  induction h with
  | begins _ _ _ hmakes _ =>
    rw [hmakes.counters.2]
    decide
  | rests _ _ _ _ ih => exact ih hpercent
  | goesOn _ _ _ _ hpasses _ ih =>
    rw [hpasses.sameProgress.persisted]
    exact ih hpercent
  | @isHeardOf _ _ _ _ _ report r _ entries _ _ _ _ _ _ ih =>
    obtain ⟨hsteps, hle⟩ := ih fun x hx => hpercent x (.tail _ hx)
    rw [Request.persisted_heard]
    split_ifs with henters
    · obtain ⟨hgoes, hreached⟩ := henters
      have hall := hpercent report List.mem_cons_self hgoes
      unfold Request.nextPersisted progressStep at hreached
      unfold progressStep at hsteps ⊢
      rw [List.length_cons]
      omega
    · exact ⟨hsteps, hle⟩

end Lineage

end Crew

end MailFetch

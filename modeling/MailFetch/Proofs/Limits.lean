import MailFetch.Proofs.Aloft
import MailFetch.Proofs.Sessions

/-! # Limits of what is in flight

At no time are more requests in flight than the settings allow, in all or of one account, however
the tasks of a crew are interleaved; and when a download that nobody asked for has been taken off, a
place is left.

* `Crew.limits_kept`: the limits hold in every state that a run can reach.
* `Session.Reachable.limits`: they hold in every session.

Only a round brings requests into the air, and there is one round at a time. A request from the
queue is checked once more when it is taken off. A download that nobody asked for is not: two places
were free when its round looked ahead, and meanwhile the places can only have become more. -/

namespace MailFetch

/-! ### The limits -/

namespace Flights

/-- The limits of what is in flight. -/
structure Kept (limits : Settings) (f : Flights) : Prop where
  filed : f.Filed
  size_le : f.size ≤ limits.maxConcurrent
  countFor_le : ∀ account, f.countFor account ≤ limits.maxPerAccount

theorem Kept.within {limits : Settings} {f g : Flights} (h : g.Kept limits) (hw : f.Within g)
    (hf : f.Filed) : f.Kept limits where
  filed := hf
  size_le := Nat.le_trans hw.size_le h.size_le
  countFor_le account := Nat.le_trans (hw.countFor_le account) (h.countFor_le account)

/-- **A request may be taken off** if there is room for it, in all and for its account. -/
theorem Kept.insert {limits : Settings} {f : Flights} (h : f.Kept limits) {r : Request}
    (hsize : f.size < limits.maxConcurrent) (hacc : f.countFor r.account < limits.maxPerAccount) :
    (f.insert r).Kept limits where
  filed := h.filed.insert r
  size_le := by
    have hle := f.size_insert_le r
    omega
  countFor_le account := by
    have hle := f.countFor_insert_le r account
    split_ifs at hle with he
    · rw [← he] at hle ⊢
      omega
    · exact Nat.le_trans hle (h.countFor_le account)

end Flights

namespace Errand

variable {setup : Setup} {s : State} {e : Errand}

/-- Whether an errand may bring a request into the air. -/
def takesOff : Errand → Bool
  | screen _ _ | claim _ _ => true
  | _ => false

/-- **Only two errands bring anybody into the air.** -/
theorem perform_within (setup : Setup) (h : s.scheduler.flights.Filed) (he : e.takesOff = false) :
    (e.perform setup s).state.scheduler.flights.Within s.scheduler.flights := by
  intro id r hr
  rcases perform_aloft h hr with hbefore | ⟨r₀, h₀, -, haccount, -⟩ | ⟨onward, hnext, -, -⟩
  · exact ⟨r, hbefore, rfl⟩
  · exact ⟨r₀, h₀, haccount.symm⟩
  · rcases (perform_leads setup s e).of_handOver hnext with ⟨x, aside, now, rfl, -⟩ |
      ⟨a, rest, now, rfl, -⟩ <;> cases he

/-- **An errand keeps the limits**, if there are two places free where one claims a record. -/
theorem perform_kept (h : s.scheduler.flights.Kept setup.settings)
    (hspare : ∀ a rest, e = claim a rest →
      s.scheduler.flights.size + 2 ≤ setup.settings.maxConcurrent) :
    (e.perform setup s).state.scheduler.flights.Kept setup.settings := by
  cases he : e.takesOff with
  | false => exact h.within (perform_within setup h.filed he) (perform_filed h.filed)
  | true =>
    cases e with
    | screen r aside =>
      rcases flights_screen setup s r aside with heq | ⟨hsize, hacc, heq, -⟩
      · rw [perform, heq]
        exact h
      · rw [perform, heq]
        exact h.insert hsize hacc
    | claim a rest =>
      have hfree := hspare a rest rfl
      rcases flights_claim setup s a rest with ⟨heq, -⟩ | ⟨hacc, heq, -⟩
      · rw [perform, heq]
        exact h
      · rw [perform, heq]
        exact h.insert (by omega) hacc
    | _ => cases he

/-- **After a claim a place is free**, if two were before it. -/
theorem size_claim_lt {a : Attachment} {rest : List Attachment}
    (hspare : s.scheduler.flights.size + 2 ≤ setup.settings.maxConcurrent) :
    ((claim a rest).perform setup s).state.scheduler.flights.size <
      setup.settings.maxConcurrent := by
  rcases flights_claim setup s a rest with ⟨heq, -⟩ | ⟨-, heq, -⟩
  · rw [perform, heq]
    omega
  · rw [perform, heq]
    have hle := s.scheduler.flights.size_insert_le
      ((a.request .background s.world.now).dispatch s.world.now)
    omega

/-! ### The round under way -/

/-- Whether an errand is the one of a round that lets no other round in until it is done. -/
def holdsRound : Errand → Bool
  | takeNext _ | screen _ _ | handOver _ (.queue _) | landed _ _ (.queue _) | putBack _
  | endRound => true
  | _ => false

/-- Whether an errand looks for a download that nobody asked for, and two places were free when it
began. -/
def hasCleared : Errand → Bool
  | browse | consider _ | vet _ _ | budget _ (.round _ _) | share _ _ (.round _ _)
  | claim _ _ => true
  | _ => false

/-- Whether an errand looks for a download that nobody asked for. -/
def scouts (e : Errand) : Bool := e == lookAhead || e.hasCleared

/-- The number of rounds that an errand keeps, begins and ends. -/
theorem Leads.countP_holdsRound {l : List Errand} (hl : e.Leads l) :
    l.countP holdsRound + (e == endRound).toNat ≤
      e.holdsRound.toNat + (e == beginRound).toNat := by
  cases e with
  | beginRound =>
    rw [show l = _ from hl]
    decide
  | takeNext aside => rcases hl with rfl | ⟨r, rfl | rfl⟩ <;> exact Nat.le_refl 1
  | screen r aside => rcases hl with rfl | rfl | rfl | ⟨now, rfl⟩ <;> exact Nat.le_refl 1
  | handOver r onward =>
    obtain ⟨accepted, rfl | ⟨report, rfl⟩⟩ := hl <;> cases onward <;> exact Nat.le_refl _
  | landed r accepted onward =>
    rcases hl with ⟨rfl, rfl⟩ | ⟨aside, rfl, rfl | rfl⟩ <;> exact Nat.le_refl _
  | putBack aside => rcases hl with rfl | rfl <;> exact Nat.le_refl 1
  | endRound =>
    rw [show l = _ from hl]
    decide
  | _ =>
    have hnone : l.countP holdsRound = 0 := by
      refine List.countP_eq_zero.mpr fun x hx => ?_
      grind [Leads, LeadsOn, holdsRound]
    rw [hnone]
    exact Nat.zero_le _

/-- Apart from the one that puts requests back, an errand leads to scouts only if it is one. -/
theorem Leads.countP_scouts {l : List Errand} (hl : e.Leads l) (he : ∀ aside, e ≠ putBack aside) :
    l.countP scouts ≤ e.scouts.toNat := by
  cases e with
  | putBack aside => exact absurd rfl (he aside)
  | lookAhead => rcases hl with rfl | rfl <;> decide
  | browse => rcases hl with rfl | ⟨found, rfl⟩ <;> exact Nat.le_of_ble_eq_true rfl
  | consider candidates =>
    rcases hl with rfl | ⟨a, rest, -, rfl⟩ <;> exact Nat.le_of_ble_eq_true rfl
  | vet a rest =>
    rcases hl with rfl | rfl | rfl | ⟨account, rfl⟩ <;> exact Nat.le_refl 1
  | budget account asker =>
    rcases hl with (⟨rfl, yes, rfl⟩ | ⟨a, rest, rfl, rfl | rfl⟩) | ⟨total, rfl⟩
    · exact Nat.le_refl 0
    · exact Nat.le_refl 1
    · exact Nat.le_refl 1
    · cases asker <;> exact Nat.le_refl _
  | share account total asker =>
    rcases hl with ⟨rfl, yes, rfl⟩ | ⟨a, rest, rfl, rfl | rfl⟩
    · exact Nat.le_refl 0
    · exact Nat.le_refl 1
    · exact Nat.le_refl 1
  | claim a rest => rcases hl with rfl | ⟨now, rfl⟩ <;> exact Nat.le_of_ble_eq_true rfl
  | _ =>
    have hnone : l.countP scouts = 0 := by
      refine List.countP_eq_zero.mpr fun x hx => ?_
      grind [Leads, scouts, hasCleared]
    rw [hnone]
    exact Nat.zero_le _

/-- A scout that has found two places free comes from one, or from the look ahead. -/
theorem Leads.hasCleared {l : List Errand} (hl : e.Leads l) {x : Errand} (hx : x ∈ l)
    (hc : x.hasCleared = true) : e.hasCleared = true ∨ e = lookAhead := by
  cases e with
  | budget account asker => cases asker <;> grind [Leads, LeadsOn, Errand.hasCleared]
  | _ => grind [Leads, LeadsOn, Errand.hasCleared]

/-- A round that goes on to look for more has found two places free. -/
theorem spare_of_lookAhead (h : (doLookAhead setup s).next ≠ []) :
    s.scheduler.flights.size + 2 ≤ setup.settings.maxConcurrent := by
  unfold doLookAhead at h
  split_ifs at h with hroom
  · exact absurd rfl h
  · exact absurd rfl h
  · omega

/-- **Two places are free for a scout** that an errand leads to, if they were for the errand. -/
theorem spare_of_next (h : s.scheduler.flights.Filed)
    (hspare : e.hasCleared = true →
      s.scheduler.flights.size + 2 ≤ setup.settings.maxConcurrent) {x : Errand}
    (hx : x ∈ (e.perform setup s).next) (hcleared : x.hasCleared = true) :
    (e.perform setup s).state.scheduler.flights.size + 2 ≤ setup.settings.maxConcurrent := by
  have hleads := perform_leads setup s e
  cases he : e.takesOff with
  | false =>
    have hle := (perform_within setup h he).size_le
    rcases hleads.hasCleared hx hcleared with hscout | rfl
    · have hfree := hspare hscout
      omega
    · have hfree : s.scheduler.flights.size + 2 ≤ setup.settings.maxConcurrent :=
        spare_of_lookAhead (List.ne_nil_of_mem hx)
      omega
  | true =>
    cases e with
    | screen r aside => rcases hleads.hasCleared hx hcleared with hscout | hscout <;> cases hscout
    | claim a rest =>
      rcases flights_claim setup s a rest with ⟨heq, -⟩ | ⟨-, -, hnext⟩
      · rw [perform, heq]
        exact hspare rfl
      · rw [perform, hnext] at hx
        rw [List.mem_singleton.mp hx] at hcleared
        cases hcleared
    | _ => cases he

/-! ### Scouts and the end of their round -/

/-- Every scout of a task has an end of a round after it, one for each scout from there on. -/
def Covered : List Errand → Prop
  | [] => True
  | e :: rest =>
    (e.scouts = true → rest.countP scouts < rest.countP (· == endRound)) ∧ Covered rest

theorem covered_cons {rest : List Errand} : Covered (e :: rest) ↔
    (e.scouts = true → rest.countP scouts < rest.countP (· == endRound)) ∧ Covered rest := Iff.rfl

theorem Covered.countP_le {l : List Errand} (h : Covered l) :
    l.countP scouts ≤ l.countP (· == endRound) := by
  induction l with
  | nil => exact Nat.le_refl 0
  | cons e rest ih =>
    rw [List.countP_cons, List.countP_cons]
    have hrest := ih h.2
    by_cases hs : e.scouts = true
    · have hlt := h.1 hs
      rw [if_pos hs]
      omega
    · rw [if_neg hs]
      omega

theorem covered_of_no_scouts {l : List Errand} (h : ∀ x ∈ l, x.scouts = false) : Covered l := by
  induction l with
  | nil => trivial
  | cons x rest ih =>
    refine ⟨fun hx => ?_, ih fun y hy => h y (.tail _ hy)⟩
    rw [h x List.mem_cons_self] at hx
    cases hx

theorem Covered.append {l rest : List Errand} (h : Covered rest)
    (hc : l.countP scouts + rest.countP scouts ≤ rest.countP (· == endRound)) :
    Covered (l ++ rest) := by
  induction l with
  | nil => exact h
  | cons e l ih =>
    rw [List.countP_cons] at hc
    rw [List.cons_append, covered_cons]
    refine ⟨fun he => ?_, ih (by omega)⟩
    rw [if_pos he] at hc
    rw [List.countP_append, List.countP_append]
    omega

/-- **What is left of a task is covered** if the task was. -/
theorem Covered.left {t : Turn} {rest : List Errand} (h : Covered (e :: rest))
    (hl : e.Leads t.next) : Covered (t.left rest) := by
  unfold Turn.left
  split_ifs
  · trivial
  · by_cases hputBack : ∃ aside, e = putBack aside
    · obtain ⟨aside, rfl⟩ := hputBack
      have hrest := h.2.countP_le
      rcases hl with hnext | hnext <;> rw [hnext]
      · rw [List.singleton_append, covered_cons]
        exact ⟨nofun, h.2⟩
      · rw [List.cons_append, List.singleton_append, covered_cons, covered_cons]
        refine ⟨fun _ => ?_, nofun, h.2⟩
        rw [List.countP_cons_of_neg (by decide), List.countP_cons_of_pos (by decide)]
        omega
    · have hnext := hl.countP_scouts fun aside he => hputBack ⟨aside, he⟩
      refine h.2.append ?_
      cases hs : e.scouts with
      | true =>
        have := h.1 hs
        rw [hs, Bool.toNat_true] at hnext
        omega
      | false =>
        have := h.2.countP_le
        rw [hs, Bool.toNat_false] at hnext
        omega

/-- What an operation begins with has nothing to do with a round under way. -/
theorem plain_of_isFirst (h : Operation.isFirst e = true) :
    e.holdsRound = false ∧ e.scouts = false := by
  cases e with
  | budget account asker =>
    cases asker with
    | caller => exact ⟨rfl, rfl⟩
    | round a rest => cases h
  | review _ | applyNotice _ _ | sweep | beginRound | hear _ | tick _ => exact ⟨rfl, rfl⟩
  | _ => cases h

/-- A task that keeps no round has no scouts. -/
theorem Covered.scouts_eq_false {task : List Errand} (h : Covered task)
    (hround : task.countP holdsRound = 0) : ∀ x ∈ task, x.scouts = false := by
  have hends : task.countP (· == endRound) ≤ task.countP holdsRound := by
    refine List.countP_mono_left fun x _ hx => ?_
    rw [eq_of_beq hx]
    rfl
  have hscouts := h.countP_le
  intro x hx
  have hzero : task.countP scouts = 0 := by omega
  simpa using List.countP_eq_zero.mp hzero x hx

/-- **Whoever takes a request off keeps the round**, and nobody after it in its task scouts. -/
theorem Covered.of_takesOff {rest : List Errand} (h : Covered (e :: rest))
    (he : e.takesOff = true) (hround : (e :: rest).countP holdsRound ≤ 1) :
    (e :: rest).countP holdsRound = 1 ∧ ∀ x ∈ rest, x.scouts = false := by
  have hends : rest.countP (· == endRound) ≤ rest.countP holdsRound := by
    refine List.countP_mono_left fun x _ hx => ?_
    rw [eq_of_beq hx]
    rfl
  cases e with
  | screen r aside =>
    rw [List.countP_cons_of_pos rfl] at hround ⊢
    exact ⟨by omega, h.2.scouts_eq_false (by omega)⟩
  | claim a others =>
    have hlt := h.1 rfl
    rw [List.countP_cons_of_neg (by simp [holdsRound])] at hround ⊢
    have hzero : rest.countP scouts = 0 := by omega
    exact ⟨by omega, fun x hx => by simpa using List.countP_eq_zero.mp hzero x hx⟩
  | _ => cases he

end Errand

namespace Crew

variable {setup : Setup} {c c' : Crew}

/-- **The invariant of a crew**: the limits are kept, at most one round is under way, and as long as
a scout that found two places free is about, two places are free. -/
structure Bounded (setup : Setup) (c : Crew) : Prop where
  kept : c.state.scheduler.flights.Kept setup.settings
  rounds : c.tasks.flatten.countP Errand.holdsRound ≤ c.state.scheduler.inRound.toNat
  covered : ∀ task ∈ c.tasks, Errand.Covered task
  spare : ∀ task ∈ c.tasks, ∀ e ∈ task, e.hasCleared = true →
    c.state.scheduler.flights.size + 2 ≤ setup.settings.maxConcurrent

theorem bounded_fresh (setup : Setup) (w : World) : (fresh w).Bounded setup where
  kept := ⟨.empty, Nat.zero_le _, fun _ => Nat.zero_le _⟩
  rounds := Nat.zero_le _
  covered := List.forall_mem_nil _
  spare := List.forall_mem_nil _

/-- Tasks that have nothing to do with a round may join. -/
theorem Bounded.add (h : c.Bounded setup) {s : State} {tasks : List (List Errand)}
    (hflights : s.scheduler.flights = c.state.scheduler.flights)
    (hround : s.scheduler.inRound = c.state.scheduler.inRound)
    (hnew : ∀ task ∈ tasks, ∀ e ∈ task, e.holdsRound = false ∧ e.scouts = false) :
    Bounded setup ⟨s, c.tasks ++ tasks⟩ where
  kept := by
    rw [hflights]
    exact h.kept
  rounds := by
    have hnone : tasks.flatten.countP Errand.holdsRound = 0 := by
      refine List.countP_eq_zero.mpr fun e he => ?_
      obtain ⟨task, htask, he⟩ := List.mem_flatten.mp he
      simp [(hnew task htask e he).1]
    rw [List.flatten_append, List.countP_append, hnone, hround]
    exact h.rounds
  covered task htask := by
    rcases List.mem_append.mp htask with htask | htask
    · exact h.covered task htask
    · exact Errand.covered_of_no_scouts fun e he => (hnew task htask e he).2
  spare task htask e he hcleared := by
    rw [hflights]
    rcases List.mem_append.mp htask with htask | htask
    · exact h.spare task htask e he hcleared
    · have hscouts := (hnew task htask e he).2
      rw [Errand.scouts, hcleared, Bool.or_true] at hscouts
      cases hscouts

/-- A turn leaves at most one round under way. -/
theorem rounds_turn {before after : List (List Errand)} {e : Errand} {rest : List Errand}
    {s : State} (hheld : e.isHeldUp s = false)
    (h : (before ++ (e :: rest) :: after).flatten.countP Errand.holdsRound ≤
      s.scheduler.inRound.toNat) :
    (before ++ (e.perform setup s).left rest :: after).flatten.countP Errand.holdsRound ≤
      (e.perform setup s).state.scheduler.inRound.toNat := by
  have hleads := (Errand.perform_leads setup s e).countP_holdsRound
  have hleft : ((e.perform setup s).left rest).countP Errand.holdsRound ≤
      (e.perform setup s).next.countP Errand.holdsRound + rest.countP Errand.holdsRound := by
    unfold Turn.left
    split_ifs
    · exact Nat.zero_le _
    · exact Nat.le_of_eq List.countP_append
  have hcons : (e :: rest).countP Errand.holdsRound =
      e.holdsRound.toNat + rest.countP Errand.holdsRound := by
    rw [List.countP_cons, Nat.add_comm]
    cases e.holdsRound <;> rfl
  simp only [List.flatten_append, List.flatten_cons, List.countP_append] at h ⊢
  by_cases htouch : e.touchesRound = false
  · rw [(Errand.perform_frame setup s e).inRound htouch]
    have hbegin : (e == .beginRound) = false := by cases e <;> first | rfl | cases htouch
    rw [hbegin, Bool.toNat_false] at hleads
    omega
  · cases e with
    | beginRound =>
      have hfree : s.scheduler.inRound = false := hheld
      have hbegun : (Errand.beginRound.perform setup s).state.scheduler.inRound = true := rfl
      rw [hfree, Bool.toNat_false] at h
      rw [hbegun, Bool.toNat_true]
      have hone : Errand.beginRound.holdsRound.toNat +
          (Errand.beginRound == .beginRound).toNat = 1 := rfl
      omega
    | endRound =>
      have hended : (Errand.endRound.perform setup s).state.scheduler.inRound = false := rfl
      rw [hended, Bool.toNat_false]
      have hle := Bool.toNat_le s.scheduler.inRound
      have hone : (Errand.endRound == .endRound).toNat = 1 := rfl
      have hzero : (Errand.endRound == .beginRound).toNat = 0 := rfl
      omega
    | _ => exact absurd rfl htouch

/-- While a task is about to take a request off, nobody else scouts. -/
theorem Bounded.no_scouts (h : c.Bounded setup) {before after : List (List Errand)} {e : Errand}
    {rest : List Errand} (htasks : c.tasks = before ++ (e :: rest) :: after)
    (he : e.takesOff = true) :
    ∀ task ∈ before ++ rest :: after, ∀ x ∈ task, x.scouts = false := by
  have hrounds := Nat.le_trans h.rounds (Bool.toNat_le _)
  simp only [htasks, List.flatten_append, List.flatten_cons, List.countP_append] at hrounds
  have hcovered := h.covered
  rw [htasks] at hcovered
  obtain ⟨hone, hrest⟩ :=
    (hcovered (e :: rest) (by simp)).of_takesOff he (by omega)
  -- The other tasks keep no round, so they have no scouts.
  have hothers : ∀ task, task ∈ before ∨ task ∈ after → ∀ x ∈ task, x.scouts = false := by
    intro task htask
    refine (hcovered task ?_).scouts_eq_false ?_
    · rcases htask with htask | htask <;> simp [htask]
    · have hle : ∀ l : List (List Errand), task ∈ l →
          task.countP Errand.holdsRound ≤ l.flatten.countP Errand.holdsRound := fun l hl =>
        (List.sublist_flatten_of_mem hl).countP_le
      rcases htask with htask | htask
      · have := hle before htask
        omega
      · have := hle after htask
        omega
  intro task htask
  rcases List.mem_append.mp htask with htask | htask
  · exact hothers task (.inl htask)
  · rcases List.mem_cons.mp htask with rfl | htask
    · exact hrest
    · exact hothers task (.inr htask)

/-- A turn leaves two places free for whoever scouts after it. -/
theorem spare_turn (h : c.Bounded setup) {before after : List (List Errand)} {e : Errand}
    {rest : List Errand} (htasks : c.tasks = before ++ (e :: rest) :: after) {task : List Errand}
    (htask : task ∈ before ++ (e.perform setup c.state).left rest :: after) {x : Errand}
    (hx : x ∈ task) (hcleared : x.hasCleared = true) :
    (e.perform setup c.state).state.scheduler.flights.size + 2 ≤ setup.settings.maxConcurrent := by
  have hspare := h.spare
  rw [htasks] at hspare
  have hwhere : x ∈ (e.perform setup c.state).next ∨
      ∃ task' ∈ before ++ rest :: after, x ∈ task' := by
    rcases List.mem_append.mp htask with hbefore | hmore
    · exact .inr ⟨task, by simp [hbefore], hx⟩
    · rcases List.mem_cons.mp hmore with rfl | hafter
      · exact (Turn.mem_left hx).imp_right fun hrest => ⟨rest, by simp, hrest⟩
      · exact .inr ⟨task, by simp [hafter], hx⟩
  rcases hwhere with hnext | ⟨task', htask', hx'⟩
  · have hbefore := hspare (e :: rest) (by simp) e List.mem_cons_self
    exact Errand.spare_of_next h.kept.filed hbefore hnext hcleared
  · cases he : e.takesOff with
    | false =>
      have hle := (Errand.perform_within setup h.kept.filed he).size_le
      have hfree : c.state.scheduler.flights.size + 2 ≤ setup.settings.maxConcurrent := by
        rcases List.mem_append.mp htask' with hbefore | hmore
        · exact hspare task' (by simp [hbefore]) x hx' hcleared
        · rcases List.mem_cons.mp hmore with rfl | hafter
          · exact hspare (e :: task') (by simp) x (.tail _ hx') hcleared
          · exact hspare task' (by simp [hafter]) x hx' hcleared
      omega
    | true =>
      have hscouts := h.no_scouts htasks he task' htask' x hx'
      rw [Errand.scouts, hcleared, Bool.or_true] at hscouts
      cases hscouts

/-- **A turn keeps the invariant.** -/
theorem bounded_turn {i : Nat} (h : c.Bounded setup) (hmove : c.move setup (.turn i) = some c') :
    c'.Bounded setup := by
  obtain ⟨before, e, rest, after, -, htasks, hheld, rfl⟩ := move_turn hmove
  have hrounds := h.rounds
  have hcovered := h.covered
  rw [htasks] at hrounds hcovered
  have hturn : Bounded setup ⟨(e.perform setup c.state).state,
      before ++ (e.perform setup c.state).left rest :: after⟩ := by
    refine ⟨?_, rounds_turn hheld hrounds, fun task htask => ?_, fun task htask x hx hx' =>
      spare_turn h htasks htask hx hx'⟩
    · refine Errand.perform_kept h.kept fun a others he => ?_
      exact h.spare (e :: rest) (by simp [htasks]) e List.mem_cons_self (by rw [he]; rfl)
    · rcases List.mem_append.mp htask with hbefore | hmore
      · exact hcovered task (by simp [hbefore])
      · rcases List.mem_cons.mp hmore with rfl | hafter
        · exact (hcovered (e :: rest) (by simp)).left (Errand.perform_leads setup c.state e)
        · exact hcovered task (by simp [hafter])
  refine hturn.add rfl rfl fun task htask x hx => ?_
  obtain ⟨job, rfl⟩ := Errand.perform_started setup c.state e task htask
  rw [List.mem_singleton.mp hx]
  exact ⟨rfl, rfl⟩

theorem bounded_move {m : CrewMove} (h : c.Bounded setup) (hmove : c.move setup m = some c') :
    c'.Bounded setup := by
  rcases move_cases hmove with ⟨w, rfl, rfl⟩ | ⟨op, rfl, rfl⟩ | ⟨rfl, rfl⟩ | ⟨i, rfl⟩
  · exact ⟨h.kept, h.rounds, h.covered, h.spare⟩
  · refine h.add (op.state_flights _) (op.state_inRound _) fun task htask e he => ?_
    rw [List.mem_singleton.mp htask] at he
    exact Errand.plain_of_isFirst (Operation.isFirst_of_mem_errands he)
  · exact h.add rfl rfl (by decide)
  · exact bounded_turn h hmove

theorem bounded_run {w : World} {moves : List CrewMove}
    (h : (fresh w).run setup moves = some c) : c.Bounded setup :=
  follow_keeps (fun _ _ _ => bounded_move) (bounded_fresh setup w) h

/-- While an errand keeps a round, a round is under way. -/
theorem Bounded.inRound_of_holdsRound (h : c.Bounded setup) {e : Errand}
    (he : e ∈ c.tasks.flatten) (hholds : e.holdsRound = true) :
    c.state.scheduler.inRound = true := by
  have hpos : 0 < c.tasks.flatten.countP Errand.holdsRound :=
    List.countP_pos_iff.mpr ⟨e, he, hholds⟩
  have hrounds := h.rounds
  cases hround : c.state.scheduler.inRound with
  | true => rfl
  | false =>
    rw [hround, Bool.toNat_false] at hrounds
    omega

/-- **The limits are kept** in every state that a crew can reach, however its tasks are interleaved:
no more than `maxConcurrent` requests are in flight, of no account more than `maxPerAccount`, and
right after a task has claimed a record that nobody asked for, one of the `maxConcurrent` places is
still free. -/
theorem limits_kept (setup : Setup) (w : World) (moves : List CrewMove)
    (h : (fresh w).run setup moves = some c) :
    c.state.scheduler.flights.size ≤ setup.settings.maxConcurrent ∧
      (∀ account, c.state.scheduler.flights.countFor account ≤ setup.settings.maxPerAccount) ∧
      ∀ i a others rest c', c.tasks[i]? = some (.claim a others :: rest) →
        c.move setup (.turn i) = some c' →
        c'.state.scheduler.flights.size < setup.settings.maxConcurrent := by
  have hbounded := bounded_run h
  refine ⟨hbounded.kept.size_le, hbounded.kept.countFor_le, ?_⟩
  intro i a others rest c' htask hmove
  obtain ⟨before, e, more, after, hi, -, -, rfl⟩ := move_turn hmove
  obtain ⟨rfl, rfl⟩ : Errand.claim a others = e ∧ rest = more := by
    simpa using htask.symm.trans hi
  exact Errand.size_claim_lt
    (hbounded.spare _ (List.mem_of_getElem? hi) _ List.mem_cons_self rfl)

/-- A world with one inline part, which nobody asked for. -/
def idleWorld : World where
  records := .ofSeed
    { accounts := [{ id := 1 }]
      attachments := [{ id := 1, message := 10, account := 1, contentId := some "part" }] }

/-- A round up to the moment at which it claims the part, while another task reports. -/
def scoutingRound : List CrewMove :=
  [.begin .round, .turn 0, .turn 0, .begin (.report ⟨10, 1, .success, 100⟩), .turn 0, .turn 0,
    .turn 1, .turn 0, .turn 0, .turn 0]

theorem limits_kept_scouting :
    ∃ c c', (fresh idleWorld).run {} scoutingRound = some c ∧ c.move {} (.turn 0) = some c' ∧
      c'.state.scheduler.flights.contains 1 = true ∧ c'.state.scheduler.flights.size < 2 :=
  ⟨_, _, rfl, rfl, rfl,
    (limits_kept {} idleWorld scoutingRound rfl).2.2 0 _ _ _ _ rfl rfl⟩

end Crew

variable {setup : Setup} {w : World} {s : Session}

/-- **No session exceeds the limits** of what is in flight. -/
theorem Session.Reachable.limits (h : s.Reachable setup w) :
    s.state.scheduler.flights.size ≤ setup.settings.maxConcurrent ∧
      ∀ account, s.state.scheduler.flights.countFor account ≤ setup.settings.maxPerAccount := by
  obtain ⟨moves, c, hrun, hstate, -⟩ := h.crew
  have hkept := (Crew.bounded_run hrun).kept
  rw [hstate] at hkept
  exact ⟨hkept.size_le, hkept.countFor_le⟩

end MailFetch

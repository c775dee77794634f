import MailFetch.Proofs.DelayedRetry
import MailFetch.Proofs.Purpose

/-! # Requests that vanish

A request that is sent back should wait for its next try, or be given up if it has used up its
retries, and then this is reported. But the queue takes in no negative number. A change of a record
with such a number is refused there, so that no request for it waits; a round that looks for a
download nobody asked for takes the number as it finds it. So a request with a negative number can
be in flight. When it is sent back the queue refuses it, it has retries left, and nobody is told.

* `State.AccountsFor`: a request that is sent back waits again, or is given up.
* `State.OutcastsNew`: requests with negative numbers are never at home; those abroad have had no
  retry, and nobody asked for them. `Crew.outcastsNew_run`: so it is in every state that a run can
  reach.
* `Crew.accounted_for_iff`: which requests are accounted for. `Crew.vanishes`: one that is not.
* `Crew.givenUp_of_neg`: no request with a negative number is ever given up, if there are retries at
  all. -/

namespace MailFetch

namespace Request

variable {r x : Request}

theorem isNextTry_of_rejoining {limits : Settings} {now : Nat}
    (h : r.rejoining limits now = some x) : x.IsNextTry r := by
  unfold rejoining at h
  split_ifs at h
  rw [← Option.some.inj h]
  exact r.isNextTry_retryCopy now

theorem IsNextTry.of_land (h : x.IsNextTry r.land) : x.IsNextTry r := h

end Request

/-! ### Who is sent back -/

/-- **A request that is sent back is accounted for**: it waits for its next try, with one more
retry, or it is reported as given up. -/
def State.AccountsFor (before after : State) (r : Request) : Prop :=
  (∃ x, after.scheduler.queue.index.get? r.id = some x ∧ x.IsNextTry r ∧
      x.retries.toNat = r.retries.toNat + 1) ∨
    after.givenUp r.id = before.givenUp r.id + 1

namespace Errand

variable {setup : Setup} {s : State} {e : Errand} {r x : Request}

/-- **Who waits after a request has been sent back** is its next try. -/
theorem isNextTry_of_sendsBack (hfiled : s.scheduler.flights.Filed) (h : e.SendsBack s r)
    (hx : (e.perform setup s).state.scheduler.queue.index.get? r.id = some x) :
    x.IsNextTry r := by
  have hback := perform_returned setup hfiled h
  cases e with
  | landed y accepted onward =>
    obtain ⟨rfl, hr⟩ := h
    change (s.breakOff setup y.id).scheduler.queue.index.get? r.land.id = some x at hx
    rw [State.breakOff_scheduler, Scheduler.breakOff_of_some _ _ _ hr,
      Scheduler.get?_requeue_self] at hx
    exact (Request.isNextTry_of_rejoining hx).of_land
  | settle id status =>
    obtain ⟨rfl, hr⟩ := h
    obtain rfl := hfiled _ _ hr
    rw [get?_settle_connectionError setup hr (hback.again x hx).2.2] at hx
    split_ifs at hx
    rw [← Option.some.inj hx]
    exact ⟨_, _, _, rfl⟩
  | askParent y record =>
    obtain ⟨rfl, m, hm⟩ := h
    rw [perform, doAskParent, hm] at hx
    simp only [State.ring_queue, State.requeue_scheduler, Scheduler.get?_requeue_self] at hx
    exact Request.isNextTry_of_rejoining hx
  | tick timeout =>
    obtain ⟨hrunning, hr, hmem⟩ := h
    rw [perform, queue_tick timeout hrunning,
      (Scheduler.breakOffAll_self _ _ _ hfiled hmem hr).1] at hx
    exact (Request.isNextTry_of_rejoining hx).of_land
  | _ => exact h.elim

/-- **A request is accounted for** where it has used up its retries, or the queue takes it in; if
only its count does not wrap around. -/
theorem accountsFor_iff (hq : s.scheduler.queue.Matched) (hfiled : s.scheduler.flights.Filed)
    (h : e.SendsBack s r) :
    s.AccountsFor (e.perform setup s).state r ↔
      (0 ≤ r.id ∨ setup.settings.maxRetries.toNat ≤ r.retries.toNat) ∧
        r.retries.toNat + 1 < UInt32.size := by
  have hgiven := givenUp_of_sendsBack setup hfiled h
  have hcount := r.toNat_retries_countRetry
  constructor
  · rintro (⟨x, hx, -, hretries⟩ | hone)
    · -- Whoever waits has a number that the queue takes in, and its count has not wrapped around.
      have hlt := x.retries.toNat_lt_size
      have hpos := ((perform_matched setup e hq).listed r.id x hx).2.1
      exact ⟨.inl hpos, by omega⟩
    · rw [hone] at hgiven
      split_ifs at hgiven with hover
      · rw [UInt32.lt_iff_toNat_lt, hcount] at hover
        split_ifs at hover with hwraps
        · exact ⟨.inr (by omega), hwraps⟩
        · omega
      · omega
  · rintro ⟨hkept, hwraps⟩
    rw [if_pos hwraps] at hcount
    by_cases hover : setup.settings.maxRetries < r.countRetry.retries
    · rw [if_pos hover] at hgiven
      exact .inr hgiven
    · have hleft := UInt32.not_lt.mp hover
      have hpos : 0 ≤ r.id := by
        refine hkept.resolve_right fun hused => ?_
        have hle := UInt32.le_iff_toNat_le.mp hleft
        omega
      obtain ⟨x, hx⟩ := Queue.contains_iff.mp
        ((perform_returned setup hfiled h).waits hpos hleft)
      obtain ⟨_, _, _, rfl⟩ := isNextTry_of_sendsBack hfiled h hx
      exact .inl ⟨_, hx, ⟨_, _, _, rfl⟩, hcount⟩

end Errand

/-! ### Requests with negative numbers -/

/-- **Requests with negative numbers**: none is at home, and those abroad have had no retry, and
nobody asked for them. -/
structure State.OutcastsNew (s : State) (es : List Errand) : Prop where
  home : ∀ r, s.AtHome es r → 0 ≤ r.id
  abroad : ∀ r, s.Abroad es r → r.id < 0 → r.retries = 0 ∧ r.priority = .background

/-- Errands that carry nothing do not matter. -/
theorem State.OutcastsNew.of_mem {s : State} {es es' : List Errand} (h : s.OutcastsNew es)
    (hsub : ∀ e ∈ es', e ∈ es ∨ e.aside = [] ∧ e.settling = none) : s.OutcastsNew es' where
  home r hr := h.home r (hr.of_mem fun e he => (hsub e he).imp_right And.left)
  abroad r hr := h.abroad r (hr.of_mem fun e he => (hsub e he).imp_right And.right)

namespace Errand

variable {setup : Setup} {s : State} {e : Errand} {others : List Errand} {r : Request}

/-- Whoever has just been taken off with a negative number is the request for a record that has been
claimed. -/
theorem new_of_taken (hs : s.OutcastsNew [e]) {onward : Onward}
    (h : handOver r onward ∈ (e.perform setup s).next) (hneg : r.id < 0) :
    r.retries = 0 ∧ r.priority = .background := by
  rcases taken_off h with ⟨r₀, aside, rfl, -, rfl, -⟩ | ⟨a, rest, -, -, rfl⟩
  · have hpos : 0 ≤ r₀.id := hs.home r₀ (.inr ⟨_, List.mem_cons_self, List.mem_cons_self⟩)
    exact absurd hpos (Int.not_le.mpr hneg)
  · exact ⟨rfl, rfl⟩

/-- **Every errand leaves requests with negative numbers as they are**, or makes a new one. -/
theorem perform_outcastsNew (hq : s.scheduler.queue.Matched) (hfiled : s.scheduler.flights.Filed)
    (hs : s.OutcastsNew (e :: others)) :
    (e.perform setup s).state.OutcastsNew ((e.perform setup s).next ++ others) := by
  have hself : s.OutcastsNew [e] := hs.of_mem fun x hx =>
    .inl (by rw [List.mem_singleton.mp hx]; exact List.mem_cons_self)
  refine ⟨fun r hr => ?_, fun r hr hneg => ?_⟩
  · rcases hr.append with (hwaits | ⟨x, hx, haside⟩) | ⟨x, hx, haside⟩
    · exact ((perform_matched setup e hq).listed r.id r hwaits).2.1
    · exact hself.home r (aside_perform hq hx haside)
    · exact hs.home r (.inr ⟨x, .tail _ hx, haside⟩)
  · rcases hr.append with hnext | ⟨x, hx, hsettling⟩
    · by_cases htaken : ∃ onward, handOver r onward ∈ (e.perform setup s).next
      · exact new_of_taken hself htaken.choose_spec hneg
      · -- One origin has its retries, the other one its purpose; both were abroad.
        obtain ⟨r₀, hr₀, hid, hretries⟩ := (perform_abroad hfiled hnext).resolve_right htaken
        obtain ⟨r₁, hr₁, hpurpose⟩ := (abroad_origin hfiled hnext).resolve_right htaken
        rw [← hretries, ← Request.priority_eq_of_purpose hpurpose]
        exact ⟨(hself.abroad r₀ hr₀ (by omega)).1,
          (hself.abroad r₁ hr₁ (by rw [Request.id_eq_of_purpose hpurpose]; exact hneg)).2⟩
    · exact hs.abroad r (.inr ⟨x, .tail _ hx, hsettling⟩) hneg

end Errand

namespace Crew

variable {setup : Setup} {c c' : Crew}

theorem outcastsNew_move {m : CrewMove} (hc : c.Legible)
    (hnew : c.state.OutcastsNew c.tasks.flatten) (h : c.move setup m = some c') :
    c'.state.OutcastsNew c'.tasks.flatten := by
  refine keeps_of_turn (Q := State.OutcastsNew) (fun hes hsub => hes.of_mem fun e he => ?_) h hnew
    (fun w _ => ⟨hnew.home, hnew.abroad⟩) (fun op _ => ⟨fun r hr => ?_, fun r hr => ?_⟩)
    (fun i e rest others _ _ => Errand.perform_outcastsNew hc.matched hc.filed)
  · exact (hsub e he).imp_right fun hstart => (Errand.isIdle_of_isStart hstart).1
  · exact hnew.home r (Operation.atHome_begin _ hr)
  · exact hnew.abroad r (Operation.abroad_begin _ hr)

theorem outcastsNew_fresh (w : World) :
    (fresh w).state.OutcastsNew (fresh w).tasks.flatten where
  home r hr := absurd hr (not_atHome_fresh w r)
  abroad r hr := absurd hr (not_abroad_fresh w r)

/-- **Requests with negative numbers are abroad only, on their first try**, in every state that a
run can reach. -/
theorem outcastsNew_run {w : World} {moves : List CrewMove}
    (h : (fresh w).run setup moves = some c) : c.state.OutcastsNew c.tasks.flatten :=
  (follow_keeps (P := fun u : Crew => u.Legible ∧ u.state.OutcastsNew u.tasks.flatten)
    (fun _ _ _ hu hm => ⟨legible_move hu.1 hm, outcastsNew_move hu.1 hu.2 hm⟩)
    ⟨legible_fresh w, outcastsNew_fresh w⟩ h).2

/-- Whoever is sent back with a negative number was on the first try, and nobody asked for it. -/
theorem new_of_sendsBack {i : Nat} {e : Errand} {rest : List Errand} {r : Request}
    (hc : c.Legible) (hnew : c.state.OutcastsNew c.tasks.flatten)
    (hi : c.tasks[i]? = some (e :: rest)) (hback : e.SendsBack c.state r) (hneg : r.id < 0) :
    r.retries = 0 ∧ r.priority = .background := by
  refine hnew.abroad r ((hback.abroad hc.filed).mono fun x hx => ?_) hneg
  rw [List.mem_singleton.mp hx]
  exact mem_errands_of_task hi List.mem_cons_self

/-- **Nobody hears of a request with a negative number**: none is ever given up, if there are
retries at all. -/
theorem givenUp_of_neg {w : World} {moves : List CrewMove} {id : Int} (hneg : id < 0)
    (hmax : setup.settings.maxRetries ≠ 0) (h : (fresh w).run setup moves = some c) :
    c.state.givenUp id = 0 := by
  refine (follow_keeps (P := fun u : Crew => (u.Legible ∧ u.state.OutcastsNew u.tasks.flatten) ∧
    u.state.givenUp id = 0) (fun u m u' hu hm => ?_)
    ⟨⟨legible_fresh w, outcastsNew_fresh w⟩, rfl⟩ h).2
  obtain ⟨⟨hlegible, hnew⟩, hzero⟩ := hu
  refine ⟨⟨legible_move hlegible hm, outcastsNew_move hlegible hnew hm⟩, ?_⟩
  rcases move_cases hm with ⟨w, rfl, rfl⟩ | ⟨op, rfl, rfl⟩ | ⟨rfl, rfl⟩ | ⟨i, rfl⟩
  · exact hzero
  · exact (State.givenUp_congr id (Operation.state_log u.state op)).trans hzero
  · exact hzero
  · obtain ⟨e, rest, -, hi, -, hstate, -⟩ := turn_errands hm
    rw [hstate]
    by_cases hback : ∃ r, e.SendsBack u.state r ∧ r.id = id
    · obtain ⟨r, hr, rfl⟩ := hback
      have hfirst := (new_of_sendsBack hlegible hnew hi hr hneg).1
      have hone : r.countRetry.retries = 1 := by
        rw [Request.countRetry, hfirst]
        rfl
      have hleft : ¬ setup.settings.maxRetries < r.countRetry.retries := by
        rw [hone, UInt32.lt_one_iff]
        exact hmax
      rw [Errand.givenUp_of_sendsBack setup hlegible.filed hr, if_neg hleft]
      exact hzero
    · rw [Errand.givenUp_of_not_sendsBack setup hlegible.filed fun r hr hid => hback ⟨r, hr, hid⟩]
      exact hzero

/-- **Who is accounted for.** However the tasks of a crew are interleaved, and whatever the records
are, a request that an errand sends back, because its start was refused, its connection failed, its
message is there after all or nothing was heard of it, then waits with one more retry or is given
up, exactly if its number is not negative or there are no retries; only the count must not wrap
around. Whoever has a negative number has been taken off by a round, unasked, and is on the first
try. -/
theorem accounted_for_iff (setup : Setup) (w : World) (moves : List CrewMove) (i : Nat) (e : Errand)
    (rest : List Errand) (r : Request) (hrun : (fresh w).run setup moves = some c)
    (hi : c.tasks[i]? = some (e :: rest)) (hmove : c.move setup (.turn i) = some c')
    (hback : e.SendsBack c.state r) :
    (c.state.AccountsFor c'.state r ↔
        (0 ≤ r.id ∨ setup.settings.maxRetries = 0) ∧ r.retries.toNat + 1 < UInt32.size) ∧
      (r.id < 0 → r.retries = 0 ∧ r.priority = .background) := by
  have hlegible := legible_run hrun
  have hnew := new_of_sendsBack hlegible (outcastsNew_run hrun) hi hback
  refine ⟨?_, hnew⟩
  rw [(task_of_self hi hmove).1, Errand.accountsFor_iff hlegible.matched hlegible.filed hback]
  refine and_congr_left fun _ => ?_
  by_cases hpos : 0 ≤ r.id
  · simp [hpos]
  · rw [(hnew (Int.not_le.mp hpos)).1, ← UInt32.le_iff_toNat_le, UInt32.le_zero_iff]

/-- A part that a round claimed, and whose start is refused, waits again. -/
theorem accounted_for_iff_refused : ∃ c c' r rest,
    (fresh reluctantWorld).run {} refusedClaim = some c ∧
      c.tasks[0]? = some (.landed r false .done :: rest) ∧
      c.move {} (.turn 0) = some c' ∧ c.state.AccountsFor c'.state r := by
  obtain ⟨c, c', r, rest, hrun, hi, hmove, hback, hid, hretries⟩ :
      ∃ c c' r rest, (fresh reluctantWorld).run {} refusedClaim = some c ∧
        c.tasks[0]? = some (.landed r false .done :: rest) ∧ c.move {} (.turn 0) = some c' ∧
        (Errand.landed r false .done).SendsBack c.state r ∧ r.id = 1 ∧ r.retries = 0 :=
    ⟨_, _, _, _, rfl, rfl, rfl, ⟨rfl, rfl⟩, rfl, rfl⟩
  refine ⟨c, c', r, rest, hrun, hi, hmove,
    (accounted_for_iff {} reluctantWorld refusedClaim 0 _ rest r hrun hi hmove hback).1.mpr ?_⟩
  rw [hid, hretries]
  decide

/-! ### One that vanishes -/

/-- **No request vanishes**: whoever is sent back is accounted for right afterwards. -/
def NoneVanishes (setup : Setup) (w : World) : Prop :=
  ∀ moves c c' i e rest r, (fresh w).run setup moves = some c → c.tasks[i]? = some (e :: rest) →
    c.move setup (.turn i) = some c' → e.SendsBack c.state r → c.state.AccountsFor c'.state r

/-- The world of the reluctant carrier, with a part under a negative number. -/
def outcastWorld : World where
  records := .ofSeed
    { accounts := [{ id := 1 }]
      attachments := [{ id := -1, message := 10, account := 1, contentId := some "part" }] }
  carrier := .noting 1 none

/-- **A request vanishes.** A round claims the part, and its start is refused. Then nothing is in
flight and nothing waits, and nothing has been given up. -/
theorem vanishes : ¬ NoneVanishes {} outcastWorld ∧
    ∃ c c' r rest, (fresh outcastWorld).run {} refusedClaim = some c ∧
      c.tasks[0]? = some (.landed r false .done :: rest) ∧ r.id = -1 ∧
      c.state.scheduler.flights.get? (-1) = some r ∧ c.move {} (.turn 0) = some c' ∧
      c'.state.scheduler.flights.get? (-1) = none ∧
      c'.state.scheduler.queue.index.get? (-1) = none ∧ c'.state.givenUp (-1) = 0 := by
  obtain ⟨c, c', r, rest, hrun, hi, hid, hr, hmove, hlanded, hgone, hbefore, hafter⟩ :
      ∃ c c' r rest, (fresh outcastWorld).run {} refusedClaim = some c ∧
        c.tasks[0]? = some (.landed r false .done :: rest) ∧ r.id = -1 ∧
        c.state.scheduler.flights.get? (-1) = some r ∧ c.move {} (.turn 0) = some c' ∧
        c'.state.scheduler.flights.get? (-1) = none ∧
        c'.state.scheduler.queue.index.get? (-1) = none ∧ c.state.givenUp (-1) = 0 ∧
        c'.state.givenUp (-1) = 0 :=
    ⟨_, _, _, _, rfl, rfl, rfl, rfl, rfl, rfl, rfl, rfl, rfl⟩
  refine ⟨fun hnone => ?_, c, c', r, rest, hrun, hi, hid, hr, hmove, hlanded, hgone, hafter⟩
  rcases hnone refusedClaim c c' 0 _ rest r hrun hi hmove ⟨rfl, by rw [hid]; exact hr⟩ with
    ⟨x, hx, -⟩ | hgiven
  · rw [hid, hgone] at hx
    cases hx
  · rw [hid, hbefore, hafter] at hgiven
    cases hgiven

end Crew

end MailFetch

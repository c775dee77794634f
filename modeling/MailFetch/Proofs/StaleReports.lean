import MailFetch.Proofs.Aloft
import MailFetch.Proofs.GivingUp

/-! # Reports of transfers that are over

A transfer that has been broken off is not told so, and may still report. A report names its
attachment and nothing else: whether it is heard depends on whether a request for the attachment is
in flight, not on who sends it.

The attempts to transfer an attachment are the calls of the carrier for it, in their order; an
attempt is over once its attachment has been out of the air since the call.

* `Crew.stale_report_ignored`: a report of an attempt that is over changes nothing, unless the
  attachment has been taken off anew since, and is in flight.
* `Crew.not_ignores_stale`: then it counts as a report of the new attempt. -/

namespace MailFetch

/-! ### Attempts -/

/-- The carrier's answer, if an event is a call for the transfer of an attachment. -/
def Event.answerFor (id : Int) : Event → Option Bool
  | start r accepted => if r.id = id then some accepted else none
  | _ => none

/-- **The attempts to transfer an attachment**, the first one first: one for each call of the
carrier, with its answer. -/
def State.attempts (s : State) (id : Int) : List Bool :=
  (s.log.filterMap fun l => l.event.answerFor id).reverse

namespace Errand

/-- Whether an errand takes a report on an attachment. -/
def reports (id : Int) : Errand → Bool
  | hear report => report.id == id
  | settle j _ => j == id
  | _ => false

variable {setup : Setup} {s : State} {e : Errand} {id : Int}

/-- **A report on an attachment that is not in flight is ignored.** -/
theorem perform_of_grounded (he : e.reports id = true)
    (hground : s.scheduler.flights.contains id = false) : e.perform setup s = { state := s } := by
  have hnone := Flights.contains_eq_false_iff.mp hground
  cases e with
  | hear report =>
    obtain rfl : report.id = id := by simpa [reports] using he
    simp only [perform, doHear, hnone]
  | settle j status =>
    obtain rfl : j = id := by simpa [reports] using he
    simp only [perform, doSettle, hnone]
  | _ => cases he

theorem isHeldUp_of_reports (he : e.reports id = true) : e.isHeldUp s = false := by
  cases e <;> first | rfl | cases he

/-- An attachment that comes into the air in a turn is handed over next. -/
theorem handOver_of_contains (hfiled : s.scheduler.flights.Filed)
    (hground : s.scheduler.flights.contains id = false)
    (h : (e.perform setup s).state.scheduler.flights.contains id = true) :
    ∃ r onward, handOver r onward ∈ (e.perform setup s).next ∧ r.id = id := by
  have hnone := Flights.contains_eq_false_iff.mp hground
  obtain ⟨r, hr⟩ := Flights.contains_iff.mp h
  rcases perform_aloft hfiled hr with hbefore | ⟨r₀, h₀, -, -, -⟩ | ⟨onward, hnext, hid, -⟩
  · rw [hnone] at hbefore
    cases hbefore
  · rw [hnone] at h₀
    cases h₀
  · exact ⟨r, onward, hnext, hid⟩

end Errand

namespace Crew

variable {setup : Setup} {c c' : Crew} {id : Int}

/-- **An attempt is over**: at some moment of the run its call had been made, and its attachment was
not in flight. -/
def Over (setup : Setup) (w : World) (moves : List CrewMove) (id : Int) (n : Nat) : Prop :=
  ∃ earlier u, earlier <+: moves ∧ (fresh w).run setup earlier = some u ∧
    n < (u.state.attempts id).length ∧ u.state.scheduler.flights.contains id = false

theorem Over.mono {w : World} {moves moves' : List CrewMove} {n : Nat}
    (h : Over setup w moves id n) (hpre : moves <+: moves') : Over setup w moves' id n := by
  obtain ⟨earlier, u, hearlier, hrest⟩ := h
  exact ⟨earlier, u, hearlier.trans hpre, hrest⟩

/-- The next errand of a task takes a request for the attachment off, to hand it over next. -/
def TakesOff (setup : Setup) (c : Crew) (i : Nat) (id : Int) : Prop :=
  ∃ e rest r onward, c.tasks[i]? = some (e :: rest) ∧
    .handOver r onward ∈ (e.perform setup c.state).next ∧ r.id = id

/-- Whoever comes into the air has been taken off. -/
theorem takesOff_of_move {m : CrewMove} (hc : c.Legible) (h : c.move setup m = some c')
    (hground : c.state.scheduler.flights.contains id = false)
    (hafter : c'.state.scheduler.flights.contains id = true) :
    ∃ i, m = .turn i ∧ c.TakesOff setup i id := by
  rcases move_cases h with ⟨w, rfl, rfl⟩ | ⟨op, rfl, rfl⟩ | ⟨rfl, rfl⟩ | ⟨i, rfl⟩
  · exact absurd (hground.symm.trans hafter) (by decide)
  · rw [Operation.state_flights, hground] at hafter
    cases hafter
  · exact absurd (hground.symm.trans hafter) (by decide)
  · obtain ⟨e, rest, -, hi, -, hstate, -⟩ := turn_errands h
    rw [hstate] at hafter
    obtain ⟨r, onward, hnext, hid⟩ := Errand.handOver_of_contains hc.filed hground hafter
    exact ⟨i, rfl, e, rest, r, onward, hi, hnext, hid⟩

/-- **A report of an attempt that is over changes nothing**, and nothing follows from it, unless its
attachment has been taken off again since the attempt was over, and has been in flight from then
on. -/
theorem stale_report_ignored (setup : Setup) (w : World) (moves : List CrewMove) (c : Crew)
    (i : Nat) (e : Errand) (rest : List Errand) (id : Int) (n : Nat)
    (h : (fresh w).run setup moves = some c) (hi : c.tasks[i]? = some (e :: rest))
    (he : e.reports id = true) (hover : Over setup w moves id n) :
    c.move setup (.turn i) = some { c with tasks := c.tasks.set i rest } ∨
      ∃ earlier k later u u', moves = earlier ++ .turn k :: later ∧
        (fresh w).run setup earlier = some u ∧ Over setup w earlier id n ∧
        u.TakesOff setup k id ∧ u.move setup (.turn k) = some u' ∧
        Lasting (move setup) (fun v => v.state.scheduler.flights.contains id = true) u' later := by
  obtain ⟨before, u₀, ⟨between, rfl⟩, hu₀, hn, hground⟩ := hover
  have hbetween : follow (move setup) u₀ between = some c := by
    rw [run, follow_append hu₀] at h
    exact h
  -- From the moment at which the attempt is over, only a take-off brings the attachment back.
  have hmoves : Throughout (move setup)
      (fun v m => ∀ v', v.move setup m = some v' → v.state.scheduler.flights.contains id = false →
        v'.state.scheduler.flights.contains id = false ∨ ∃ k, m = .turn k ∧ v.TakesOff setup k id)
      u₀ between := by
    intro earlier m _ v _ hv v' hm hv₀
    have hlegible : v.Legible := follow_keeps (fun _ _ _ => legible_move) (legible_run hu₀) hv
    cases hafter : v'.state.scheduler.flights.contains id with
    | false => exact .inl rfl
    | true => exact .inr (takesOff_of_move hlegible hm hv₀ hafter)
  rcases holds_or_since (N := fun v : Crew => v.state.scheduler.flights.contains id = true)
      (fun _ hv => by simpa using hv) hground hmoves hbetween with
    hstill | ⟨earlier, m, later, u, u', rfl, hu, ⟨k, rfl, hoff⟩, hm, hlasting⟩
  · left
    have hturn : e.perform setup c.state = { state := c.state } :=
      Errand.perform_of_grounded he hstill
    simp [move, hi, Errand.isHeldUp_of_reports he, hturn, Turn.left]
  · refine .inr ⟨before ++ earlier, k, later, u, u', by simp, ?_, ?_, hoff, hm, hlasting⟩
    · rw [run, follow_append hu₀]
      exact hu
    · exact ⟨before, u₀, List.prefix_append _ _, hu₀, hn, hground⟩

/-! ### A transfer that stalls and reports in the end -/

/-- A transfer is handed over, and the watchdog breaks it off after forty seconds of silence. -/
def stalledTransfer : List CrewMove :=
  [.begin (.change { id := 1, message := 10, account := 1, flags := .forward }), .turn 0] ++
    .begin .round :: List.replicate 9 (.turn 1) ++
      [.world { wantingWorld with now := seconds 40 }, .begin (.tick (seconds 30)), .turn 2]

theorem stale_report_ignored_broken_off :
    ∃ c, (fresh wantingWorld).run {} (stalledTransfer ++
        [.begin (.report ⟨10, 1, .success, 100⟩)]) = some c ∧
      Over {} wantingWorld stalledTransfer 1 0 ∧
      c.move {} (.turn 3) = some { c with tasks := c.tasks.set 3 [] } := by
  obtain ⟨u, hu, hcalled, hground, c, hc, hi, hcground⟩ :
      ∃ u, (fresh wantingWorld).run {} stalledTransfer = some u ∧
        u.state.attempts 1 = [true] ∧ u.state.scheduler.flights.contains 1 = false ∧
        ∃ c, (fresh wantingWorld).run {} (stalledTransfer ++
            [.begin (.report ⟨10, 1, .success, 100⟩)]) = some c ∧
          c.tasks[3]? = some [.hear ⟨10, 1, .success, 100⟩] ∧
          c.state.scheduler.flights.contains 1 = false :=
    ⟨_, rfl, rfl, rfl, _, rfl, rfl, rfl⟩
  have hover : Over {} wantingWorld stalledTransfer 1 0 :=
    ⟨stalledTransfer, u, List.prefix_rfl, hu, by rw [hcalled]; decide, hground⟩
  refine ⟨c, hc, hover, ?_⟩
  rcases stale_report_ignored {} wantingWorld _ c 3 _ [] 1 0 hc hi rfl
      (hover.mono (List.prefix_append _ _)) with
    hignored | ⟨earlier, k, later, v, v', hmoves, hv, -, -, hm, hlasting⟩
  · exact hignored
  · -- Nothing of the attachment is in flight when the report comes.
    rw [hmoves, run, follow_append hv, follow_cons hm] at hc
    rw [hlasting later c List.prefix_rfl hc] at hcground
    cases hcground

/-- **Reports of attempts that are over are ignored.** A report does not say which attempt sends it,
so this is about every attempt that the carrier has accepted. -/
def IgnoresStale (setup : Setup) (w : World) : Prop :=
  ∀ moves c i e rest id n c', (fresh w).run setup moves = some c →
    c.tasks[i]? = some (e :: rest) → e.reports id = true →
      (c.state.attempts id)[n]? = some true → Over setup w moves id n →
        c.move setup (.turn i) = some c' → c'.state = c.state

/-- The watchdog's round hands the transfer over again, and then the first attempt reports. -/
def reportedAfterAll : List CrewMove :=
  stalledTransfer ++ List.replicate 4 (.turn 2) ++ [.begin (.report ⟨10, 1, .success, 100⟩)]

/-- **A report of an attempt that is over may count as one of the next attempt.** -/
theorem not_ignores_stale : ¬ IgnoresStale {} wantingWorld := by
  intro hignores
  have hover : Over {} wantingWorld reportedAfterAll 1 0 :=
    Over.mono ⟨stalledTransfer, _, List.prefix_rfl, rfl, by decide, rfl⟩ ⟨_, rfl⟩
  have hsame := hignores reportedAfterAll _ 3 _ _ 1 0 _ rfl rfl rfl rfl hover rfl
  revert hsame
  decide

end Crew

end MailFetch

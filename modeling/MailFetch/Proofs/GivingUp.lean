import MailFetch.Proofs.Crew
import MailFetch.Proofs.RetryBudget

/-! # After giving up

A request that has been given up leaves nothing behind, so the carrier is asked for the transfer
again only if a new request is made. But new requests are not only made for those who ask from
outside: the main loop reviews all records whose download is still asked for, and a round may take
off a record that nobody asked for. So giving up is not for good
(`Crew.not_gives_up_for_good`).

* `no_start_without_request`: the carrier is asked only for requests that are there, and none is
  there that is not made; with operations one after another, none is there after one has been given
  up. -/

namespace MailFetch

/-- **Something is still to come for an attachment**: there is a request, or the carrier is to be
asked. -/
def State.Pending (s : State) (es : List Errand) (id : Int) : Prop :=
  s.Live es id ∨ ∃ e ∈ es, e.asks id = true

theorem State.Pending.mono {s : State} {es es' : List Errand} {id : Int} (h : s.Pending es id)
    (hsub : ∀ e ∈ es, e ∈ es') : s.Pending es' id :=
  h.imp (·.mono hsub) fun ⟨e, he, hasks⟩ => ⟨e, hsub e he, hasks⟩

namespace Errand

/-- An errand by itself brings nothing for any attachment. -/
def isIdle (e : Errand) : Prop := (e.aside = [] ∧ e.settling = none) ∧ ∀ id, e.asks id = false

theorem isIdle_of_isFirst {e : Errand} (h : Operation.isFirst e = true) : e.isIdle := by
  cases e <;> first | exact ⟨⟨rfl, rfl⟩, fun _ => rfl⟩ | cases h

theorem isIdle_of_isStart {e : Errand} (h : e.isStart = true) : e.isIdle := by
  cases e <;> first | exact ⟨⟨rfl, rfl⟩, fun _ => rfl⟩ | cases h

variable {setup : Setup} {s : State} {e : Errand} {es es' : List Errand} {id : Int}

/-- Errands that bring nothing do not matter. -/
theorem pending_of_mem (h : s.Pending es id) (hsub : ∀ e ∈ es, e ∈ es' ∨ e.isIdle) :
    s.Pending es' id := by
  rcases h with hlive | ⟨e, he, hasks⟩
  · exact .inl (hlive.of_mem fun e he => (hsub e he).imp_right fun hidle => hidle.1)
  · rcases hsub e he with he | hidle
    · exact .inr ⟨e, he, hasks⟩
    · rw [hidle.2 id] at hasks
      cases hasks

/-- What is pending after an errand was so before it, or the errand makes a new request. -/
theorem perform_pending (hq : s.scheduler.queue.Matched) (hfiled : s.scheduler.flights.Filed)
    (h : (e.perform setup s).state.Pending ((e.perform setup s).next ++ es) id) :
    s.Pending (e :: es) id ∨ e.Creates setup s id := by
  rcases h with hlive | ⟨x, hx, hasks⟩
  · exact (perform_live hq hfiled hlive).imp_left .inl
  · rcases List.mem_append.mp hx with hnext | hes
    · cases x with
      | handOver r onward =>
        obtain rfl : r.id = id := by simpa [asks] using hasks
        rcases taken_perform hnext with ⟨r₀, hr₀, hid, -⟩ | hnew
        · exact .inl (.inl ⟨r₀, hid, .inl (.inr ⟨e, List.mem_cons_self, hr₀⟩)⟩)
        · exact .inr hnew.1
      | _ => cases hasks
    · exact .inl (.inr ⟨x, .tail _ hes, hasks⟩)

end Errand

/-- What is pending when an operation begins was so before. -/
theorem Operation.pending_begin {s : State} {op : Operation} {es : List Errand} {id : Int}
    (h : (op.state s).Pending (es ++ op.errands s) id) : s.Pending es id := by
  have hkept : (op.state s).Pending es id :=
    Errand.pending_of_mem h fun e he => (List.mem_append.mp he).imp_right fun he =>
      Errand.isIdle_of_isFirst (isFirst_of_mem_errands he)
  exact hkept.imp_left fun hlive =>
    live_begin es (hlive.mono fun x hx => List.mem_append_left _ hx)

namespace Crew

variable {setup : Setup} {c c' : Crew} {id : Int}

/-- **Something is still to come for the attachment**. -/
def Pending (c : Crew) (id : Int) : Prop := c.state.Pending c.tasks.flatten id

/-- A task is to ask the carrier for a transfer of the attachment. -/
def Calls (c : Crew) (id : Int) : Prop := ∃ e ∈ c.tasks.flatten, e.asks id = true

/-- The next errand of a task makes a new request for the attachment. -/
def Creates (setup : Setup) (c : Crew) (i : Nat) (id : Int) : Prop :=
  ∃ e rest, c.tasks[i]? = some (e :: rest) ∧ e.Creates setup c.state id

/-! ### Nothing comes of nothing -/

/-- **What is pending after a move** was so before it, or the move makes a new request. -/
theorem pending_of_move {m : CrewMove} (hc : c.Legible) (h : c.move setup m = some c')
    (hafter : c'.Pending id) : c.Pending id ∨ ∃ i, m = .turn i ∧ c.Creates setup i id := by
  rcases arises_by_turn (Q := fun s es => s.Pending es id)
      (fun hes hsub => Errand.pending_of_mem hes fun e he =>
        (hsub e he).imp_right Errand.isIdle_of_isStart)
      (fun hw => hw) Operation.pending_begin h hafter with
    hbefore | ⟨i, e, rest, others, rfl, hi, hnot, hturn⟩
  · exact .inl hbefore
  · exact .inr ⟨i, rfl, e, rest, hi,
      (Errand.perform_pending hc.matched hc.filed hturn).resolve_left hnot⟩

/-- **Along a run, nothing comes of nothing.** -/
theorem pending_run {later : List CrewMove} (hc : c.Legible) (h : c.run setup later = some c')
    (hafter : c'.Pending id) :
    c.Pending id ∨ ∃ earlier i more u, later = earlier ++ .turn i :: more ∧
      c.run setup earlier = some u ∧ u.Creates setup i id := by
  rcases last_or_throughout (fun (u : Crew) m => ∃ i, m = .turn i ∧ u.Creates setup i id) h with
    hnone | ⟨earlier, _, more, u, -, hlater, hu, ⟨i, rfl, hcreates⟩, -⟩
  · by_contra hnot
    rw [not_or] at hnot
    have hnever := follow_keeps_of (P := fun u : Crew => u.Legible ∧ ¬ u.Pending id)
      (fun u m u' hu hm hmove => ⟨legible_move hu.1 hmove, fun hpending =>
        (pending_of_move hu.1 hmove hpending).elim hu.2 hm⟩) ⟨hc, hnot.1⟩ hnone h
    exact hnever.2 hafter
  · exact .inr ⟨earlier, i, more, u, hlater, hu, hcreates⟩

end Crew

namespace Desk

variable {setup : Setup} {d d' : Desk} {id : Int}

/-! ### After giving up, one operation after another -/

/-- **Nothing is left of a request that has just been given up.** -/
theorem not_live_of_givenUp {w : World} {moves : List Move}
    (h : (fresh w).run setup moves = some d) (hmove : d.move setup .turn = some d')
    (hgiven : d.state.givenUp id < d'.state.givenUp id) : ¬ d'.Live id := by
  have hd : d.Settled setup := follow_keeps (fun _ _ _ => settled_move) (settled_fresh setup w) h
  have hfiled := Tidy.filed hd.sound.books
  obtain ⟨e, rest, ht, rfl⟩ := move_turn hmove
  -- The errand sent a request back, with all its retries used up.
  obtain ⟨r, hback, hid⟩ : ∃ r, e.SendsBack d.state r ∧ r.id = id := by
    by_contra hnone
    have hkept := Errand.givenUp_of_not_sendsBack setup hfiled
      fun r hr hid => hnone ⟨r, hr, hid⟩
    dsimp only at hgiven
    omega
  have hover : setup.settings.maxRetries < r.countRetry.retries := by
    have hcount := Errand.givenUp_of_sendsBack setup hfiled hback
    rw [hid] at hcount
    dsimp only at hgiven
    split_ifs at hcount with hover
    · exact hover
    · omega
  have hmax : setup.settings.maxRetries.toNat + 1 < UInt32.size := by
    have hlt := UInt32.lt_iff_toNat_lt.mp hover
    have hsize := r.countRetry.retries.toNat_lt_size
    omega
  have hlive : d.Live id := ⟨r, hid, .inr (abroad_of_sendsBack hd.sound ht hback)⟩
  obtain ⟨d₀, hlineage⟩ := exists_lineage h hlive
  exact not_live_of_exhausted hmax hd.sound hd.apart ht (hlineage.tally hmax h).2 hid hback hover

/-- Along a run, what is live was so before, or has been made. -/
theorem live_run {later : List Move} (hd : d.Settled setup) (h : d.run setup later = some d')
    (hlive : d'.Live id) :
    d.Live id ∨ ∃ earlier more u, later = earlier ++ .turn :: more ∧
      d.run setup earlier = some u ∧ u.Creates setup id := by
  rcases last_or_throughout (fun (u : Desk) m => m = .turn ∧ u.Creates setup id) h with
    hnone | ⟨earlier, _, more, u, -, hlater, hu, ⟨rfl, hcreates⟩, -⟩
  · by_contra hnot
    rw [not_or] at hnot
    have hnever := follow_keeps_of (P := fun u : Desk => u.Settled setup ∧ ¬ u.Live id)
      (fun u m u' hu hm hmove => ⟨settled_move hu.1 hmove, fun hlive' =>
        (live_of_move hu.1.sound hmove hlive').elim hu.2 hm⟩) ⟨hd, hnot.1⟩ hnone h
    exact hnever.2 hlive
  · exact .inr ⟨earlier, more, u, hlater, hu, hcreates⟩

end Desk

/-- **The carrier is asked only for what has been asked for.** However the tasks are interleaved,
between a moment at which nothing is to come for an attachment and one at which the carrier is to be
asked for its transfer, a new request is made: by a review of its record, or by a round that takes
off a record that nobody asked for. With operations one after another, nothing is to come once a
request has been given up, so that the carrier is asked for the transfer again only after a new
request has been made. -/
theorem no_start_without_request (setup : Setup) (w : World) (id : Int) :
    (∀ before later c₁ c, (Crew.fresh w).run setup before = some c₁ →
        c₁.run setup later = some c → c.Calls id →
          c₁.Pending id ∨ ∃ earlier i more u, later = earlier ++ .turn i :: more ∧
            c₁.run setup earlier = some u ∧ u.Creates setup i id) ∧
      ∀ before later d₀ d₁ d, (Desk.fresh w).run setup before = some d₀ →
        d₀.move setup .turn = some d₁ → d₀.state.givenUp id < d₁.state.givenUp id →
          d₁.run setup later = some d → d.Calls id →
            ∃ earlier more u, later = earlier ++ .turn :: more ∧
              d₁.run setup earlier = some u ∧ u.Creates setup id := by
  constructor
  · intro before later c₁ c hbefore hlater hcalls
    exact Crew.pending_run (Crew.legible_run hbefore) hlater (.inr hcalls)
  · intro before later d₀ d₁ d hbefore hmove hgiven hlater hcalls
    have hd₁ : d₁.Settled setup := Desk.settled_move
      (follow_keeps (fun _ _ _ => Desk.settled_move) (Desk.settled_fresh setup w) hbefore) hmove
    have hd : d.Settled setup := follow_keeps (fun _ _ _ => Desk.settled_move) hd₁ hlater
    obtain ⟨r, hid, habroad⟩ := hcalls.abroad hd.sound
    exact (Desk.live_run hd₁ hlater ⟨r, hid, .inr habroad⟩).resolve_left
      (Desk.not_live_of_givenUp hbefore hmove hgiven)

/-! ### Not for good -/

/-- A setup without retries. -/
def noRetries : Setup := { settings := { maxRetries := 0 } }

/-- A round in which the only transfer is refused and given up, up to that turn. -/
def givenUpAtOnce : List Move :=
  .begin .rescan :: List.replicate 3 .turn ++ .begin .round :: List.replicate 4 .turn

/-- The rest of that round, and another one after the record has been reported again. -/
def askedAgain : List Move :=
  List.replicate 5 .turn ++
    .begin (.change { id := 1, message := 10, account := 1, flags := .forward }) ::
      .turn :: .begin .round :: List.replicate 3 .turn

theorem no_start_without_request_asked_again :
    ∃ (d₁ u : Desk) (earlier more : List Move),
      (Desk.fresh Desk.refusingWorld).run noRetries (givenUpAtOnce ++ [.turn]) = some d₁ ∧
      d₁.state.givenUp 1 = 1 ∧ askedAgain = earlier ++ .turn :: more ∧
      d₁.run noRetries earlier = some u ∧ u.Creates noRetries 1 := by
  obtain ⟨d₀, d₁, d, hbefore, hmove, hboth, hgiven₀, hgiven₁, hlater, hcalls⟩ :
      ∃ d₀ d₁ d, (Desk.fresh Desk.refusingWorld).run noRetries givenUpAtOnce = some d₀ ∧
        d₀.move noRetries .turn = some d₁ ∧
        (Desk.fresh Desk.refusingWorld).run noRetries (givenUpAtOnce ++ [.turn]) = some d₁ ∧
        d₀.state.givenUp 1 = 0 ∧ d₁.state.givenUp 1 = 1 ∧
        d₁.run noRetries askedAgain = some d ∧ d.Calls 1 :=
    ⟨_, _, _, rfl, rfl, rfl, rfl, rfl, rfl, _, _, _, rfl, rfl⟩
  obtain ⟨earlier, more, u, hasked, hu, hcreates⟩ :=
    (no_start_without_request noRetries Desk.refusingWorld 1).2 givenUpAtOnce askedAgain d₀ d₁ d
      hbefore hmove (by omega) hlater hcalls
  exact ⟨d₁, u, earlier, more, hboth, hgiven₁, hasked, hu, hcreates⟩

/-- An operation that reports a change of an attachment from outside. -/
def Operation.ReportsChange (id : Int) : Operation → Prop
  | change a => a.id = id
  | applyNotice i _ | notify i _ => i = id
  | _ => False

/-- **Giving up is for good**: once a request has been given up, the carrier is asked for its
transfer again only if a change of the attachment is reported from outside at some time. -/
def Crew.GivesUpForGood (setup : Setup) (w : World) : Prop :=
  ∀ earlier m later c₀ c₁ c id, (Crew.fresh w).run setup earlier = some c₀ →
    c₀.move setup m = some c₁ → c₀.state.givenUp id < c₁.state.givenUp id →
      c₁.run setup later = some c → c.Calls id →
        ∃ op, .begin op ∈ earlier ++ m :: later ∧ op.ReportsChange id

namespace Crew

/-- A world with one attachment that is wanted. -/
def wantingWorld : World where
  records := .ofSeed
    { attachments := [{ id := 1, message := 10, account := 1, flags := .forward }] }

/-- The main loop hands the transfer over, which then reports an error. -/
def lostConnection : List CrewMove :=
  .start :: List.replicate 21 (.turn 1) ++ [.begin (.report ⟨0, 1, .connectionError, 0⟩), .turn 2]

/-- The main loop goes on to the sweep after its idle time, and hands the transfer over again. -/
def nextSweep : List CrewMove :=
  List.replicate 10 (.turn 1) ++ .world { wantingWorld with now := seconds 1800 } ::
    List.replicate 8 (.turn 1)

/-- A world with one inline part, which nobody asked for and the carrier refuses at first. -/
def reluctantWorld : World where
  records := .ofSeed
    { accounts := [{ id := 1 }]
      attachments := [{ id := 1, message := 10, account := 1, contentId := some "part" }] }
  carrier := .noting 1 none

/-- A round that claims the part, up to the refusal. -/
def refusedClaim : List CrewMove := .begin .round :: List.replicate 9 (.turn 0)

/-- The next round claims the part again. -/
def nextClaim : List CrewMove := .turn 0 :: .begin .round :: List.replicate 8 (.turn 1)

/-- **Giving up is not for good.** The sweep of the main loop reviews every record whose download is
still asked for; and a round takes off a record that nobody asked for, whether or not a request for
it has been given up. In both runs no change of the attachment is ever reported from outside. -/
theorem not_gives_up_for_good :
    ¬ GivesUpForGood noRetries wantingWorld ∧ ¬ GivesUpForGood noRetries reluctantWorld := by
  constructor
  · intro hgood
    obtain ⟨op, hop, hreports⟩ := hgood lostConnection (.turn 2) nextSweep _ _ _ 1 rfl rfl
      (by decide) rfl ⟨_, .tail _ (.head _), rfl⟩
    have hreport : op = .report ⟨0, 1, .connectionError, 0⟩ := by
      simpa [lostConnection, nextSweep] using hop
    rw [hreport] at hreports
    exact hreports
  · intro hgood
    obtain ⟨op, hop, hreports⟩ := hgood refusedClaim (.turn 0) nextClaim _ _ _ 1 rfl rfl
      (by decide) rfl ⟨_, .head _, rfl⟩
    have hround : op = .round := by simpa [refusedClaim, nextClaim] using hop
    rw [hround] at hreports
    exact hreports

end Crew

end MailFetch

import MailFetch.Proofs.LedgerEntries
import MailFetch.Proofs.StaleReports

/-! # Every transfer is accounted for once

With operations one after another, the ledgers tell what the history of the run amounts to.

* `Desk.Accounted`: they do so once the errand in hand has entered what it is about to enter; the
  errands after it have nothing to enter.
* `Desk.EndsWithin`: no more transfers report their end than have been handed over.
* `accounted_once`: between operations nothing is left to enter. -/

namespace MailFetch

namespace Errand

variable {setup : Setup} {s : State} {e : Errand} {ps : List Posting}

/-! ### What is left to enter -/

/-- An errand that enters no end of a transfer, and leads to none. -/
def isQuiet : Errand → Bool
  | settle _ _ | conclude _ _ | expunge _ .success _ | close .success _ _ => false
  | _ => true

/-- **What an errand about the end of a transfer goes back to**: that the end is the last thing on
record. -/
def Backed (s : State) (ps : List Posting) : Errand → Prop
  | settle id status =>
    s.scheduler.flights.contains id = true ∧ ∃ older, ps = .ended id status :: older
  | conclude r status => ∃ older, ps = .ended r.id status :: older
  | expunge _ status _ => status ≠ .success
  | _ => True

theorem entering_of_isQuiet (h : e.isQuiet = true) (l : UsageLedger × FailureLedger) :
    e.entering l = l := by
  cases e with
  | settle _ _ => cases h
  | close status record deleted =>
    cases status with
    | success => cases h
    | _ => rfl
  | _ => rfl

theorem backed_of_isQuiet (h : e.isQuiet = true) : e.Backed s ps := by
  cases e with
  | settle _ _ | conclude _ _ => cases h
  | expunge id status record =>
    rintro rfl
    cases h
  | _ => trivial

theorem Backed.withWorld (h : e.Backed s ps) (w : World) : e.Backed (s.withWorld w) ps := by
  cases e <;> exact h

theorem isQuiet_of_isFirst (h : Operation.isFirst e = true) : e.isQuiet = true := by
  cases e <;> first | rfl | cases h

/-- Whether an errand may lead to the end of a transfer. -/
def isAboutEnd : Errand → Bool
  | hear _ | settle _ _ | conclude _ _ | expunge _ .success _ => true
  | _ => false

/-- Only what is about the end of a transfer leads to something about it. -/
theorem isQuiet_of_leads {l : List Errand} (hl : e.Leads l) (he : e.isAboutEnd = false) :
    ∀ x ∈ l, x.isQuiet = true := by
  intro x hx
  cases e with
  | expunge id status record =>
    obtain ⟨deleted, rfl⟩ := hl
    rw [List.mem_singleton.mp hx]
    cases status with
    | success => cases he
    | _ => rfl
  | _ => grind [Leads, LeadsOn, isQuiet, isAboutEnd]

end Errand

/-- **The ledgers tell what the history amounts to**, once the errand in hand has entered what it is
about to enter; the errands after it have nothing to enter. -/
def State.Accounted (s : State) (ps : List Posting) : List Errand → Prop
  | [] => LedgersShow s.scheduler.ledgers ps
  | e :: rest =>
    LedgersShow (e.entering s.scheduler.ledgers) ps ∧ e.Backed s ps ∧ ∀ x ∈ rest, x.isQuiet = true

namespace State

variable {setup : Setup} {s : State} {ps : List Posting} {es rest : List Errand}

theorem accounted_of_quiet (h : LedgersShow s.scheduler.ledgers ps)
    (hes : ∀ x ∈ es, x.isQuiet = true) : s.Accounted ps es := by
  cases es with
  | nil => exact h
  | cons e rest =>
    have he : e.isQuiet = true := hes e List.mem_cons_self
    refine ⟨?_, Errand.backed_of_isQuiet he, fun x hx => hes x (.tail _ hx)⟩
    rw [Errand.entering_of_isQuiet he]
    exact h

/-- After an errand that says nothing of the end of a transfer, only the ledgers and the record
matter. -/
theorem accounted_left {t : Turn} (h : LedgersShow t.state.scheduler.ledgers ps)
    (hnext : ∀ x ∈ t.next, x.isQuiet = true) (hrest : ∀ x ∈ rest, x.isQuiet = true) :
    t.state.Accounted ps (t.left rest) :=
  accounted_of_quiet h fun x hx => (Turn.mem_left hx).elim (hnext x) (hrest x)

/-- An errand about the end of a transfer that leads to one other errand. -/
theorem accounted_next {t : Turn} {e : Errand} (hcollapses : t.collapses = false)
    (hnext : t.next = [e]) (h : LedgersShow (e.entering t.state.scheduler.ledgers) ps)
    (he : e.Backed t.state ps) (hrest : ∀ x ∈ rest, x.isQuiet = true) :
    t.state.Accounted ps (t.left rest) := by
  rw [Turn.left, hcollapses, if_neg (by decide), hnext]
  exact ⟨h, he, hrest⟩

end State

namespace Errand

variable {setup : Setup} {s : State} {e : Errand} {ps : List Posting} {rest : List Errand}

theorem accounted_hear (hfiled : s.scheduler.flights.Filed) (report : Report)
    (h : LedgersShow s.scheduler.ledgers ps) (hrest : ∀ x ∈ rest, x.isQuiet = true) :
    (doHear s report).state.Accounted (((hear report).posting setup s).toList ++ ps)
      ((doHear s report).left rest) := by
  have hledgers : (doHear s report).state.scheduler.ledgers = s.scheduler.ledgers :=
    perform_ledgers (e := hear report) default s rfl
  rw [posting_hear]
  cases hr : s.scheduler.flights.get? report.id with
  | none =>
    have hground := Flights.contains_eq_false_iff.mpr hr
    have hturn : doHear s report = { state := s } := by simp only [doHear, hr]
    rw [hturn, hground, Bool.and_false, if_neg (by decide)]
    exact State.accounted_left h (List.forall_mem_nil _) hrest
  | some r =>
    have hflying := Flights.contains_iff.mpr ⟨r, hr⟩
    rw [hflying, Bool.and_true]
    cases hend : report.status.isTerminal with
    | true =>
      have hid : (r.heard s.world.now report.status report.percent).id = report.id :=
        (Request.id_heard ..).trans (hfiled _ _ hr)
      refine State.accounted_next (e := settle report.id report.status) ?_ ?_ ?_ ⟨?_, ps, rfl⟩ hrest
      · simp [doHear, hr]
      · simp [doHear, hr, hend]
      · rw [hledgers]
        exact h.ended report.id report.status
      · simp [doHear, hr, Flights.contains_iff, hid]
    | false =>
      rw [← hledgers] at h
      refine State.accounted_left h (fun x hx => ?_) hrest
      simp only [doHear, hr, hend, Bool.false_eq_true, if_false] at hx
      split_ifs at hx
      · rw [List.mem_singleton.mp hx]
        rfl
      · cases hx

theorem accounted_settle (hfiled : s.scheduler.flights.Filed) (id : Int) (status : Status)
    (h : LedgersShow ((settle id status).entering s.scheduler.ledgers) ps)
    (hbacked : (settle id status).Backed s ps) (hrest : ∀ x ∈ rest, x.isQuiet = true) :
    ((settle id status).perform setup s).state.Accounted ps
      (((settle id status).perform setup s).left rest) := by
  obtain ⟨hflying, older, hps⟩ := hbacked
  have hledgers := ledgers_settle setup s id status
  rw [if_pos hflying] at hledgers
  rw [← hledgers] at h
  obtain ⟨r, hr⟩ := Flights.contains_iff.mp hflying
  have hid : r.land.id = id := hfiled id r hr
  by_cases hlost : status = .connectionError
  · refine State.accounted_left h (fun x hx => ?_) hrest
    have hnone : ((settle id status).perform setup s).next = [] := by
      change (doSettle setup s id status).next = []
      simp only [doSettle, hr, hlost, if_true]
      split <;> rfl
    rw [hnone] at hx
    cases hx
  · have hturn : ((settle id status).perform setup s).next = [conclude r.land status] ∧
        ((settle id status).perform setup s).collapses = false := by
      change (doSettle setup s id status).next = _ ∧ (doSettle setup s id status).collapses = _
      simp only [doSettle, hr, if_neg hlost, and_self]
    exact State.accounted_next hturn.2 hturn.1 h ⟨older, by rw [hps, hid]⟩ hrest

theorem accounted_conclude (r : Request) (status : Status) (h : LedgersShow s.scheduler.ledgers ps)
    (hrest : ∀ x ∈ rest, x.isQuiet = true) :
    (doConclude s r status).state.Accounted (((conclude r status).posting setup s).toList ++ ps)
      ((doConclude s r status).left rest) := by
  have hledgers : (doConclude s r status).state.scheduler.ledgers = s.scheduler.ledgers :=
    perform_ledgers (e := conclude r status) default s rfl
  by_cases hs : status = .success
  · subst hs
    cases hlook : s.world.attachment r.id with
    | error e =>
      have hturn : (doConclude s r .success).next = [] ∧
          (conclude r .success).posting setup s = none := by
        simp only [doConclude, posting, hlook, and_self]
      rw [hturn.2]
      rw [← hledgers] at h
      exact State.accounted_left h (by rw [hturn.1]; exact List.forall_mem_nil _) hrest
    | ok record =>
      have hnext : (doConclude s r .success).next = [close .success record false] ∧
          (doConclude s r .success).collapses = false := by
        simp [doConclude, hlook]
      cases record with
      | none =>
        have hposting : (conclude r .success).posting setup s = none := by
          simp only [posting, hlook]
        rw [hposting]
        rw [← hledgers] at h
        exact State.accounted_next hnext.2 hnext.1 h trivial hrest
      | some a =>
        have hposting : (conclude r .success).posting setup s =
            some (.loaded r.id a.account a.size) := by
          simp only [posting, hlook]
        rw [hposting]
        refine State.accounted_next hnext.2 hnext.1 ?_ trivial hrest
        rw [hledgers]
        exact h.loaded r.id a
  · have hposting : (conclude r status).posting setup s = none := by
      cases status with
      | success => exact absurd rfl hs
      | _ => rfl
    rw [hposting]
    rw [← hledgers] at h
    refine State.accounted_left h (fun x hx => ?_) hrest
    unfold doConclude at hx
    split at hx
    · cases hx
    · split_ifs at hx with hgone hlost
      · rw [List.mem_singleton.mp hx]
        rfl
      · rw [List.mem_singleton.mp hx, hlost.1]
        rfl
      · rw [List.mem_singleton.mp hx]
        cases status with
        | success => exact absurd rfl hs
        | _ => rfl

/-- **A turn keeps the accounts.** -/
theorem accounted_turn (hfiled : s.scheduler.flights.Filed) (h : s.Accounted ps (e :: rest)) :
    (e.perform setup s).state.Accounted ((e.posting setup s).toList ++ ps)
      ((e.perform setup s).left rest) := by
  obtain ⟨hshow, hbacked, hrest⟩ := h
  have hquiet := isQuiet_of_leads (perform_leads setup s e)
  cases e with
  | hear report => exact accounted_hear hfiled report hshow hrest
  | settle id status => exact accounted_settle hfiled id status hshow hbacked hrest
  | conclude r status => exact accounted_conclude r status hshow hrest
  | close status record deleted =>
    refine State.accounted_left ?_ (hquiet rfl) hrest
    rw [ledgers_close]
    exact hshow
  | share account total asker =>
    refine State.accounted_left ?_ (hquiet rfl) hrest
    rcases ledgers_share setup s account total asker with ⟨hnone, hsame⟩ | ⟨bytes, hcount, hset⟩
    · rw [hsame, hnone]
      exact hshow
    · rw [hset, hcount]
      exact hshow.counted account.id bytes
  | expunge id status record =>
    refine State.accounted_left ?_ (hquiet ?_) hrest
    · rw [perform_ledgers setup s rfl]
      exact hshow
    · cases status with
      | success => exact absurd rfl hbacked
      | _ => rfl
  | _ =>
    refine State.accounted_left ?_ (hquiet rfl) hrest
    rw [perform_ledgers setup s rfl]
    exact hshow

end Errand

/-- **Every found record belongs to the success before it**: the last thing on record before it is
that its transfer has succeeded. -/
def InTurn (ps : List Posting) : Prop :=
  ∀ newer id account size older, ps = newer ++ .loaded id account size :: older →
    ∃ oldest, older = .ended id .success :: oldest

theorem inTurn_nil : InTurn [] := by
  intro newer id account size older heq
  simp at heq

theorem InTurn.cons {ps : List Posting} {p : Posting} (h : InTurn ps)
    (hp : ∀ id account size, p = .loaded id account size →
      ∃ oldest, ps = .ended id .success :: oldest) : InTurn (p :: ps) := by
  intro newer id account size older heq
  cases newer with
  | nil =>
    obtain ⟨rfl, rfl⟩ := List.cons.inj heq
    exact hp id account size rfl
  | cons q newer => exact h newer id account size older (List.cons.inj heq).2

theorem Errand.inTurn_turn {setup : Setup} {s : State} {e : Errand} {ps : List Posting}
    (hbacked : e.Backed s ps) (h : InTurn ps) : InTurn ((e.posting setup s).toList ++ ps) := by
  cases hp : e.posting setup s with
  | none => exact h
  | some p =>
    refine InTurn.cons h fun id account size hloaded => ?_
    subst hloaded
    cases e with
    | hear report =>
      rw [posting_hear] at hp
      split_ifs at hp
      cases hp
    | conclude r status =>
      cases status with
      | success =>
        simp only [posting] at hp
        split at hp
        · cases hp
          exact hbacked
        · cases hp
      | _ => cases hp
    | share account total asker =>
      simp only [posting] at hp
      split_ifs at hp
      obtain ⟨bytes, -, hcount⟩ := Option.map_eq_some_iff.mp hp
      cases hcount
    | _ => cases hp

/-! ### Ends and transfers -/

/-- How many transfers of an attachment have reported their end, in a history. -/
def endsIn (ps : List Posting) (id : Int) : Nat := ps.countP fun p => (p.endOf id).isSome

/-- Whether an errand settles the transfer of an attachment. -/
def Errand.settles (id : Int) : Errand → Bool
  | settle i _ => i == id
  | _ => false

/-- **Whether an end may still be reported** for an attachment: it is in flight, and its end is not
just being settled. -/
def State.mayEnd (s : State) (es : List Errand) (id : Int) : Bool :=
  s.scheduler.flights.contains id && !es.head?.any (·.settles id)

namespace Errand

variable {setup : Setup} {s : State} {e : Errand} {rest : List Errand} {id : Int}

/-- What is put on record of an end is that a transfer in flight has ended. -/
theorem endOf_posting {p : Posting} {status : Status} (hp : e.posting setup s = some p)
    (h : p.endOf id = some status) :
    ∃ report, e = hear report ∧ report.id = id ∧ report.status.isTerminal = true ∧
      s.scheduler.flights.contains id = true := by
  cases e with
  | hear report =>
    rw [posting_hear] at hp
    split_ifs at hp with hend
    obtain rfl := Option.some.inj hp
    simp only [Posting.endOf] at h
    split_ifs at h with hid
    subst hid
    simp only [Bool.and_eq_true] at hend
    exact ⟨report, rfl, rfl, hend⟩
  | conclude r st =>
    cases st with
    | success =>
      simp only [posting] at hp
      split at hp
      · obtain rfl := Option.some.inj hp
        cases h
      · cases hp
    | _ => cases hp
  | share account total asker =>
    simp only [posting] at hp
    split_ifs at hp
    obtain ⟨bytes, -, rfl⟩ := Option.map_eq_some_iff.mp hp
    cases h
  | _ => cases hp

/-- A transfer that is settled is not in flight any more. -/
theorem contains_settle (setup : Setup) (s : State) (id : Int) (status : Status) :
    ((settle id status).perform setup s).state.scheduler.flights.contains id = false := by
  rw [Flights.contains_eq_false_iff]
  change (doSettle setup s id status).state.scheduler.flights.get? id = none
  unfold doSettle
  split
  next hnone => exact hnone
  · dsimp only
    split_ifs
    · split <;> simp [Scheduler.flights_retryAfterError]
    · simp

/-- **A turn that lets a transfer report its end** takes this from the transfers that may, and
brings as many of these as it hands over. -/
theorem ends_turn (setup : Setup) (e : Errand) (rest : List Errand) (id : Int)
    (hfiled : s.scheduler.flights.Filed) :
    endsIn (e.posting setup s).toList id +
        ((e.perform setup s).state.mayEnd ((e.perform setup s).left rest) id).toNat ≤
      (s.mayEnd (e :: rest) id).toNat + (e.perform setup s).next.countP (·.asks id) := by
  by_cases hend : ∃ p status, e.posting setup s = some p ∧ p.endOf id = some status
  · obtain ⟨p, status, hp, hstatus⟩ := hend
    obtain ⟨report, rfl, rfl, hterminal, hflying⟩ := endOf_posting hp hstatus
    have hone : endsIn ((hear report).posting setup s).toList report.id ≤ 1 := by
      rw [hp]
      exact List.countP_le_length
    have hbefore : s.mayEnd (hear report :: rest) report.id = true := by
      simp [State.mayEnd, hflying, settles]
    -- The task goes on to settle this very transfer.
    have hafter : ((hear report).perform setup s).state.mayEnd
        (((hear report).perform setup s).left rest) report.id = false := by
      obtain ⟨r, hr⟩ := Flights.contains_iff.mp hflying
      have hturn : ((hear report).perform setup s).left rest =
          settle report.id report.status :: rest := by
        simp [perform, doHear, hr, hterminal, Turn.left]
      rw [hturn, State.mayEnd]
      simp [settles]
    rw [hbefore, hafter, Bool.toNat_true, Bool.toNat_false]
    omega
  · have hnone : endsIn (e.posting setup s).toList id = 0 := by
      refine List.countP_eq_zero.mpr fun p hp hsome => ?_
      obtain ⟨status, hstatus⟩ := Option.isSome_iff_exists.mp hsome
      exact hend ⟨p, status, Option.mem_toList.mp hp, hstatus⟩
    rw [hnone, Nat.zero_add]
    cases hafter : (e.perform setup s).state.mayEnd ((e.perform setup s).left rest) id with
    | false => exact Nat.zero_le _
    | true =>
      have hflying : (e.perform setup s).state.scheduler.flights.contains id = true := by
        simp only [State.mayEnd, Bool.and_eq_true] at hafter
        exact hafter.1
      cases hbefore : s.scheduler.flights.contains id with
      | false =>
        obtain ⟨r, onward, hnext, hid⟩ := handOver_of_contains hfiled hbefore hflying
        have hasks : 0 < (e.perform setup s).next.countP (·.asks id) :=
          List.countP_pos_iff.mpr ⟨_, hnext, by simp [asks, hid]⟩
        simp only [Bool.toNat_true]
        omega
      | true =>
        have hnot : e.settles id = false := by
          cases e with
          | settle i status =>
            by_contra hi
            obtain rfl : i = id := by simpa [settles] using hi
            rw [contains_settle] at hflying
            cases hflying
          | _ => rfl
        simp [State.mayEnd, hbefore, hnot]

end Errand

/-- The beginning of an operation settles nothing. -/
theorem Operation.mayEnd_begin (s : State) (op : Operation) (id : Int) :
    (op.state s).mayEnd (op.errands s) id = s.mayEnd [] id := by
  have hnone : (op.errands s).head?.any (·.settles id) = false := by
    cases hhead : (op.errands s).head? with
    | none => rfl
    | some e =>
      have hfirst := isFirst_of_mem_errands (List.mem_of_head? hhead)
      cases e with
      | settle _ _ => cases hfirst
      | _ => rfl
  rw [State.mayEnd, State.mayEnd, state_flights, hnone]
  rfl

namespace Desk

variable {setup : Setup} {d d' : Desk} {ps : List Posting}

/-- What a move puts on record. -/
def postings (setup : Setup) (d : Desk) : Move → List Posting
  | .turn =>
    match d.task with
    | e :: _ => (e.posting setup d.state).toList
    | [] => []
  | _ => []

/-- **The history of a run**, the latest first. -/
def history (setup : Setup) : Desk → List Move → List Posting :=
  recorded (move setup) (postings setup)

theorem postings_turn {e : Errand} {rest : List Errand} (ht : d.task = e :: rest) :
    d.postings setup .turn = (e.posting setup d.state).toList := by
  simp only [postings, ht]

/-- **The ledgers tell what the history amounts to**, but for what is about to be entered. -/
def Accounted (d : Desk) (ps : List Posting) : Prop := d.state.Accounted ps d.task

theorem accounted_fresh (w : World) : (fresh w).Accounted [] :=
  ⟨.empty, .empty⟩

/-- **A move keeps the accounts.** -/
theorem accounted_move {m : Move} (hd : d.Sound setup) (hps : d.Accounted ps)
    (h : d.move setup m = some d') : d'.Accounted (d.postings setup m ++ ps) := by
  rcases move_cases h with ⟨w, rfl, -, rfl⟩ | ⟨op, rfl, ht, rfl⟩ | ⟨e, rest, rfl, ht, rfl⟩
  · obtain ⟨s, task⟩ := d
    cases task with
    | nil => exact hps
    | cons e rest => exact ⟨hps.1, hps.2.1.withWorld w, hps.2.2⟩
  · rw [Accounted, ht] at hps
    refine State.accounted_of_quiet ?_ fun x hx =>
      Errand.isQuiet_of_isFirst (Operation.isFirst_of_mem_errands hx)
    rw [Operation.state_ledgers]
    exact hps
  · rw [Accounted, ht] at hps
    rw [postings_turn ht]
    exact Errand.accounted_turn (Tidy.filed hd.books) hps

theorem inTurn_move {m : Move} (hps : d.Accounted ps) (hturn : InTurn ps)
    (h : d.move setup m = some d') : InTurn (d.postings setup m ++ ps) := by
  rcases move_cases h with ⟨w, rfl, -, -⟩ | ⟨op, rfl, -, -⟩ | ⟨e, rest, rfl, ht, -⟩
  · exact hturn
  · exact hturn
  · rw [Accounted, ht] at hps
    rw [postings_turn ht]
    exact Errand.inTurn_turn hps.2.1 hturn

/-- **No more ends than transfers.** Since a moment at which the carrier had been asked `starts`
times and `open₀` ends could still be reported, as many ends as the history tells have been
reported. -/
def EndsWithin (d : Desk) (id : Int) (starts open₀ : Nat) (ps : List Posting) : Prop :=
  endsIn ps id + (d.state.mayEnd d.task id).toNat + starts ≤ open₀ + d.asked id

theorem endsWithin_move {m : Move} {id : Int} {starts open₀ : Nat} (hd : d.Sound setup)
    (hps : d.EndsWithin id starts open₀ ps) (h : d.move setup m = some d') :
    d'.EndsWithin id starts open₀ (d.postings setup m ++ ps) := by
  unfold EndsWithin at hps ⊢
  rcases move_cases h with ⟨w, rfl, -, rfl⟩ | ⟨op, rfl, ht, rfl⟩ | ⟨e, rest, rfl, ht, rfl⟩
  · exact hps
  · rw [asked_begin op id ht, Operation.mayEnd_begin, ← ht]
    exact hps
  · have hends := Errand.ends_turn setup e rest id (Tidy.filed hd.books)
    rw [postings_turn ht, asked_turn id hd ht, endsIn, List.countP_append]
    rw [ht] at hps
    unfold endsIn at hps hends
    dsimp only
    omega

end Desk

/-- **Every transfer is accounted for once.** Operations follow one another, with reports that come
late, repeatedly or in any order and with every answer of the world. Between operations the ledgers
tell what the history amounts to: the failures of an attachment since its last success, and the
bytes of an account as they were last counted, with the sizes of the records that were found since
after a success. From one such moment to another, no more transfers of an attachment report their
end than were in flight or have been handed over since; and a report on an attachment that is not in
flight changes nothing. -/
theorem accounted_once (setup : Setup) (w : World) (earlier later : List Move) (d₀ d : Desk)
    (h₀ : (Desk.fresh w).run setup earlier = some d₀) (hrest₀ : d₀.task = [])
    (h : d₀.run setup later = some d) (hrest : d.task = []) :
    d.state.scheduler.failures.Shows ((Desk.fresh w).history setup (earlier ++ later)) ∧
      d.state.scheduler.usage.Shows ((Desk.fresh w).history setup (earlier ++ later)) ∧
      InTurn ((Desk.fresh w).history setup (earlier ++ later)) ∧
      (∀ id, endsIn (d₀.history setup later) id +
          (d.state.scheduler.flights.contains id).toNat + d₀.state.starts id ≤
        (d₀.state.scheduler.flights.contains id).toNat + d.state.starts id) ∧
      ∀ report, d.state.scheduler.flights.contains report.id = false →
        d.run setup [.begin (.report report), .turn] = some d ∧
          d.history setup [.begin (.report report), .turn] = [] := by
  have hsettled₀ : d₀.Settled setup :=
    follow_keeps (fun _ _ _ => Desk.settled_move) (Desk.settled_fresh setup w) h₀
  have hrun : follow (Desk.move setup) (Desk.fresh w) (earlier ++ later) = some d :=
    (follow_append h₀).trans h
  obtain ⟨-, haccounted, hturn⟩ := follow_records
    (I := fun d ps => d.Settled setup ∧ d.Accounted ps ∧ InTurn ps)
    (fun _ _ _ _ hd hmove => ⟨Desk.settled_move hd.1 hmove,
      Desk.accounted_move hd.1.sound hd.2.1 hmove, Desk.inTurn_move hd.2.1 hd.2.2 hmove⟩)
    ⟨Desk.settled_fresh setup w, Desk.accounted_fresh w, inTurn_nil⟩ hrun
  rw [Desk.Accounted, hrest] at haccounted
  refine ⟨haccounted.2, haccounted.1, hturn, fun id => ?_, fun report hground => ?_⟩
  · obtain ⟨-, hends⟩ := follow_records
      (I := fun d ps => d.Settled setup ∧ d.EndsWithin id (d₀.state.starts id)
        (d₀.state.scheduler.flights.contains id).toNat ps)
      (fun _ _ _ _ hd hmove => ⟨Desk.settled_move hd.1 hmove,
        Desk.endsWithin_move hd.1.sound hd.2 hmove⟩)
      ⟨hsettled₀, by simp [Desk.EndsWithin, endsIn, State.mayEnd, Desk.asked, hrest₀]⟩ h
    simpa [Desk.EndsWithin, State.mayEnd, Desk.asked, hrest, Desk.history] using hends
  · have hturn : (Errand.hear report).perform setup d.state = { state := d.state } :=
      Errand.perform_of_grounded (by simp [Errand.reports]) hground
    have hposting : (Errand.hear report).posting setup d.state = none := by
      rw [Errand.posting_hear, hground, Bool.and_false, if_neg (by decide)]
    have hbegin : d.move setup (.begin (.report report)) = some ⟨d.state, [.hear report]⟩ := by
      simp only [Desk.move, hrest]
      rfl
    have hmove : Desk.move setup ⟨d.state, [.hear report]⟩ .turn = some d := by
      simp only [Desk.move, hturn, Turn.left, Bool.false_eq_true, if_false, List.append_nil]
      rw [← hrest]
    constructor
    · rw [Desk.run, follow_cons hbegin, follow_cons hmove]
      rfl
    · rw [Desk.history, recorded_cons hbegin, recorded_cons hmove]
      simp [recorded, Desk.postings, hposting]

/-- A world with one attachment of a hundred bytes, of outgoing mail. -/
def hundredWorld : World where
  records := .ofSeed
    { attachments := [{ id := 1, message := 10, account := 1, size := 100, flags := .forward }] }

/-- The attachment is reported and handed over. -/
def handedOver : List Move :=
  [.begin (.change { id := 1, message := 10, account := 1, size := 100, flags := .forward }), .turn,
    .begin .round] ++ List.replicate 9 .turn

/-- Its transfer reports a success. -/
def succeeded : List Move := .begin (.report ⟨10, 1, .success, 100⟩) :: List.replicate 7 .turn

/-- The bytes are added once, and the same report does nothing when it comes again. -/
theorem accounted_once_repeated_report :
    ∃ d₀ d, (Desk.fresh hundredWorld).run {} handedOver = some d₀ ∧ d₀.run {} succeeded = some d ∧
      d.state.scheduler.usage.get? 1 = some 100 ∧
      d.run {} [.begin (.report ⟨10, 1, .success, 100⟩), .turn] = some d := by
  obtain ⟨d₀, d, h₀, hrest₀, h, hrest, hground⟩ :
      ∃ d₀ d, (Desk.fresh hundredWorld).run {} handedOver = some d₀ ∧ d₀.task = [] ∧
        d₀.run {} succeeded = some d ∧ d.task = [] ∧
        d.state.scheduler.flights.contains 1 = false :=
    ⟨_, _, rfl, rfl, rfl, rfl, rfl⟩
  obtain ⟨-, husage, -, -, hlate⟩ :=
    accounted_once {} hundredWorld handedOver succeeded d₀ d h₀ hrest₀ h hrest
  exact ⟨d₀, d, h₀, h, (husage 1).trans rfl, (hlate ⟨10, 1, .success, 100⟩ hground).1⟩

end MailFetch

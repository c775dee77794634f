import MailFetch.Proofs.RoundOrder
import MailFetch.Proofs.Stopped

/-! # Who is overtaken by what nobody asked for

A round that goes on to look for a download that nobody asked for has been through its queue, with
one exception: after a request that the carrier refuses it takes no other one from there. So when it
claims a record, whoever still waits is passed over, or stands behind the request that was refused
(`Desk.overtakes_behind_refused`); and the latter may well be due and have room
(`Desk.second_overtaken`).

What a round holds on its way is `Errand.Minds`. A refusal brings a request down, so those that were
set aside must not owe their reason to it: they do not, since there was room for the account of the
request when it was taken off (`Errand.Firm`). -/

namespace MailFetch

/-! ### Reasons to go on without a request -/

/-- A request is the one that was refused in a round, or stands behind it. -/
def BehindRefused (l : List Deed) (r : Request) : Prop :=
  ∃ x, .handed x false ∈ l ∧ (r.id = x.id ∨ x.sortKey.before r.sortKey = true)

namespace State

/-- **A request gives way** to what nobody asked for: it is passed over, or it stands behind one
that was refused. -/
def GivesWay (t : State) (setup : Setup) (s : State) (l : List Deed) (r : Request) : Prop :=
  t.PassesOver setup s r ∨ BehindRefused l r

/-- The state without a request in flight. -/
def grounded (t : State) (id : Int) : State :=
  t.withScheduler { t.scheduler with flights := t.scheduler.flights.erase id }

variable {setup : Setup} {s t t' : State} {l l' : List Deed} {r : Request}

theorem GivesWay.later (h : t.GivesWay setup s l r) (hnow : t.world.now ≤ t'.world.now)
    (hwithin : t.scheduler.flights.Within t'.scheduler.flights) (hdeeds : l ⊆ l') :
    t'.GivesWay setup s l' r :=
  h.imp (fun hover => hover.later hnow hwithin) fun ⟨x, hx, hbehind⟩ => ⟨x, hdeeds hx, hbehind⟩

end State

namespace Errand

variable {setup : Setup} {s t t' : State} {l l' : List Deed} {e x : Errand} {r : Request}

/-- Whether an errand may still lead a round that is past its queue to a claim. -/
def looksFurther : Errand → Bool
  | putBack _ => true
  | e => e.scouts

/-- Past its queue, a round looks further only if it did so before. -/
theorem Leads.looksFurther {next : List Errand} (hl : e.Leads next) (he : e.ofRound = true)
    (hpast : e.inLoop = false) (hx : x ∈ next) (h : x.looksFurther = true) :
    e.looksFurther = true := by
  cases e with
  | budget account asker =>
    cases asker <;> grind [Leads, LeadsOn, Errand.looksFurther, scouts, Errand.hasCleared]
  | share account total asker =>
    cases asker <;> grind [Leads, LeadsOn, Errand.looksFurther, scouts, Errand.hasCleared]
  | handOver r onward =>
    cases onward <;> grind [Leads, Errand.looksFurther, scouts, Errand.hasCleared, Errand.inLoop]
  | landed r accepted onward =>
    cases onward <;> grind [Leads, Errand.looksFurther, scouts, Errand.hasCleared, Errand.inLoop]
  | _ =>
    grind [Leads, Errand.looksFurther, scouts, Errand.hasCleared, Errand.inLoop, Errand.ofRound]

theorem mayClaim_of_looksFurther (h : e.looksFurther = true) : e.mayClaim = true := by
  cases e <;> first | rfl | exact h

/-- What can no longer lead to a claim leaves the books alone. -/
theorem touchesBooks_of_not_mayClaim (he : e.ofRound = true) (h : e.mayClaim = false) :
    e.touchesBooks = false := by
  cases e with
  | discard _ | endRound => rfl
  | _ => exact absurd (h.symm.trans he) Bool.false_ne_true

/-- On its way through the queue, a round has not found two places free yet. -/
theorem hasCleared_of_inLoop (h : e.inLoop = true) : e.hasCleared = false := by
  cases e <;> first | rfl | cases h

/-- **Those set aside do not wait for the request at hand**: they would be passed over as well if it
were not in flight. -/
def Firm (setup : Setup) (s t : State) (e : Errand) : Prop :=
  ∀ x, e.handing = some x → ∀ y ∈ e.passed, (t.grounded x.id).PassesOver setup s y

/-- **What a round minds on its way** to what nobody asked for:

* on its way through the queue it is fair, and those set aside do not wait for the request at hand;
* past the queue, as long as it looks further, whoever is at home gives way, or the air is full; and
  once two places have been found free, the air is not full. -/
inductive Minds (setup : Setup) (s t : State) (l : List Deed) (e : Errand) : Prop
  | queue (hloop : e.inLoop = true) (hfair : e.Fair setup s t l) (hfirm : e.Firm setup s t)
      (hsingle : t.OneAccount [e])
  | past (hpast : e.inLoop = false) (hway : e.looksFurther = true → ∀ r, t.AtHome [e] r →
      t.GivesWay setup s l r ∨
        e.hasCleared = false ∧ setup.settings.maxConcurrent ≤ t.scheduler.flights.size)

/-! ### Through the queue -/

/-- Whoever is passed over while a request is taken off with room for it does not wait for it. -/
theorem firm_of_taken {y : Request} {aside : List Request}
    (hfree : t.scheduler.flights.countFor y.account < setup.settings.maxPerAccount)
    (hsame : ∀ r₀, t.scheduler.flights.get? y.id = some r₀ → r₀.account = y.account)
    (hover : ∀ r ∈ aside, t.PassesOver setup s r) (hnow : t'.world.now = t.world.now)
    (hflights : t'.scheduler.flights = t.scheduler.flights.insert y) :
    (handOver y (.queue aside)).Firm setup s t' := by
  intro x hx r hr
  obtain rfl := Option.some.inj hx
  rcases hover r hr with ⟨time, hle, hge, hdeferred⟩ | hbusy
  · exact .inl ⟨time, hle, Nat.le_trans hge (Nat.le_of_eq hnow.symm), hdeferred⟩
  · -- The account of the one passed over is busy, so it is another one than that of the request.
    have hother : r.account ≠ y.account := by
      intro haccount
      rw [haccount] at hbusy
      omega
    refine .inr (Nat.le_trans hbusy (Flights.countFor_mono fun id r₀ hr₀ hacc => ⟨r₀, ?_, hacc⟩))
    have hid : id ≠ y.id := by
      rintro rfl
      exact hother (hacc.symm.trans (hsame r₀ hr₀))
    rw [State.grounded, State.withScheduler, hflights, Flights.get?_erase, if_neg hid,
      Flights.get?_insert, if_neg hid]
    exact hr₀

/-- A request that is handed over after its look-up has joined those in flight. -/
theorem flights_of_screened {y : Request} {aside : List Request} {onward : Onward}
    (h : handOver y onward ∈ ((screen r aside).perform setup t).next) :
    ((screen r aside).perform setup t).state.scheduler.flights = t.scheduler.flights.insert y := by
  rw [perform, doScreen] at h ⊢
  split at h
  · cases List.mem_singleton.mp h
  · cases List.mem_singleton.mp h
  · dsimp only at h ⊢
    split_ifs at h with hdue hfull
    · cases List.mem_singleton.mp h
    · cases List.mem_singleton.mp h
    · rw [if_neg hdue, if_neg hfull, (Errand.handOver.inj (List.mem_singleton.mp h)).1]
      rfl

/-- A request that is handed over is firm as long as nothing happens to those in flight. -/
theorem firm_handOver {y : Request} {accepted : Bool} {onward : Onward}
    (h : (handOver y onward).Firm setup s t) :
    (landed y accepted onward).Firm setup s ((handOver y onward).perform setup t).state := by
  have hframe := perform_frame setup t (handOver y onward)
  intro x hx r hr
  refine (h x hx r hr).later (Nat.le_of_eq hframe.now.symm) ?_
  rw [State.grounded, State.withScheduler, State.grounded, State.withScheduler, hframe.flights rfl]
  exact .refl _

/-- **After a refusal**, those set aside are still passed over, and all others stand behind the
request that was refused. -/
theorem givesWay_of_refused {x : Request} {aside : List Request}
    (hfiled : t.scheduler.flights.Filed) (hfair : (landed x false (.queue aside)).Fair setup s t l)
    (hfirm : (landed x false (.queue aside)).Firm setup s t)
    (hr : ((landed x false (.queue aside)).perform setup t).state.AtHome [putBack aside] r) :
    ((landed x false (.queue aside)).perform setup t).state.GivesWay setup s
      (.handed x false :: l) r := by
  have hstate : ((landed x false (.queue aside)).perform setup t).state =
      (t.breakOff setup x.id).arm setup setup.settings.retryDelay := rfl
  rw [hstate] at hr ⊢
  rcases hr with hwaits | ⟨e, he, haside⟩
  · refine .inr ⟨x, List.mem_cons_self, ?_⟩
    by_cases hid : r.id = x.id
    · exact .inl hid
    · rw [State.arm_queue, State.breakOff_scheduler, Scheduler.get?_breakOff _ _ _ hfiled hid]
        at hwaits
      have hfirst := hfair.first x (.inr rfl) r hwaits
      right
      by_contra hbefore
      exact hid (congrArg SortKey.id (SortKey.eq_of_not_before hfirst hbefore))
  · rw [List.mem_singleton.mp he] at haside
    refine .inl ((hfirm x rfl r haside).later (Nat.le_of_eq ?_) ?_)
    · rw [State.arm_world, State.breakOff_world]
      rfl
    · rw [State.arm_flights, State.breakOff_scheduler, Scheduler.flights_breakOff]
      split_ifs with hflies
      · exact .refl _
      · exact fun id r₀ hr₀ => ⟨r₀, Flights.Part.erase _ _ id r₀ hr₀, rfl⟩

/-! ### Past the queue -/

/-- The clock goes on. -/
theorem Minds.withWorld {w : World} (h : e.Minds setup s t l) (hle : t.world.now ≤ w.now) :
    e.Minds setup s (t.withWorld w) l := by
  cases h with
  | queue hloop hfair hfirm hsingle =>
    refine .queue hloop ⟨fun r hr => ?_, hfair.first, hfair.room⟩ (fun x hx r hr => ?_) hsingle
    · exact (hfair.aside r hr).later hle (.refl _)
    · exact (hfirm x hx r hr).later hle (.refl _)
  | past hpast hway =>
    exact .past hpast fun hfurther r hr => (hway hfurther r hr).imp_left fun hgives =>
      hgives.later hle (.refl _) (List.Subset.refl l)

end Errand

namespace Desk

variable {setup : Setup} {s t : State} {e x : Errand} {rest : List Errand} {l : List Deed}

/-- **On its way through the queue**, a round minds those whom it leaves there. -/
theorem OnRound.minds_queue (hd : OnRound s ⟨t, e :: rest⟩)
    (hafter : OnRound s ⟨(e.perform setup t).state, (e.perform setup t).next ++ rest⟩)
    (hrunning : t.scheduler.stopped = false) (hanswered : e.isAnswered t = true)
    (hloop : e.inLoop = true) (hfair : e.Fair setup s t l) (hfirm : e.Firm setup s t)
    (hsingle : t.OneAccount [e]) (hx : x ∈ (e.perform setup t).next) :
    x.Minds setup s (e.perform setup t).state (e.deeds t ++ l) := by
  by_cases hrefused : ∃ y aside, e = .landed y false (.queue aside)
  · obtain ⟨y, aside, rfl⟩ := hrefused
    obtain rfl := List.mem_singleton.mp hx
    exact .past rfl fun _ r hr => .inl (Errand.givesWay_of_refused hd.filed hfair hfirm hr)
  have haccepted : ∀ deed ∈ e.deeds t, deed.isAccepted = true := by
    intro deed hdeed
    rcases Errand.mem_deeds hdeed with ⟨_, _, -, -, rfl⟩ | ⟨y, accepted, aside, rfl, rfl⟩ |
      ⟨_, _, rfl, -⟩
    · rfl
    · cases accepted with
      | true => rfl
      | false => exact absurd ⟨y, aside, rfl⟩ hrefused
    · cases hloop
  have hleads := Errand.perform_leads setup t e
  have hsingle' : t.OneAccount (e :: rest) := hsingle.of_mem fun y hy => by
    rcases List.mem_cons.mp hy with rfl | hy
    · exact .inl (List.mem_singleton_self _)
    · exact .inr (Errand.closes_carries_nothing (hd.behind y hy)).1
  obtain ⟨y, hnext, hgoes⟩ := hd.fair_turn hafter (hd.within_turn setup haccepted fun _ => hsingle')
    hloop hrunning hanswered haccepted hfair
  obtain rfl : x = y := List.mem_singleton.mp (hnext ▸ hx)
  rcases hgoes with ⟨hloop', hfair'⟩ | ⟨hpast, hexcused⟩
  · have hsingle'' := hd.oneAccount_turn setup hloop haccepted hsingle'
    refine .queue hloop' hfair' ?_ (hsingle''.of_mem fun y hy => .inl ?_)
    · intro z hz
      rcases hleads.handing hx hz with ⟨onward, rfl⟩ | ⟨onward, rfl⟩
      · obtain ⟨accepted, hlands | ⟨report, hlands⟩⟩ := hleads
        · obtain rfl := List.singleton_inj.mp (hnext.symm.trans hlands)
          exact Errand.firm_handOver hfirm z hz
        · cases hnext.symm.trans hlands
      · rcases Errand.taken_off hx with ⟨r, aside, rfl, rfl, rfl, -⟩ | ⟨a, others, rfl, -⟩
        · refine Errand.firm_of_taken ?_ (fun r₀ hr₀ => ?_) hfair.aside
            (Errand.perform_frame setup t _).now (Errand.flights_of_screened hx) _ hz
          · exact of_decide_eq_true (hfair.room r rfl).2
          · have hid := hd.filed _ _ hr₀
            have hkept : t.IsKept [.screen r aside] r :=
              .inl (.inr ⟨_, List.mem_cons_self, List.mem_cons_self⟩)
            refine hsingle r₀ r (.inr ?_) hkept hid
            rw [hid]
            exact hr₀
        · cases hloop
    · rw [List.mem_singleton.mp hy]
      exact List.mem_append_left _ hx
  · refine .past hpast fun _ r hr => ?_
    rcases hexcused r hr with hover | ⟨hfull, -⟩
    · exact .inl (.inl hover)
    · refine .inr ⟨?_, hfull⟩
      by_contra hcleared
      rcases hleads.hasCleared hx (by simpa using hcleared) with he | rfl
      · rw [Errand.hasCleared_of_inLoop hloop] at he
        cases he
      · cases hloop

/-- Past the queue, a round goes on to mind those whom it has left there. -/
theorem OnRound.minds_past (hd : OnRound s ⟨t, e :: rest⟩) (hpast : e.inLoop = false)
    (hway : e.looksFurther = true → ∀ r, t.AtHome [e] r → t.GivesWay setup s l r ∨
      e.hasCleared = false ∧ setup.settings.maxConcurrent ≤ t.scheduler.flights.size)
    (hx : x ∈ (e.perform setup t).next) :
    x.Minds setup s (e.perform setup t).state (e.deeds t ++ l) := by
  have hleads := Errand.perform_leads setup t e
  have hpast' : x.inLoop = false := hd.loopOver_turn hpast x (List.mem_append_left _ hx)
  refine .past hpast' fun hfurther r hr => ?_
  have hfurther' : e.looksFurther = true := hleads.looksFurther hd.ofRound hpast hx hfurther
  have hnone : e.deeds t = [] := by
    cases e <;> first | rfl | cases hfurther'
  have haccepted : ∀ deed ∈ e.deeds t, deed.isAccepted = true := by
    rw [hnone]
    exact List.forall_mem_nil _
  have hwithin := hd.within_turn setup haccepted fun hloop => by
    rw [hpast] at hloop
    cases hloop
  have hbefore : t.AtHome [e] r := hd.atHome (hd.atHome_before haccepted
    (hr.mono fun y hy => List.mem_append_left _ (by rw [List.mem_singleton.mp hy]; exact hx)))
  rcases hway hfurther' r hbefore with hgives | ⟨hcleared, hfull⟩
  · exact .inl (hgives.later (Nat.le_of_eq (Errand.perform_frame setup t e).now.symm) hwithin
      (List.subset_append_right _ _))
  · refine .inr ⟨?_, Nat.le_trans hfull hwithin.size_le⟩
    by_contra hgoes
    rcases hleads.hasCleared hx (by simpa using hgoes) with he | rfl
    · rw [hcleared] at he
      cases he
    · have hspare : t.scheduler.flights.size + 2 ≤ setup.settings.maxConcurrent :=
        Errand.spare_of_lookAhead (List.ne_nil_of_mem hx)
      omega

/-- **What a round by itself keeps** on its way to what nobody asked for. -/
structure KeepsMind (setup : Setup) (s t : State) (es : List Errand) (l : List Deed) : Prop where
  running : t.scheduler.stopped = false
  sole : es.countP Errand.mayClaim ≤ 1
  minds : ∀ e ∈ es, e.Minds setup s t l

theorem OnRound.keepsMind_turn (hd : OnRound s ⟨t, e :: rest⟩)
    (hafter : OnRound s ⟨(e.perform setup t).state, (e.perform setup t).next ++ rest⟩)
    (hanswered : e.isAnswered t = true) (h : KeepsMind setup s t (e :: rest) l) :
    KeepsMind setup s (e.perform setup t).state ((e.perform setup t).next ++ rest)
      (e.deeds t ++ l) := by
  have hframe := Errand.perform_frame setup t e
  have hcount := (Errand.perform_leads setup t e).countP_mayClaim hd.ofRound
  have hsole := h.sole
  have hself : (if e.mayClaim = true then 1 else 0) = e.mayClaim.toNat := by
    cases e.mayClaim <;> rfl
  rw [List.countP_cons, hself] at hsole
  refine ⟨hframe.stopped.trans h.running, ?_, fun x hx => ?_⟩
  · rw [List.countP_append]
    omega
  rcases List.mem_append.mp hx with hnext | hrest
  · cases h.minds e List.mem_cons_self with
    | queue hloop hfair hfirm hsingle =>
      exact hd.minds_queue hafter h.running hanswered hloop hfair hfirm hsingle hnext
    | past hpast hway => exact hd.minds_past hpast hway hnext
  · have hpast : x.inLoop = false := (Errand.closes_carries_nothing (hd.behind x hrest)).2.2.2
    refine .past hpast fun hfurther r hr => ?_
    -- Only one errand may still lead to a claim, so the one in hand leaves the books alone.
    have hpos : 0 < rest.countP Errand.mayClaim :=
      List.countP_pos_iff.mpr ⟨x, hrest, Errand.mayClaim_of_looksFurther hfurther⟩
    have hbooks : e.touchesBooks = false := by
      refine Errand.touchesBooks_of_not_mayClaim hd.ofRound (Bool.toNat_eq_zero.mp ?_)
      omega
    cases h.minds x (.tail _ hrest) with
    | queue hloop =>
      rw [hpast] at hloop
      cases hloop
    | past _ hway =>
      have hbefore : t.AtHome [x] r := by
        rw [State.AtHome, hframe.queue hbooks] at hr
        exact hr
      have hflights := hframe.flights hbooks
      rw [hflights]
      refine (hway hfurther r hbefore).imp_left fun hgives => hgives.later
        (Nat.le_of_eq hframe.now.symm) ?_ (List.subset_append_right _ _)
      rw [hflights]
      exact .refl _

/-- **Nobody is overtaken but behind a request that was refused.** Take a round by itself from any
state whose books can be read, as they can in every state that a run reaches (`Crew.legible_run`),
and in which no attachment is there for two accounts, as between operations that follow one another
(`State.oneAccount_of_inOrder`); every look-up of a request from the queue goes through, and the
carrier takes what it likes. At the moment at which the round is to claim a record that nobody asked
for, for everyone who still waits,

* they were not due at some time of the round, or their account has all the downloads in flight that
  it may have, or
* the carrier has refused a request in this round, and it is theirs or comes before theirs. -/
theorem overtakes_behind_refused (setup : Setup) (s : State) (moves : List Move) (u : Desk)
    (hq : s.scheduler.queue.Matched) (hfiled : s.scheduler.flights.Filed)
    (hsingle : s.OneAccount []) (hrun : run setup ⟨s, [.beginRound]⟩ moves = some u)
    (halone : Throughout (move setup) (Undisturbed setup) ⟨s, [.beginRound]⟩ moves)
    (hanswered : Throughout (move setup) Answered ⟨s, [.beginRound]⟩ moves) (a : Attachment)
    (others : List Attachment) (hclaims : .claim a others ∈ u.task) :
    ∀ r ∈ u.state.scheduler.queue.toList, u.state.PassesOver setup s r ∨
      ∃ x, .handed x false ∈ roundDeeds setup s moves ∧
        (r.id = x.id ∨ x.sortKey.before r.sortKey = true) := by
  cases hstopped : s.scheduler.stopped with
  | true =>
    -- A scheduler that has been stopped claims nothing.
    have hstill : s.Still [.beginRound] := ⟨hstopped, hfiled, List.forall_mem_singleton.mpr rfl⟩
    have hend := follow_keeps (fun _ _ _ => still_move) ⟨hstill, State.WindsDown.refl s⟩ hrun
    cases hend.1.idle _ hclaims
  | false =>
    have hbegin : KeepsMind setup s s [.beginRound] [] := by
      refine ⟨hstopped, Nat.le_refl 1, fun e he => ?_⟩
      rw [List.mem_singleton.mp he]
      have hsingle' : s.OneAccount [.beginRound] :=
        hsingle.of_mem fun x hx => .inr (by rw [List.mem_singleton.mp hx]; rfl)
      refine .queue rfl ⟨List.forall_mem_nil _, ?_, fun _ hx => by cases hx⟩
        (fun _ hx => by cases hx) hsingle'
      rintro x (⟨accepted, hx⟩ | hx)
      · cases hx
      · cases hx
    obtain ⟨hon, hminds⟩ := keeps_along (P := OnRound s) (I := KeepsMind setup s) hrun halone
      (fun _ hu => hu) (onRound_begin hq hfiled) (fun _ _ _ => onRound_move) hanswered hbegin
      (fun t es l w hi hle => ⟨hi.running, hi.sole, fun e he => (hi.minds e he).withWorld hle⟩)
      (fun t e rest l hd hself hafter hi => hd.keepsMind_turn hafter (hself rfl e rfl) hi)
    intro r hr
    have hwaits := (Queue.mem_toList hon.matched).mp hr
    cases hminds.minds _ hclaims with
    | queue hloop => cases hloop
    | past _ hway =>
      rcases hway rfl r (.inl hwaits) with hgives | ⟨hcleared, -⟩
      · exact hgives
      · cases hcleared

/-- Four wanted attachments of three accounts and one that nobody asked for, in a world whose
carrier refuses the third one. -/
def fourWantedWorld : World where
  records := .ofSeed
    { accounts := [{ id := 4 }]
      attachments := [{ id := 1, message := 10, account := 1, flags := .requested },
        { id := 2, message := 10, account := 1, flags := .requested },
        { id := 3, message := 20, account := 2, flags := .requested },
        { id := 4, message := 30, account := 3, flags := .requested },
        { id := 5, message := 40, account := 4, contentId := some "part" }] }
  faults := [⟨.startTransfer, some 3⟩]

/-- Three places. -/
def threePlaces : Setup := { settings := { maxConcurrent := 3 } }

/-- The desk with the four of them in the queue. -/
def fourWanted : Desk :=
  ((fresh fourWantedWorld).run threePlaces (.begin .rescan :: List.replicate 6 .turn)).getD
    (fresh fourWantedWorld)

/-- The first one is in flight, the second one waits for its account, the third one was refused, and
the fourth one stands behind it. -/
theorem overtakes_behind_refused_third :
    (fresh fourWantedWorld).run threePlaces (.begin .rescan :: List.replicate 6 .turn) =
        some fourWanted ∧
      ∃ u, run threePlaces ⟨fourWanted.state, [.beginRound]⟩ (List.replicate 15 .turn) = some u ∧
        (∃ a ∈ fourWantedWorld.records.attachments.get? 5, .claim a [] ∈ u.task) ∧
        u.state.scheduler.queue.toList.map (·.id) = [2, 4, 3] ∧
        ∀ r ∈ u.state.scheduler.queue.toList, u.state.PassesOver threePlaces fourWanted.state r ∨
          ∃ x, .handed x false ∈
              roundDeeds threePlaces fourWanted.state (List.replicate 15 .turn) ∧
            (r.id = x.id ∨ x.sortKey.before r.sortKey = true) := by
  have hrun : (fresh fourWantedWorld).run threePlaces (.begin .rescan :: List.replicate 6 .turn) =
      some fourWanted := rfl
  have hbooks := (sound_run hrun).books
  refine ⟨hrun, _, rfl, ⟨_, rfl, List.mem_cons_self⟩, rfl, ?_⟩
  exact overtakes_behind_refused threePlaces _ (List.replicate 15 .turn) _ (Tidy.matched hbooks)
    (Tidy.filed hbooks) (State.oneAccount_of_inOrder hbooks) rfl (by decide) (by decide) _ []
    List.mem_cons_self

/-- Two wanted attachments and one that nobody asked for, each of an account of its own, in a world
whose carrier refuses the first request. -/
def onceRefusingWorld : World where
  records := .ofSeed
    { accounts := [{ id := 1 }, { id := 2 }, { id := 3 }]
      attachments := [{ id := 1, message := 10, account := 1, flags := .requested },
        { id := 2, message := 20, account := 2, flags := .requested },
        { id := 3, message := 30, account := 3, contentId := some "part" }] }
  carrier := .noting 1 none

/-- The desk with both of them in the queue. -/
def bothWanted : Desk :=
  ((fresh onceRefusingWorld).run {} (.begin .rescan :: List.replicate 4 .turn)).getD
    (fresh onceRefusingWorld)

/-- **The second request is overtaken.** The carrier refuses the first request, and so the round
never looks at the second one; but it goes on to claim the attachment that nobody asked for, and the
carrier takes it. When it is claimed, the second request waits, its record is there, and it is not
passed over. -/
theorem second_overtaken :
    (fresh onceRefusingWorld).run {} (.begin .rescan :: List.replicate 4 .turn) =
        some bothWanted ∧
      ∃ u a others d, run {} ⟨bothWanted.state, [.beginRound]⟩ (List.replicate 10 .turn) = some u ∧
        u.task = [.claim a others, .endRound] ∧
        (∃ r ∈ u.state.scheduler.queue.toList,
          (∃ record, u.state.world.attachment r.id = .ok (some record)) ∧
          (∀ deed ∈ roundDeeds {} bothWanted.state (List.replicate 10 .turn),
            deed.subject ≠ some r.id) ∧
          ¬ u.state.PassesOver {} bothWanted.state r) ∧
        Round {} bothWanted.state (List.replicate 14 .turn) d ∧
        Throughout (move {}) Answered ⟨bothWanted.state, [.beginRound]⟩ (List.replicate 14 .turn) ∧
        ∃ c, .claimed c true ∈ roundDeeds {} bothWanted.state (List.replicate 14 .turn) := by
  refine ⟨rfl, _, _, _, _, rfl, rfl, ⟨_, .head _, ⟨_, rfl⟩, by decide, ?_⟩, ⟨rfl, by decide, rfl⟩,
    by decide, _, .head _⟩
  rintro (⟨time, -, -, hdeferred⟩ | hbusy)
  · cases hdeferred
  · revert hbusy
    decide

end Desk

end MailFetch

import MailFetch.Proofs.SoleRound

/-! # No request is lost in a round

A round by itself takes requests from the queue, sets some aside, drops some, hands some over, and
breaks off in several places. `Desk.round_conserves` says what becomes of them: exactly one of four
fates befalls every request that waited when the round began. Those in flight are left alone, and at
most one request is new, one that nobody asked for.

The invariant is the `Stage` of each request: at home, being handed over, or past the one deed that
settles its fate. -/

namespace MailFetch

/-! ### Whose deeds -/

namespace Deed

/-- The attachment whose request from the queue a deed is about. -/
def subject : Deed → Option Int
  | dropped r | handed r _ => some r.id
  | claimed _ _ => none

/-- Whether a request from the queue was handed over. -/
def isHanded : Deed → Bool
  | handed _ _ => true
  | _ => false

/-- Whether a request that nobody asked for was handed over. -/
def isClaimed : Deed → Bool
  | claimed _ _ => true
  | _ => false

end Deed

/-- Of the requests from the queue for an attachment, a record tells one deed only. -/
def Sole (l : List Deed) (id : Int) (deed : Deed) : Prop :=
  deed ∈ l ∧ ∀ x ∈ l, x.subject = some id → x = deed

theorem sole_append {l new : List Deed} {id : Int} {deed : Deed} (h : Sole l id deed)
    (hnew : ∀ x ∈ new, x.subject ≠ some id) : Sole (new ++ l) id deed := by
  refine ⟨List.mem_append_right _ h.1, fun x hx hid => ?_⟩
  rcases List.mem_append.mp hx with hx | hx
  · exact absurd hid (hnew x hx)
  · exact h.2 x hx hid

theorem sole_first {l : List Deed} {id : Int} {deed : Deed}
    (hnone : ∀ x ∈ l, x.subject ≠ some id) : Sole (deed :: l) id deed := by
  refine ⟨List.mem_cons_self, fun x hx hid => ?_⟩
  rcases List.mem_cons.mp hx with rfl | hx
  · rfl
  · exact absurd hid (hnone x hx)

/-! ### Fates -/

/-- What becomes in a round of a request that waited when it began. -/
inductive Fate
  | waits
  | flies
  | gone
  | sentBack
deriving DecidableEq

/-- A request was reported as given up between two states. -/
def State.Reported (s s' : State) (r : Request) : Prop :=
  ∃ news time, s'.log = news ++ s.log ∧ ⟨time, .abandoned r⟩ ∈ news

/-- **When a fate befalls a request** in a round from the state `s` to the state `s'`:

* it still waits, as it was;
* it has been handed over and is in flight, with nothing changed but the marks of its start;
* its own look-up answered that the record is gone, and it has been dropped;
* it was the last one from the queue that was handed over, and the carrier refused it: then it waits
  again with one more retry, at a strictly later place, or has been given up if that is more than it
  may have.

For a request that is dropped or given up, nothing is left in the books, unless the round has
claimed the record again. -/
def Fate.Befalls (setup : Setup) (s s' : State) (deeds : List Deed) (r : Request) : Fate → Prop
  | waits =>
    (∀ deed ∈ deeds, deed.subject ≠ some r.id) ∧ s'.scheduler.queue.index.get? r.id = some r
  | flies =>
    ∃ start, s.world.now ≤ start ∧ start ≤ s'.world.now ∧
      .handed (r.dispatch start) true ∈ deeds ∧
      s'.scheduler.flights.get? r.id = some (r.dispatch start)
  | gone =>
    .dropped r ∈ deeds ∧
      (s'.Unbooked r.id ∨ ∃ c accepted, .claimed c accepted ∈ deeds ∧ c.id = r.id)
  | sentBack =>
    ∃ start, s.world.now ≤ start ∧ start ≤ s'.world.now ∧
      deeds.find? Deed.isHanded = some (.handed (r.dispatch start) false) ∧
      if setup.settings.maxRetries < r.retries + 1 then
        s.Reported s' (r.dispatch start).land.countRetry ∧
          (s'.Unbooked r.id ∨ ∃ c accepted, .claimed c accepted ∈ deeds ∧ c.id = r.id)
      else
        ∃ time x, s'.scheduler.queue.index.get? r.id = some x ∧
          x = (r.dispatch start).land.countRetry.retryCopy time ∧ x.retries = r.retries + 1 ∧
          r.enqueuedAt < x.enqueuedAt

/-! ### A request that is refused -/

namespace State

variable {setup : Setup} {t : State} {r : Request}

/-- A transfer that is broken off without a retry left is reported as given up. -/
theorem log_breakOff (h : t.scheduler.flights.get? r.id = some r)
    (hmax : setup.settings.maxRetries < r.retries + 1) :
    (t.breakOff setup r.id).log = ⟨t.world.now, .abandoned r.land.countRetry⟩ :: t.log := by
  unfold breakOff
  dsimp only
  rw [Scheduler.breakOff_of_some _ _ _ h, log_abandon, Scheduler.requeue_fst]
  have hmax' : setup.settings.maxRetries < r.land.countRetry.retries := hmax
  rw [if_pos hmax']
  rfl

/-- Otherwise it waits for its next try. -/
theorem waiting_breakOff (h : t.scheduler.flights.get? r.id = some r) (hpos : 0 ≤ r.id)
    (hmax : ¬ setup.settings.maxRetries < r.retries + 1) :
    (t.breakOff setup r.id).scheduler.queue.index.get? r.id =
      some (r.land.countRetry.retryCopy t.world.now) := by
  rw [breakOff_scheduler, Scheduler.breakOff_of_some _ _ _ h]
  refine (Scheduler.get?_requeue_self _ _ _ r.land).trans (if_neg ?_)
  rintro (hlt | hneg)
  · exact hmax hlt
  · exact absurd hpos (Int.not_le.mpr hneg)

/-- Without a retry left, it is in neither book. -/
theorem unbooked_breakOff (h : t.scheduler.flights.get? r.id = some r)
    (hmax : setup.settings.maxRetries < r.retries + 1) : (t.breakOff setup r.id).Unbooked r.id := by
  rw [Unbooked, breakOff_scheduler]
  constructor
  · rw [Queue.contains_eq_false_iff, Scheduler.breakOff_of_some _ _ _ h]
    exact (Scheduler.get?_requeue_self _ _ _ r.land).trans (if_pos (.inl hmax))
  · rw [Flights.contains_eq_false_iff]
    exact Scheduler.get?_breakOff_self ..

theorem Reported.trans {s s' : State} (h : s.Reported s' r) (hlog : s'.log <:+ t.log) :
    s.Reported t r := by
  obtain ⟨news, time, heq, hmem⟩ := h
  obtain ⟨more, hmore⟩ := hlog
  exact ⟨more ++ news, time, by rw [← hmore, heq, List.append_assoc],
    List.mem_append_right _ hmem⟩

end State

/-! ### What is claimed -/

/-- A round has claimed the record of an attachment. -/
def HasClaimed (es : List Errand) (l : List Deed) (id : Int) : Prop :=
  (∃ e ∈ es, ∃ c : Request, c.id = id ∧
      (e = .handOver c .done ∨ ∃ accepted, e = .landed c accepted .done)) ∨
    ∃ c accepted, .claimed c accepted ∈ l ∧ c.id = id

/-- The round is through with the queue. -/
def LoopOver (es : List Errand) : Prop := ∀ e ∈ es, e.inLoop = false

/-- Nothing is left for an attachment, unless its record has been claimed after the queue. -/
def State.NoneLeft (t : State) (es : List Errand) (l : List Deed) (id : Int) : Prop :=
  ¬ t.Live es id ∨ LoopOver es ∧ HasClaimed es l id

theorem State.unbooked_of_not_live {t : State} {id : Int} (hq : t.scheduler.queue.Matched)
    (hfiled : t.scheduler.flights.Filed) (h : ¬ t.Live [] id) : t.Unbooked id := by
  constructor
  · by_contra hwaits
    obtain ⟨x, hx⟩ := Queue.contains_iff.mp (by simpa using hwaits)
    obtain ⟨rfl, -, -⟩ := hq.listed _ _ hx
    exact h ⟨x, rfl, .inl (.inl hx)⟩
  · by_contra hflies
    obtain ⟨x, hx⟩ := Flights.contains_iff.mp (by simpa using hflies)
    obtain rfl := hfiled _ _ hx
    exact h ⟨x, rfl, .inr (.inl hx)⟩

/-- Nothing is there for an attachment that has no entry and is not carried. -/
theorem State.not_live {t : State} {es : List Errand} {id : Int} (hun : t.Unbooked id)
    (hes : ∀ e ∈ es, id ∉ e.inHand) : ¬ t.Live es id := by
  rintro ⟨x, rfl, (hwaits | ⟨y, hy, haside⟩) | (hflies | ⟨y, hy, hsettling⟩)⟩
  · rw [Unbooked, Queue.contains_iff.mpr ⟨x, hwaits⟩] at hun
    cases hun.1
  · exact hes y hy (Errand.mem_inHand_of_aside haside)
  · rw [Unbooked, Flights.contains_iff.mpr ⟨x, hflies⟩] at hun
    cases hun.2
  · exact hes y hy (Errand.mem_inHand_of_settling hsettling)

/-- When the round is over, nothing is left in the books, or the record has been claimed. -/
theorem State.NoneLeft.gone {t : State} {l : List Deed} {id : Int} (h : t.NoneLeft [] l id)
    (hq : t.scheduler.queue.Matched) (hfiled : t.scheduler.flights.Filed) :
    t.Unbooked id ∨ ∃ c accepted, .claimed c accepted ∈ l ∧ c.id = id := by
  rcases h with hlive | ⟨-, ⟨e, he, -⟩ | hclaimed⟩
  · exact .inl (unbooked_of_not_live hq hfiled hlive)
  · cases he
  · exact .inr hclaimed

namespace Errand

variable {s : State} {e : Errand} {deed : Deed}

/-- **Which errand does which deed.** -/
theorem mem_deeds (h : deed ∈ e.deeds s) :
    (∃ r aside, e = screen r aside ∧ s.world.attachment r.id = .ok none ∧ deed = .dropped r) ∨
      (∃ r accepted aside, e = landed r accepted (.queue aside) ∧ deed = .handed r accepted) ∨
      ∃ r accepted, e = landed r accepted .done ∧ deed = .claimed r accepted := by
  cases e with
  | screen r aside =>
    rw [deeds] at h
    split at h
    next hgone => exact .inl ⟨r, aside, rfl, hgone, List.mem_singleton.mp h⟩
    · cases h
  | landed r accepted onward =>
    cases onward with
    | queue aside => exact .inr (.inl ⟨r, accepted, aside, rfl, List.mem_singleton.mp h⟩)
    | done => exact .inr (.inr ⟨r, accepted, rfl, List.mem_singleton.mp h⟩)
  | _ => cases h

end Errand

namespace Desk

variable {setup : Setup} {s t : State} {e : Errand} {rest : List Errand} {l : List Deed}
  {r : Request} {id : Int}

/-- Before a deed about a request from the queue, there is a request for the attachment. -/
theorem Held.live_of_subject (hd : Held setup s ⟨t, e :: rest⟩) {deed : Deed}
    (h : deed ∈ e.deeds t) (hid : deed.subject = some id) : t.Live (e :: rest) id := by
  rcases Errand.mem_deeds h with ⟨x, aside, rfl, -, rfl⟩ | ⟨x, accepted, aside, rfl, rfl⟩ |
    ⟨x, accepted, rfl, rfl⟩
  · exact ⟨x, Option.some.inj hid, .inl (.inr ⟨_, List.mem_cons_self, List.mem_cons_self⟩)⟩
  · exact ⟨x, Option.some.inj hid, .inr (.inl (hd.handing _ List.mem_cons_self x rfl))⟩
  · cases hid

/-- Once the round is through with the queue, no deed is about a request from there. -/
theorem subject_of_loopOver (hover : LoopOver (e :: rest)) :
    ∀ deed ∈ e.deeds t, deed.subject ≠ some id := by
  intro deed hdeed hid
  have hloop := hover e List.mem_cons_self
  rcases Errand.mem_deeds hdeed with ⟨x, aside, rfl, -⟩ | ⟨x, accepted, aside, rfl, -⟩ |
    ⟨x, accepted, rfl, rfl⟩
  · cases hloop
  · cases hloop
  · cases hid

theorem OnRound.loopOver_turn (hd : OnRound s ⟨t, e :: rest⟩) (he : e.inLoop = false) :
    LoopOver ((e.perform setup t).next ++ rest) := by
  intro x hx
  rcases List.mem_append.mp hx with hx | hx
  · by_contra hloop
    have hback := (Errand.perform_leads setup t e).inLoop hd.ofRound hx (by simpa using hloop)
    rw [he] at hback
    cases hback
  · exact (Errand.closes_carries_nothing (hd.behind x hx)).2.2.2

/-- What has been claimed stays so. -/
theorem hasClaimed_turn (h : HasClaimed (e :: rest) l id) :
    HasClaimed ((e.perform setup t).next ++ rest) (e.deeds t ++ l) id := by
  rcases h with ⟨x, hx, c, hid, hc⟩ | ⟨c, accepted, hc, hid⟩
  · rcases List.mem_cons.mp hx with rfl | hrest
    · rcases hc with rfl | ⟨accepted, rfl⟩
      · obtain ⟨accepted, hnext | ⟨report, hnext⟩⟩ :=
          Errand.perform_leads setup t (.handOver c .done)
        · exact .inl ⟨.landed c accepted .done, by simp [hnext], c, hid, .inr ⟨accepted, rfl⟩⟩
        · exact .inl ⟨.landed c accepted .done, by simp [hnext], c, hid, .inr ⟨accepted, rfl⟩⟩
      · exact .inr ⟨c, accepted, List.mem_append_left _ List.mem_cons_self, hid⟩
    · exact .inl ⟨x, List.mem_append_right _ hrest, c, hid, hc⟩
  · exact .inr ⟨c, accepted, List.mem_append_right _ hc, hid⟩

/-- Whatever there is after a turn was there before it, or has been claimed. -/
theorem Held.live_turn (hd : Held setup s ⟨t, e :: rest⟩)
    (h : (e.perform setup t).state.Live ((e.perform setup t).next ++ rest) id) :
    t.Live (e :: rest) id ∨ LoopOver ((e.perform setup t).next ++ rest) ∧
      HasClaimed ((e.perform setup t).next ++ rest) (e.deeds t ++ l) id := by
  refine (Errand.live_of_round (Tidy.matched hd.books) (Tidy.filed hd.books) hd.ofRound h).imp_right
    ?_
  rintro ⟨c, hnext, hid⟩
  refine ⟨hd.loopOver_turn ?_, .inl ⟨_, List.mem_append_left _ hnext, c, hid, .inl rfl⟩⟩
  rcases Errand.taken_off hnext with ⟨_, _, -, honward, -⟩ | ⟨a, others, rfl, -⟩
  · cases honward
  · rfl

/-- **Where nothing is left, nothing comes**, unless it is claimed. -/
theorem Held.noneLeft_turn (hd : Held setup s ⟨t, e :: rest⟩) (h : t.NoneLeft (e :: rest) l id) :
    (e.perform setup t).state.NoneLeft ((e.perform setup t).next ++ rest) (e.deeds t ++ l) id := by
  rcases h with hlive | ⟨hover, hclaimed⟩
  · by_cases hafter : (e.perform setup t).state.Live ((e.perform setup t).next ++ rest) id
    · exact .inr ((hd.live_turn hafter).resolve_left hlive)
    · exact .inl hafter
  · exact .inr ⟨hd.loopOver_turn (hover e List.mem_cons_self), hasClaimed_turn hclaimed⟩

end Desk

/-! ### The stages of a request -/

/-- **How far a round has come with a request** from the queue. -/
inductive Stage (setup : Setup) (s : State) (r : Request) (t : State) (es : List Errand)
    (l : List Deed) : Prop
  /-- The request waits or is set aside, as it was. -/
  | home (hhome : t.AtHome es r) (hnone : ∀ deed ∈ l, deed.subject ≠ some r.id)
  /-- The request has been taken off and is being handed over. -/
  | leaving (start : Nat) (hle : s.world.now ≤ start) (hge : start ≤ t.world.now)
      (hhanding : ∃ e ∈ es, e.inLoop = true ∧ e.handing = some (r.dispatch start))
      (hnone : ∀ deed ∈ l, deed.subject ≠ some r.id)
  /-- The carrier has taken the request. -/
  | flying (start : Nat) (hle : s.world.now ≤ start) (hge : start ≤ t.world.now)
      (hsole : Sole l r.id (.handed (r.dispatch start) true))
      (hflies : t.scheduler.flights.get? r.id = some (r.dispatch start))
      (hother : ∀ e ∈ es, ∀ y, e.handing = some y → y.id ≠ r.id)
  /-- The request has been dropped. -/
  | gone (hsole : Sole l r.id (.dropped r)) (hleft : t.NoneLeft es l r.id)
  /-- The carrier has refused the request, and it has been given up. -/
  | givenUp (start : Nat) (hle : s.world.now ≤ start) (hge : start ≤ t.world.now)
      (hsole : Sole l r.id (.handed (r.dispatch start) false))
      (hlast : l.find? Deed.isHanded = some (.handed (r.dispatch start) false))
      (hover : LoopOver es) (hmax : setup.settings.maxRetries < r.retries + 1)
      (hreported : s.Reported t (r.dispatch start).land.countRetry)
      (hleft : t.NoneLeft es l r.id)
  /-- The carrier has refused the request, and it is at home again. -/
  | back (start : Nat) (hle : s.world.now ≤ start) (hge : start ≤ t.world.now)
      (hsole : Sole l r.id (.handed (r.dispatch start) false))
      (hlast : l.find? Deed.isHanded = some (.handed (r.dispatch start) false))
      (hover : LoopOver es) (hmax : ¬ setup.settings.maxRetries < r.retries + 1)
      (hhome : ∃ time, t.AtHome es ((r.dispatch start).land.countRetry.retryCopy time))

namespace Desk

variable {setup : Setup} {s t : State} {e : Errand} {rest : List Errand} {l : List Deed}
  {r : Request} {id : Int}

/-- A deed about a request at home drops it. -/
theorem Held.dropped_of_home (hd : Held setup s ⟨t, e :: rest⟩) (hr : t.AtHome (e :: rest) r)
    {deed : Deed} (h : deed ∈ e.deeds t) (hid : deed.subject = some r.id) :
    ∃ aside, e = .screen r aside ∧ t.world.attachment r.id = .ok none ∧ deed = .dropped r := by
  rcases Errand.mem_deeds h with ⟨x, aside, rfl, hgone, rfl⟩ | ⟨x, accepted, aside, rfl, rfl⟩ |
    ⟨x, accepted, rfl, rfl⟩
  · obtain rfl := hd.eq_of_aside hr List.mem_cons_self (Option.some.inj hid)
    exact ⟨aside, rfl, hgone, rfl⟩
  · have hflies := hd.handing _ List.mem_cons_self x rfl
    exact (hd.settled.apart.not_both hd.settled.sound (Option.some.inj hid).symm hr
      (.inl hflies)).elim
  · cases hid

theorem le_now_perform (setup : Setup) (e : Errand) {start : Nat} (h : start ≤ t.world.now) :
    start ≤ (e.perform setup t).state.world.now := by
  rw [(Errand.perform_frame setup t e).now]
  exact h

/-- **A request at home** stays there, is dropped or is taken off. -/
theorem Held.stage_home (hd : Held setup s ⟨t, e :: rest⟩) (hr : t.AtHome (e :: rest) r)
    (hnone : ∀ deed ∈ l, deed.subject ≠ some r.id) :
    Stage setup s r (e.perform setup t).state ((e.perform setup t).next ++ rest)
      (e.deeds t ++ l) := by
  by_cases hdrop : ∃ aside, e = .screen r aside ∧ t.world.attachment r.id = .ok none
  · obtain ⟨aside, rfl, hgone⟩ := hdrop
    have hturn : (Errand.screen r aside).perform setup t =
        { state := t, next := [.takeNext aside] } := by
      rw [Errand.perform, Errand.doScreen, hgone]
    have hdeeds : (Errand.screen r aside).deeds t = [.dropped r] := by
      rw [Errand.deeds, hgone]
    rw [hturn, hdeeds]
    -- The request was carried once and had no entry, so nothing is left without it.
    have hun : t.Unbooked r.id := hd.carried.of_mem List.mem_cons_self
    have hnodup := hd.carried.nodup
    rw [Errand.inHand_of_keeps rfl rfl] at hnodup
    refine .gone (sole_first hnone) (.inl (State.not_live hun fun x hx => ?_))
    rcases List.mem_cons.mp hx with rfl | hx
    · rw [Errand.inHand_of_keeps rfl rfl]
      exact (List.nodup_cons.mp hnodup).1
    · rw [hd.inHand_behind x hx]
      exact List.not_mem_nil
  · have hnew : ∀ deed ∈ e.deeds t ++ l, deed.subject ≠ some r.id := by
      intro deed hdeed hid
      rcases List.mem_append.mp hdeed with hdeed | hdeed
      · obtain ⟨aside, he, hgone, -⟩ := hd.dropped_of_home hr hdeed hid
        exact hdrop ⟨aside, he, hgone⟩
      · exact hnone deed hdeed hid
    rcases Errand.home_stays hd.books hd.ready hd.carried hd.ofRound (hd.atHome hr) with
      hafter | ⟨aside, rfl, hgone | hnext⟩
    · exact .home (hafter.mono fun x hx => List.mem_append_left _ hx) hnew
    · exact absurd ⟨aside, rfl, hgone⟩ hdrop
    · refine .leaving t.world.now hd.later (le_now_perform setup _ (Nat.le_refl _))
        ⟨.handOver (r.dispatch t.world.now) (.queue aside), ?_, rfl, rfl⟩ hnew
      rw [hnext]
      exact List.mem_cons_self

/-- **A request that is refused** is given up or comes back, and the round is through with the
queue. -/
theorem Held.stage_refused {aside : List Request} {start : Nat}
    (hd : Held setup s ⟨t, .landed (r.dispatch start) false (.queue aside) :: rest⟩)
    (hpos : 0 ≤ r.id) (hle : s.world.now ≤ start) (hge : start ≤ t.world.now)
    (hnone : ∀ deed ∈ l, deed.subject ≠ some r.id) :
    Stage setup s r
      ((Errand.landed (r.dispatch start) false (.queue aside)).perform setup t).state
      (((Errand.landed (r.dispatch start) false (.queue aside)).perform setup t).next ++ rest)
      (.handed (r.dispatch start) false :: l) := by
  have hflies := hd.handing _ List.mem_cons_self (r.dispatch start) rfl
  have hge' := le_now_perform setup
    (.landed (r.dispatch start) false (.queue aside)) hge
  have hover : LoopOver (.putBack aside :: rest) := by
    intro x hx
    rcases List.mem_cons.mp hx with rfl | hx
    · rfl
    · exact (Errand.closes_carries_nothing (hd.behind x hx)).2.2.2
  by_cases hmax : setup.settings.maxRetries < r.retries + 1
  · refine .givenUp start hle hge' (sole_first hnone) rfl hover hmax ?_ (.inl ?_)
    · obtain ⟨news, hnews⟩ := hd.logged
      refine ⟨⟨t.world.now, .abandoned (r.dispatch start).land.countRetry⟩ :: news, t.world.now, ?_,
        List.mem_cons_self⟩
      rw [List.cons_append, hnews]
      exact State.log_breakOff (r := r.dispatch start) hflies hmax
    · have hun : (t.breakOff setup r.id).Unbooked r.id :=
        State.unbooked_breakOff (r := r.dispatch start) hflies hmax
      refine State.not_live hun fun x hx hmem => ?_
      rcases List.mem_cons.mp hx with rfl | hx
      · -- Whoever is set aside is not in flight.
        have hground : t.scheduler.flights.contains r.id = false := (hd.carried.of_mem hmem).2
        have hflying : t.scheduler.flights.contains r.id = true :=
          Flights.contains_iff.mpr ⟨_, hflies⟩
        rw [hflying] at hground
        cases hground
      · rw [hd.inHand_behind x hx] at hmem
        cases hmem
  · refine .back start hle hge' (sole_first hnone) rfl hover hmax ⟨t.world.now, .inl ?_⟩
    exact State.waiting_breakOff (r := r.dispatch start) hflies hpos hmax

/-- **A request that is handed over** goes into the air, or comes back. -/
theorem Held.stage_leaving (hd : Held setup s ⟨t, e :: rest⟩) (hpos : 0 ≤ r.id) {start : Nat}
    (hle : s.world.now ≤ start) (hge : start ≤ t.world.now)
    (hhanding : ∃ x ∈ e :: rest, x.inLoop = true ∧ x.handing = some (r.dispatch start))
    (hnone : ∀ deed ∈ l, deed.subject ≠ some r.id) :
    Stage setup s r (e.perform setup t).state ((e.perform setup t).next ++ rest)
      (e.deeds t ++ l) := by
  have hge' := le_now_perform setup e hge
  have hself : e.inLoop = true ∧ e.handing = some (r.dispatch start) := by
    obtain ⟨x, hx, hloop, hhands⟩ := hhanding
    rcases List.mem_cons.mp hx with rfl | hx
    · exact ⟨hloop, hhands⟩
    · rw [(Errand.closes_carries_nothing (hd.behind x hx)).2.2.2] at hloop
      cases hloop
  obtain ⟨hloop, hhands⟩ := hself
  have hflies := hd.handing e List.mem_cons_self _ hhands
  cases e with
  | handOver y onward =>
    obtain rfl := Option.some.inj hhands
    cases onward with
    | done => cases hloop
    | queue aside =>
      obtain ⟨accepted, hnext⟩ := Errand.perform_leads setup t (.handOver (r.dispatch start)
        (.queue aside))
      refine .leaving start hle hge' ⟨.landed (r.dispatch start) accepted (.queue aside), ?_, rfl,
        rfl⟩ hnone
      rcases hnext with hnext | ⟨report, hnext⟩ <;> simp [hnext]
  | landed y accepted onward =>
    obtain rfl := Option.some.inj hhands
    cases onward with
    | done => cases hloop
    | queue aside =>
      cases accepted with
      | true =>
        refine .flying start hle hge' (sole_first hnone) hflies fun x hx z hz => ?_
        rcases List.mem_cons.mp hx with rfl | hx
        · cases hz
        · rw [(Errand.closes_carries_nothing (hd.behind x hx)).2.2.1] at hz
          cases hz
      | false => exact hd.stage_refused hpos hle hge hnone
  | _ => cases hhands

/-- **A request in flight** stays there. -/
theorem Held.stage_flying (hd : Held setup s ⟨t, e :: rest⟩) {start : Nat}
    (hle : s.world.now ≤ start) (hge : start ≤ t.world.now)
    (hsole : Sole l r.id (.handed (r.dispatch start) true))
    (hflies : t.scheduler.flights.get? r.id = some (r.dispatch start))
    (hother : ∀ x ∈ e :: rest, ∀ y, x.handing = some y → y.id ≠ r.id) :
    Stage setup s r (e.perform setup t).state ((e.perform setup t).next ++ rest)
      (e.deeds t ++ l) := by
  have hstays := Errand.flight_stays hd.ofRound hd.ready hflies (hother e List.mem_cons_self)
  have hnext := Errand.handing_ne hd.ready hflies (hother e List.mem_cons_self)
  refine .flying start hle (le_now_perform setup e hge)
    (sole_append hsole fun deed hdeed hid => ?_) hstays fun x hx => ?_
  · rcases Errand.mem_deeds hdeed with ⟨x, aside, rfl, -, rfl⟩ | ⟨x, accepted, aside, rfl, rfl⟩ |
      ⟨x, accepted, rfl, rfl⟩
    · have hground := hd.ready.2.2
      rw [Option.some.inj hid, Flights.contains_iff.mpr ⟨_, hflies⟩] at hground
      cases hground
    · exact hother _ List.mem_cons_self x rfl (Option.some.inj hid)
    · cases hid
  · rcases List.mem_append.mp hx with hx | hx
    · exact hnext x hx
    · exact hother x (.tail _ hx)

/-- What has been handed over last does not change once the round is through with the queue. -/
theorem find_of_loopOver (hover : LoopOver (e :: rest)) :
    (e.deeds t ++ l).find? Deed.isHanded = l.find? Deed.isHanded := by
  have hnone : (e.deeds t).find? Deed.isHanded = none := by
    refine List.find?_eq_none.mpr fun deed hdeed hhanded => ?_
    cases deed with
    | handed x accepted => exact subject_of_loopOver hover _ hdeed rfl
    | _ => cases hhanded
  rw [List.find?_append, hnone, Option.none_or]

/-- **A turn brings every request from one stage to the next.** -/
theorem Held.stage_turn (hd : Held setup s ⟨t, e :: rest⟩) (hpos : 0 ≤ r.id)
    (h : Stage setup s r t (e :: rest) l) :
    Stage setup s r (e.perform setup t).state ((e.perform setup t).next ++ rest)
      (e.deeds t ++ l) := by
  cases h with
  | home hhome hnone => exact hd.stage_home hhome hnone
  | leaving start hle hge hhanding hnone => exact hd.stage_leaving hpos hle hge hhanding hnone
  | flying start hle hge hsole hflies hother =>
    exact hd.stage_flying hle hge hsole hflies hother
  | gone hsole hleft =>
    refine .gone (sole_append hsole fun deed hdeed hid => ?_) (hd.noneLeft_turn hleft)
    rcases hleft with hnot | ⟨hover, -⟩
    · exact hnot (hd.live_of_subject hdeed hid)
    · exact subject_of_loopOver hover deed hdeed hid
  | givenUp start hle hge hsole hlast hover hmax hreported hleft =>
    refine .givenUp start hle (le_now_perform setup e hge)
      (sole_append hsole (subject_of_loopOver hover)) ((find_of_loopOver hover).trans hlast)
      (hd.loopOver_turn (hover e List.mem_cons_self)) hmax ?_ (hd.noneLeft_turn hleft)
    exact hreported.trans (Errand.suffix_perform setup t e)
  | back start hle hge hsole hlast hover hmax hhome =>
    obtain ⟨time, hhome⟩ := hhome
    refine .back start hle (le_now_perform setup e hge)
      (sole_append hsole (subject_of_loopOver hover)) ((find_of_loopOver hover).trans hlast)
      (hd.loopOver_turn (hover e List.mem_cons_self)) hmax ⟨time, ?_⟩
    rcases Errand.home_stays hd.books hd.ready hd.carried hd.ofRound (hd.atHome hhome) with
      hafter | ⟨aside, rfl, -⟩
    · exact hafter.mono fun x hx => List.mem_append_left _ hx
    · cases hover _ List.mem_cons_self

theorem stage_world {es : List Errand} {w : World} (h : Stage setup s r t es l)
    (hw : t.world.now ≤ w.now) : Stage setup s r (t.withWorld w) es l := by
  cases h with
  | home hhome hnone => exact .home hhome hnone
  | leaving start hle hge hhanding hnone =>
    exact .leaving start hle (Nat.le_trans hge hw) hhanding hnone
  | flying start hle hge hsole hflies hother =>
    exact .flying start hle (Nat.le_trans hge hw) hsole hflies hother
  | gone hsole hleft => exact .gone hsole hleft
  | givenUp start hle hge hsole hlast hover hmax hreported hleft =>
    exact .givenUp start hle (Nat.le_trans hge hw) hsole hlast hover hmax hreported hleft
  | back start hle hge hsole hlast hover hmax hhome =>
    exact .back start hle (Nat.le_trans hge hw) hsole hlast hover hmax hhome

end Desk

/-! ### Claims -/

namespace Errand

variable {setup : Setup} {s : State} {e : Errand}

/-- Whether a round may still claim a record after an errand. -/
def mayClaim : Errand → Bool
  | discard _ | endRound => false
  | e => e.ofRound

theorem Leads.countP_mayClaim {l : List Errand} (hl : e.Leads l) (he : e.ofRound = true) :
    l.countP mayClaim ≤ e.mayClaim.toNat := by
  cases e with
  | beginRound => rw [show l = _ from hl]; exact Nat.le_refl 1
  | takeNext aside => rcases hl with rfl | ⟨r, rfl | rfl⟩ <;> exact Nat.le_refl 1
  | screen r aside => rcases hl with rfl | rfl | rfl | ⟨now, rfl⟩ <;> exact Nat.le_refl 1
  | handOver r onward => obtain ⟨accepted, rfl | ⟨report, rfl⟩⟩ := hl <;> exact Nat.le_refl 1
  | landed r accepted onward =>
    rcases hl with ⟨rfl, rfl⟩ | ⟨aside, rfl, rfl | rfl⟩ <;> exact Nat.le_of_ble_eq_true rfl
  | putBack aside => rcases hl with rfl | rfl <;> exact Nat.le_of_ble_eq_true rfl
  | lookAhead => rcases hl with rfl | rfl <;> exact Nat.le_of_ble_eq_true rfl
  | browse => rcases hl with rfl | ⟨found, rfl⟩ <;> exact Nat.le_of_ble_eq_true rfl
  | consider candidates =>
    rcases hl with rfl | ⟨a, rest, -, rfl⟩ <;> exact Nat.le_of_ble_eq_true rfl
  | vet a rest =>
    rcases hl with rfl | rfl | rfl | ⟨account, rfl⟩ <;> exact Nat.le_refl 1
  | discard id => rw [show l = _ from hl]; exact Nat.le_refl 0
  | budget account asker =>
    cases asker with
    | caller => cases he
    | round a rest =>
      rcases hl with (⟨hcaller, -⟩ | ⟨a', rest', hround, rfl | rfl⟩) | ⟨total, rfl⟩
      · cases hcaller
      all_goals exact Nat.le_refl 1
  | share account total asker =>
    cases asker with
    | caller => cases he
    | round a rest =>
      rcases hl with ⟨hcaller, -⟩ | ⟨a', rest', hround, rfl | rfl⟩
      · cases hcaller
      all_goals exact Nat.le_refl 1
  | claim a rest => rcases hl with rfl | ⟨now, rfl⟩ <;> exact Nat.le_refl 1
  | endRound => rw [show l = _ from hl]; exact Nat.le_refl 0
  | _ => cases he

/-- **A round claims one record at most**: after it has, it may not claim another one. -/
theorem countP_claims (setup : Setup) (s : State) (he : e.ofRound = true) :
    (e.perform setup s).next.countP mayClaim + (e.deeds s).countP Deed.isClaimed ≤
      e.mayClaim.toNat := by
  by_cases hclaims : ∃ r accepted, e = landed r accepted .done
  · obtain ⟨r, accepted, rfl⟩ := hclaims
    rcases perform_leads setup s (landed r accepted .done) with ⟨-, hnext⟩ | ⟨aside, honward, -⟩
    · rw [hnext]
      exact Nat.le_refl 1
    · cases honward
  · have hnone : (e.deeds s).countP Deed.isClaimed = 0 := by
      refine List.countP_eq_zero.mpr fun deed hdeed hclaimed => ?_
      rcases mem_deeds hdeed with ⟨_, _, -, -, rfl⟩ | ⟨_, _, _, -, rfl⟩ | ⟨r, accepted, he', -⟩
      · cases hclaimed
      · cases hclaimed
      · exact hclaims ⟨r, accepted, he'⟩
    rw [hnone]
    exact (perform_leads setup s e).countP_mayClaim he

end Errand

/-! ### The fates -/

/-- The fate that a deed brings. -/
def Deed.fate : Deed → Fate
  | dropped _ => .gone
  | handed _ true => .flies
  | handed _ false => .sentBack
  | claimed _ _ => .waits

section Fates

variable {setup : Setup} {s s' : State} {deeds : List Deed} {r : Request}

/-- A fate comes with its deed, or without any. -/
theorem Fate.Befalls.deed {fate : Fate} (h : fate.Befalls setup s s' deeds r) :
    (fate = .waits ∧ ∀ deed ∈ deeds, deed.subject ≠ some r.id) ∨
      ∃ deed ∈ deeds, deed.subject = some r.id ∧ fate = deed.fate := by
  cases fate with
  | waits => exact .inl ⟨rfl, h.1⟩
  | flies =>
    obtain ⟨start, -, -, hdeed, -⟩ := h
    exact .inr ⟨_, hdeed, rfl, rfl⟩
  | gone => exact .inr ⟨_, h.1, rfl, rfl⟩
  | sentBack =>
    obtain ⟨start, -, -, hlast, -⟩ := h
    exact .inr ⟨_, List.mem_of_find?_eq_some hlast, rfl, rfl⟩

theorem fate_of_sole {deed : Deed} (hsole : Sole deeds r.id deed) (hid : deed.subject = some r.id)
    {fate : Fate} (h : fate.Befalls setup s s' deeds r) : fate = deed.fate := by
  rcases h.deed with ⟨-, hnone⟩ | ⟨deed', hdeed, hid', rfl⟩
  · exact absurd hid (hnone deed hsole.1)
  · rw [hsole.2 deed' hdeed hid']

theorem fate_of_none (hnone : ∀ deed ∈ deeds, deed.subject ≠ some r.id) {fate : Fate}
    (h : fate.Befalls setup s s' deeds r) : fate = .waits := by
  rcases h.deed with ⟨rfl, -⟩ | ⟨deed, hdeed, hid, -⟩
  · rfl
  · exact absurd hid (hnone deed hdeed)

/-- **When the round is over, exactly one fate has befallen the request.** -/
theorem Stage.existsUnique_fate (h : Stage setup s r s' [] deeds)
    (hq : s'.scheduler.queue.Matched) (hfiled : s'.scheduler.flights.Filed) :
    ∃! fate : Fate, fate.Befalls setup s s' deeds r := by
  cases h with
  | home hhome hnone =>
    refine ⟨.waits, ⟨hnone, hhome.resolve_right ?_⟩, fun _ => fate_of_none hnone⟩
    rintro ⟨e, he, -⟩
    cases he
  | leaving start hle hge hhanding hnone =>
    obtain ⟨e, he, -⟩ := hhanding
    cases he
  | flying start hle hge hsole hflies hother =>
    exact ⟨.flies, ⟨start, hle, hge, hsole.1, hflies⟩, fun _ => fate_of_sole hsole rfl⟩
  | gone hsole hleft =>
    exact ⟨.gone, ⟨hsole.1, hleft.gone hq hfiled⟩, fun _ => fate_of_sole hsole rfl⟩
  | givenUp start hle hge hsole hlast hover hmax hreported hleft =>
    refine ⟨.sentBack, ⟨start, hle, hge, hlast, ?_⟩, fun _ => fate_of_sole hsole rfl⟩
    rw [if_pos hmax]
    exact ⟨hreported, hleft.gone hq hfiled⟩
  | back start hle hge hsole hlast hover hmax hhome =>
    refine ⟨.sentBack, ⟨start, hle, hge, hlast, ?_⟩, fun _ => fate_of_sole hsole rfl⟩
    rw [if_neg hmax]
    obtain ⟨time, hwaits | ⟨e, he, -⟩⟩ := hhome
    · exact ⟨time, _, hwaits, rfl, rfl, Request.enqueuedAt_lt_retryCopy ..⟩
    · cases he

end Fates

namespace Desk

variable {setup : Setup} {s : State} {d : Desk} {moves : List Move}

/-- Every request from the queue comes to a last stage. -/
theorem Round.stage (h : Round setup s moves d) (hs : s.InOrder setup) {r : Request}
    (hr : s.scheduler.queue.index.get? r.id = some r) :
    Stage setup s r d.state [] (roundDeeds setup s moves) :=
  h.keeps (I := fun t es l => Stage setup s r t es l) hs
    (.home (.inl hr) (List.forall_mem_nil _)) (fun _ _ _ _ => stage_world)
    fun _ _ _ _ hd => hd.stage_turn (Tidy.waiting hs _ _ hr).id_nonneg

/-- Nobody in flight is touched. -/
theorem Round.flights (h : Round setup s moves d) (hs : s.InOrder setup) {id : Int} {r : Request}
    (hr : s.scheduler.flights.get? id = some r) : d.state.scheduler.flights.get? id = some r := by
  have hkept := h.keeps (I := fun t es _ => t.scheduler.flights.get? id = some r ∧
      ∀ e ∈ es, ∀ y, e.handing = some y → y.id ≠ id) hs
    ⟨hr, fun e he y hy => by rw [List.mem_singleton.mp he] at hy; cases hy⟩
    (fun _ _ _ _ hi _ => hi) (fun t e rest l hd hi => ?_)
  · exact hkept.1
  · have hnext := Errand.handing_ne hd.ready hi.1 (hi.2 e List.mem_cons_self)
    exact ⟨Errand.flight_stays hd.ofRound hd.ready hi.1 (hi.2 e List.mem_cons_self),
      fun x hx => (List.mem_append.mp hx).elim (hnext x) fun hrest => hi.2 x (.tail _ hrest)⟩

/-- Whatever is in the books has been there before, or has been claimed. -/
theorem Round.known (h : Round setup s moves d) (hs : s.InOrder setup) {id : Int}
    (hbooked : ¬ d.state.Unbooked id) : ¬ s.Unbooked id ∨
      ∃ c accepted, .claimed c accepted ∈ roundDeeds setup s moves ∧ c.id = id := by
  have hkept := h.keeps (I := fun t es l => t.Live es id → ¬ s.Unbooked id ∨ HasClaimed es l id) hs
    (fun hlive => ?_) (fun _ _ _ _ hi _ => hi) (fun t e rest l hd hi hlive => ?_)
  · have hd := h.inOrder hs
    have hlive : d.state.Live [] id := by
      by_contra hnone
      exact hbooked (State.unbooked_of_not_live (Tidy.matched hd) (Tidy.filed hd) hnone)
    rcases hkept hlive with hbefore | ⟨e, he, -⟩ | hclaimed
    · exact .inl hbefore
    · cases he
    · exact .inr hclaimed
  · refine .inl fun hun => State.not_live hun (fun e he => ?_) hlive
    rw [List.mem_singleton.mp he]
    exact List.not_mem_nil
  · rcases hd.live_turn (l := l) hlive with hbefore | ⟨-, hclaimed⟩
    · exact (hi hbefore).imp_right hasClaimed_turn
    · exact .inr hclaimed

/-- At most one record is claimed. -/
theorem Round.countP_claimed (h : Round setup s moves d) (hs : s.InOrder setup) :
    (roundDeeds setup s moves).countP Deed.isClaimed ≤ 1 := by
  have hkept := h.keeps (I := fun _ es l => es.countP Errand.mayClaim +
      l.countP Deed.isClaimed ≤ 1) hs (Nat.le_refl 1) (fun _ _ _ _ hi _ => hi)
    (fun t e rest l hd hi => ?_)
  · simpa using hkept
  · have hturn := Errand.countP_claims setup t hd.ofRound
    have hself : (if e.mayClaim = true then 1 else 0) = e.mayClaim.toNat := by
      cases e.mayClaim <;> rfl
    rw [List.countP_cons, hself] at hi
    rw [List.countP_append, List.countP_append]
    omega

/-- **No request is lost in a round**, nor doubled. From every state whose books are in order, a
round of admissions by itself, whatever the world answers,

* does exactly one of four things to every request that waits when the round begins: it still waits
  as it was, is in flight, is gone because its own look-up said so, or has been sent back;
* sends back at most one of them;
* leaves every request in flight as it is;
* leaves nothing else in the books but what it has claimed;
* claims one record at most.

The books are then in order again. -/
theorem round_conserves (setup : Setup) (s : State) (moves : List Move) (d : Desk)
    (hs : s.InOrder setup) (h : Round setup s moves d) :
    d.state.InOrder setup ∧
    (∀ r ∈ s.scheduler.queue.toList,
      ∃! fate : Fate, fate.Befalls setup s d.state (roundDeeds setup s moves) r) ∧
    (∀ r ∈ s.scheduler.queue.toList, ∀ r' ∈ s.scheduler.queue.toList,
      Fate.sentBack.Befalls setup s d.state (roundDeeds setup s moves) r →
      Fate.sentBack.Befalls setup s d.state (roundDeeds setup s moves) r' → r = r') ∧
    (∀ id r, s.scheduler.flights.get? id = some r →
      d.state.scheduler.flights.get? id = some r) ∧
    (∀ id, ¬ d.state.Unbooked id → ¬ s.Unbooked id ∨
      ∃ c accepted, .claimed c accepted ∈ roundDeeds setup s moves ∧ c.id = id) ∧
    (roundDeeds setup s moves).countP Deed.isClaimed ≤ 1 := by
  have hd := h.inOrder hs
  have hlisted {r : Request} := Queue.mem_toList (Tidy.matched hs) (r := r)
  refine ⟨hd, fun r hr => ?_, fun r hr r' hr' hback hback' => ?_, fun id r hr => h.flights hs hr,
    fun id hbooked => h.known hs hbooked, h.countP_claimed hs⟩
  · exact (h.stage hs (hlisted.mp hr)).existsUnique_fate (Tidy.matched hd) (Tidy.filed hd)
  · obtain ⟨start, -, -, hlast, -⟩ := hback
    obtain ⟨start', -, -, hlast', -⟩ := hback'
    -- Both are the last one handed over, so they are for the same attachment.
    have hsame : Deed.handed (r.dispatch start) false = .handed (r'.dispatch start') false :=
      Option.some.inj (hlast.symm.trans hlast')
    have hid : r.id = r'.id := Option.some.inj (congrArg Deed.subject hsame)
    have hr := hlisted.mp hr
    rw [hid, hlisted.mp hr'] at hr
    exact (Option.some.inj hr).symm

/-- A world with two wanted attachments of each of two accounts. -/
def pairsWorld : World where
  records := .ofSeed
    { attachments := [{ id := 1, message := 10, account := 1, flags := .forward },
        { id := 2, message := 10, account := 1, flags := .forward },
        { id := 3, message := 20, account := 2, flags := .forward },
        { id := 4, message := 20, account := 2, flags := .forward }] }

/-- One of its records is gone, and the carrier refuses another one. -/
def harshWorld : World :=
  { pairsWorld with
    records := pairsWorld.records.eraseAttachment 3
    faults := [⟨.startTransfer, some 4⟩] }

/-- All four requests join the queue, and the world changes. -/
def queueUp : List Move :=
  .begin .rescan :: List.replicate 6 .turn ++ [.world harshWorld]

/-- The desk with all four requests in the queue. -/
def queuedUp : Desk := ((fresh pairsWorld).run {} queueUp).getD (fresh pairsWorld)

/-- The first request is in flight, the second one waits for it, the third one is gone, and the
fourth one has been sent back. -/
theorem round_conserves_four_fates :
    (fresh pairsWorld).run {} queueUp = some queuedUp ∧
      queuedUp.state.scheduler.queue.toList.map (·.id) = [1, 2, 3, 4] ∧
      ∃ d, Round {} queuedUp.state (List.replicate 15 .turn) d ∧
        d.state.scheduler.queue.toList.map (·.id) = [2, 4] ∧
        d.state.scheduler.flights.contains 1 = true ∧
        ∀ r ∈ queuedUp.state.scheduler.queue.toList, ∃! fate : Fate, fate.Befalls {} queuedUp.state
          d.state (roundDeeds {} queuedUp.state (List.replicate 15 .turn)) r := by
  have hrun : (fresh pairsWorld).run {} queueUp = some queuedUp := rfl
  refine ⟨hrun, rfl, _, ⟨rfl, by decide, rfl⟩, rfl, rfl, ?_⟩
  exact (round_conserves {} _ _ _ (sound_run hrun).books ⟨rfl, by decide, rfl⟩).2.1

end Desk

end MailFetch

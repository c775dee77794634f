import MailFetch.Proofs.Conservation
import MailFetch.Proofs.Purpose

/-! # A round keeps to the order

In a round by itself in which every look-up goes through and the carrier takes every request,
nobody is left waiting without a reason: a request that waits when the round is over was not due, or
its account is busy, or the air is full (`Desk.round_in_order`). And where the air is full, nobody
who comes later in the order has been handed over in its place.

The invariant on the way through the queue is `Errand.Fair`: whoever has been set aside has a reason
that lasts, for the clock goes on and nobody comes down; and whoever has been taken from the queue
comes before all who still wait there.

Nobody comes down as long as no attachment is there for two accounts (`State.OneAccount`). Otherwise
a request that is taken off may take the place of one of another account
(`Crew.place_left_empty`). -/

namespace MailFetch

/-! ### Reasons to wait -/

namespace State

/-- **A request is passed over** in a round that began in the state `s`: at some time of the round
it was not due, or its account is busy. -/
def PassesOver (t : State) (setup : Setup) (s : State) (r : Request) : Prop :=
  (∃ time, s.world.now ≤ time ∧ time ≤ t.world.now ∧ r.isDeferred time = true) ∨
    setup.settings.maxPerAccount ≤ t.scheduler.flights.countFor r.account

/-- **A request has a reason to wait**: it is passed over, or the air is full and nobody has been
handed over who comes after it. -/
def Excuses (t : State) (setup : Setup) (s : State) (l : List Deed) (r : Request) : Prop :=
  t.PassesOver setup s r ∨ setup.settings.maxConcurrent ≤ t.scheduler.flights.size ∧
    ∀ x accepted, .handed x accepted ∈ l → ¬ r.sortKey.before x.sortKey = true

variable {setup : Setup} {s t t' : State} {r : Request}

/-- A reason to pass a request over lasts while the clock goes on and nobody comes down. -/
theorem PassesOver.later (h : t.PassesOver setup s r) (hnow : t.world.now ≤ t'.world.now)
    (hwithin : t.scheduler.flights.Within t'.scheduler.flights) : t'.PassesOver setup s r := by
  rcases h with ⟨time, hle, hge, hdeferred⟩ | hbusy
  · exact .inl ⟨time, hle, Nat.le_trans hge hnow, hdeferred⟩
  · exact .inr (Nat.le_trans hbusy (hwithin.countFor_le _))

theorem Excuses.later {l l' : List Deed} (h : t.Excuses setup s l r)
    (hnow : t.world.now ≤ t'.world.now)
    (hwithin : t.scheduler.flights.Within t'.scheduler.flights)
    (hdeeds : ∀ x accepted, .handed x accepted ∈ l' → .handed x accepted ∈ l) :
    t'.Excuses setup s l' r := by
  rcases h with hpassed | ⟨hfull, hfirst⟩
  · exact .inl (hpassed.later hnow hwithin)
  · exact .inr ⟨Nat.le_trans hfull hwithin.size_le, fun x accepted hx =>
      hfirst x accepted (hdeeds x accepted hx)⟩

end State

/-- Whether the carrier takes the request, if one is handed over. -/
def Deed.isAccepted : Deed → Bool
  | dropped _ => true
  | handed _ accepted | claimed _ accepted => accepted

/-! ### Fair on the way -/

namespace Errand

/-- Whether an errand gets an answer to its look-up of a request from the queue. -/
def isAnswered (s : State) : Errand → Bool
  | screen r _ => !s.world.fails .attachment r.id
  | _ => true

/-- The requests that a round has passed over so far. -/
def passed : Errand → List Request
  | takeNext aside | putBack aside | screen _ aside => aside
  | handOver _ onward | landed _ _ onward => onward.aside
  | _ => []

/-- The request that a round has just taken from the queue. -/
def taken : Errand → Option Request
  | screen r _ | handOver r (.queue _) | landed r _ (.queue _) => some r
  | _ => none

/-- The request that a round is about to look up. -/
def lookedUp : Errand → Option Request
  | screen r _ => some r
  | _ => none

/-- **A round is fair on its way through the queue**:

* those set aside are passed over;
* whoever has been taken from the queue comes before all who wait there;
* there is room for the request that is looked up. -/
structure Fair (setup : Setup) (s t : State) (l : List Deed) (e : Errand) : Prop where
  aside : ∀ r ∈ e.passed, t.PassesOver setup s r
  first : ∀ x, (∃ accepted, .handed x accepted ∈ l) ∨ e.taken = some x → ∀ y,
    t.scheduler.queue.index.get? y.id = some y → ¬ y.sortKey.before x.sortKey = true
  room : ∀ r, e.lookedUp = some r →
    t.scheduler.hasRoom setup.settings = true ∧
      t.scheduler.hasRoomFor setup.settings r.account = true

/-- **Where a fair round goes**: on through the queue, fairly, or past it, and then nobody at home
is without a reason to wait. -/
def GoesOn (setup : Setup) (s t : State) (l : List Deed) (e : Errand) : Prop :=
  e.inLoop = true ∧ e.Fair setup s t l ∨
    e.inLoop = false ∧ ∀ r, t.AtHome [e] r → t.Excuses setup s l r

section Turns

variable {setup : Setup} {s t : State} {l : List Deed}

/-- Reasons that lasted before the turn last after it. -/
theorem Fair.over_later {t' : State} {e : Errand} (h : e.Fair setup s t l)
    (hnow : t.world.now ≤ t'.world.now)
    (hwithin : t.scheduler.flights.Within t'.scheduler.flights) {r : Request} (hr : r ∈ e.passed) :
    t'.PassesOver setup s r :=
  (h.aside r hr).later hnow hwithin

/-- Between two requests, only those count who have been set aside or handed over. -/
theorem fair_of_over {aside : List Request} (hover : ∀ r ∈ aside, t.PassesOver setup s r)
    (hfirst : ∀ x, (∃ accepted, .handed x accepted ∈ l) → ∀ y,
      t.scheduler.queue.index.get? y.id = some y → ¬ y.sortKey.before x.sortKey = true) :
    (takeNext aside).Fair setup s t l where
  aside := hover
  first x hx := hfirst x (hx.resolve_right fun h => by cases h)
  room _ hx := by cases hx

theorem fair_takeNext {aside : List Request} (hq : t.scheduler.queue.Matched)
    (hrunning : t.scheduler.stopped = false) (h : (takeNext aside).Fair setup s t l) :
    ∃ x, (doTakeNext setup t aside).next = [x] ∧
      x.GoesOn setup s (doTakeNext setup t aside).state l := by
  unfold doTakeNext
  rw [hrunning, Bool.false_or]
  split_ifs with hfull
  · -- The air is full: whoever still waits comes after all who have been taken.
    refine ⟨_, rfl, .inr ⟨rfl, fun r hr => ?_⟩⟩
    rcases hr with hwaits | ⟨e, he, haside⟩
    · refine .inr ⟨?_, fun x accepted hx => h.first x (.inl ⟨accepted, hx⟩) r hwaits⟩
      simpa [Scheduler.hasRoom] using hfull
    · rw [List.mem_singleton.mp he] at haside
      exact .inl (h.aside r haside)
  have hroom : t.scheduler.hasRoom setup.settings = true := by simpa using hfull
  rcases Queue.pop_cases hq with ⟨hpop, hempty⟩ | ⟨r, q, hpop, -, hr, hget⟩
  · rw [hpop]
    refine ⟨_, rfl, .inr ⟨rfl, fun y hy => ?_⟩⟩
    rcases hy with hwaits | ⟨e, he, haside⟩
    · have hnone := Queue.contains_eq_false_iff.mp (hempty y.id)
      rw [hnone] at hwaits
      cases hwaits
    · rw [List.mem_singleton.mp he] at haside
      exact .inl (h.aside y haside)
  · rw [hpop]
    have hstill : ∀ y, q.index.get? y.id = some y → t.scheduler.queue.index.get? y.id = some y := by
      intro y hy
      rw [hget] at hy
      split_ifs at hy
      exact hy
    by_cases hfree : t.scheduler.hasRoomFor setup.settings r.account = true
    · refine ⟨.screen r aside, if_pos hfree, .inl ⟨rfl, h.aside, fun x hx y hy => ?_, ?_⟩⟩
      · rcases hx with hx | hx
        · exact h.first x (.inl hx) y (hstill y hy)
        · obtain rfl := Option.some.inj hx
          intro hbefore
          exact SortKey.not_before_self _
            (SortKey.before_trans (Queue.before_of_pop hq hpop hy) hbefore)
      · rintro r' hr'
        rw [← Option.some.inj hr']
        exact ⟨hroom, hfree⟩
    · have hbusy : setup.settings.maxPerAccount ≤ t.scheduler.flights.countFor r.account := by
        simpa [Scheduler.hasRoomFor] using hfree
      refine ⟨.takeNext (aside ++ [r]), if_neg hfree, .inl ⟨rfl, fair_of_over ?_ fun x hx y hy =>
        h.first x (.inl hx) y (hstill y hy)⟩⟩
      exact List.forall_mem_append.mpr ⟨h.aside, List.forall_mem_singleton.mpr (.inr hbusy)⟩

theorem fair_screen {r : Request} {aside : List Request} (hlater : s.world.now ≤ t.world.now)
    (hanswered : (screen r aside).isAnswered t = true)
    (hwithin : t.scheduler.flights.Within (doScreen setup t r aside).state.scheduler.flights)
    (h : (screen r aside).Fair setup s t l) :
    ∃ x, (doScreen setup t r aside).next = [x] ∧
      x.GoesOn setup s (doScreen setup t r aside).state ((screen r aside).deeds t ++ l) := by
  obtain ⟨record, hrecord⟩ : ∃ record, t.world.attachment r.id = .ok record := by
    refine ⟨_, if_neg ?_⟩
    simpa [isAnswered] using hanswered
  obtain ⟨hroom, hfree⟩ := h.room r rfl
  have hfirst : ∀ x, (∃ accepted, .handed x accepted ∈ (screen r aside).deeds t ++ l) → ∀ y,
      t.scheduler.queue.index.get? y.id = some y → ¬ y.sortKey.before x.sortKey = true := by
    -- The turn hands nobody over.
    rintro x ⟨accepted, hx⟩
    rcases List.mem_append.mp hx with hx | hx
    · rcases mem_deeds hx with ⟨_, _, -, -, hdeed⟩ | ⟨_, _, _, herrand, -⟩ | ⟨_, _, herrand, -⟩
      · cases hdeed
      · cases herrand
      · cases herrand
    · exact h.first x (.inl ⟨accepted, hx⟩)
  unfold doScreen at hwithin ⊢
  rw [hrecord] at hwithin ⊢
  cases record with
  | none => exact ⟨.takeNext aside, rfl, .inl ⟨rfl, fair_of_over h.aside hfirst⟩⟩
  | some record =>
    dsimp only at hwithin ⊢
    by_cases hdue : r.isDeferred t.world.now = true
    · rw [if_pos hdue]
      refine ⟨.takeNext (aside ++ [r]), rfl, .inl ⟨rfl, fair_of_over ?_ hfirst⟩⟩
      refine List.forall_mem_append.mpr ⟨h.aside, List.forall_mem_singleton.mpr (.inl ?_)⟩
      exact ⟨t.world.now, hlater, Nat.le_refl _, hdue⟩
    · rw [if_neg hdue, if_neg (by simp [hroom, hfree])] at hwithin ⊢
      refine ⟨.handOver (r.dispatch t.world.now) (.queue aside), rfl, .inl ⟨rfl, fun y hy => ?_, ?_,
        fun _ hx => by cases hx⟩⟩
      · refine h.over_later ?_ hwithin hy
        exact Nat.le_refl _
      · rintro x (hx | hx) y hy
        · exact hfirst x hx y hy
        · rw [← Option.some.inj hx]
          exact h.first r (.inr rfl) y hy

/-- A request that is handed over stays the last one taken. -/
theorem fair_handOver {r : Request} {aside : List Request} {accepted : Bool}
    (h : (handOver r (.queue aside)).Fair setup s t l) :
    (landed r accepted (.queue aside)).Fair setup s
      ((handOver r (.queue aside)).perform setup t).state l := by
  have hframe := perform_frame setup t (handOver r (.queue aside))
  refine ⟨fun y hy => ?_, fun x hx y hy => ?_, fun _ hx => by cases hx⟩
  · refine h.over_later (Nat.le_of_eq hframe.now.symm) ?_ hy
    rw [hframe.flights rfl]
    exact .refl _
  · rw [hframe.queue rfl] at hy
    exact h.first x hx y hy

theorem fair_landed {r : Request} {aside : List Request}
    (h : (landed r true (.queue aside)).Fair setup s t l) :
    (takeNext aside).Fair setup s (doLanded setup t r true (.queue aside)).state
      (.handed r true :: l) := by
  refine fair_of_over h.aside fun x ⟨accepted, hx⟩ => ?_
  rcases List.mem_cons.mp hx with hx | hx
  · obtain ⟨rfl, -⟩ := Deed.handed.inj hx
    exact h.first x (.inr rfl)
  · exact h.first x (.inl ⟨accepted, hx⟩)

end Turns

end Errand

/-! ### Fair to the end -/

namespace State

/-- A request is at home or in flight. -/
def IsKept (t : State) (es : List Errand) (r : Request) : Prop :=
  t.AtHome es r ∨ t.scheduler.flights.get? r.id = some r

/-- **No attachment is there for two accounts**, at home or in flight. -/
def OneAccount (t : State) (es : List Errand) : Prop :=
  ∀ r r', t.IsKept es r → t.IsKept es r' → r.id = r'.id → r.account = r'.account

/-- Errands that keep nothing do not matter. -/
theorem OneAccount.of_mem {t : State} {es es' : List Errand} (h : t.OneAccount es)
    (hsub : ∀ e ∈ es', e ∈ es ∨ e.aside = []) : t.OneAccount es' := fun r r' hr hr' =>
  h r r' (hr.imp_left (·.of_mem hsub)) (hr'.imp_left (·.of_mem hsub))

/-- Where the books are in order, nobody waits who is in flight. -/
theorem oneAccount_of_inOrder {setup : Setup} {s : State} (hs : s.InOrder setup) :
    s.OneAccount [] := by
  have hwaits : ∀ r, s.AtHome [] r → s.scheduler.queue.index.get? r.id = some r := by
    rintro r (hr | ⟨e, he, -⟩)
    · exact hr
    · cases he
  have hapart : ∀ r r', s.scheduler.queue.index.get? r.id = some r →
      s.scheduler.flights.get? r'.id = some r' → r.id ≠ r'.id := by
    intro r r' hr hr' hid
    have hground := Tidy.apart hs r.id (Queue.contains_iff.mpr ⟨r, hr⟩)
    rw [hid, Flights.contains_iff.mpr ⟨r', hr'⟩] at hground
    cases hground
  rintro r r' (hr | hr) (hr' | hr') hid
  · have hget := hwaits r hr
    rw [hid, hwaits r' hr'] at hget
    rw [Option.some.inj hget]
  · exact absurd hid (hapart r r' (hwaits r hr) hr')
  · exact absurd hid.symm (hapart r' r (hwaits r' hr') hr)
  · rw [hid, hr'] at hr
    rw [Option.some.inj hr]

end State

namespace Desk

variable {setup : Setup} {s t : State} {e : Errand} {rest : List Errand} {l : List Deed}

/-- While the carrier takes every request and every attachment has one account, nobody comes down
in a round by itself. -/
theorem OnRound.within_turn (setup : Setup) (hd : OnRound s ⟨t, e :: rest⟩)
    (haccepted : ∀ deed ∈ e.deeds t, deed.isAccepted = true)
    (hsingle : e.inLoop = true → t.OneAccount (e :: rest)) :
    t.scheduler.flights.Within (e.perform setup t).state.scheduler.flights := by
  by_cases htouch : e.touchesBooks = false
  · rw [(Errand.perform_frame setup t e).flights htouch]
    exact .refl _
  have hround := hd.ofRound
  cases e with
  | takeNext aside =>
    rw [Errand.perform, Errand.doTakeNext]
    split_ifs
    · exact .refl _
    · split <;> exact .refl _
  | screen r aside =>
    rcases Errand.flights_screen setup t r aside with heq | ⟨-, -, heq, -⟩
    · rw [Errand.perform, heq]
      exact .refl _
    · rw [Errand.perform, heq]
      refine .insert fun r₀ hr₀ => ?_
      have hid : r₀.id = r.id := hd.filed _ _ hr₀
      have hkept : t.IsKept (.screen r aside :: rest) r :=
        .inl (.inr ⟨_, List.mem_cons_self, List.mem_cons_self⟩)
      refine hsingle rfl r₀ r (.inr ?_) hkept hid
      rw [hid]
      exact hr₀
  | landed r accepted onward =>
    have htaken : accepted = true := by
      cases onward with
      | queue aside => exact haccepted (.handed r accepted) List.mem_cons_self
      | done => exact haccepted (.claimed r accepted) List.mem_cons_self
    rw [htaken]
    exact .refl _
  | putBack aside => exact .refl _
  | claim a others =>
    rcases Errand.flights_claim setup t a others with ⟨heq, -⟩ | ⟨-, heq, hnext⟩
    · rw [Errand.perform, heq]
      exact .refl _
    · -- A record is claimed only while nobody is in flight for it.
      have hclaims : Errand.handOver ((a.request .background t.world.now).dispatch t.world.now)
          .done ∈ (Errand.doClaim setup t a others).next := by
        rw [hnext]
        exact List.mem_cons_self
      have hnew := (Errand.creates_of_claim hclaims).1
      rw [Errand.perform, heq]
      refine .insert fun r₀ hr₀ => ?_
      rw [Flights.contains_eq_false_iff.mp hnew.2.1] at hr₀
      cases hr₀
  | review _ | hear _ | settle _ _ | askParent _ _ | tick _ => cases hround
  | _ => exact absurd rfl htouch

/-- **A turn of a fair round goes on fairly.** -/
theorem OnRound.fair_turn (hd : OnRound s ⟨t, e :: rest⟩)
    (hafter : OnRound s ⟨(e.perform setup t).state, (e.perform setup t).next ++ rest⟩)
    (hwithin : t.scheduler.flights.Within (e.perform setup t).state.scheduler.flights)
    (hloop : e.inLoop = true) (hrunning : t.scheduler.stopped = false)
    (hanswered : e.isAnswered t = true) (haccepted : ∀ deed ∈ e.deeds t, deed.isAccepted = true)
    (hfair : e.Fair setup s t l) : ∃ x, (e.perform setup t).next = [x] ∧
      x.GoesOn setup s (e.perform setup t).state (e.deeds t ++ l) := by
  cases e with
  | beginRound =>
    refine ⟨.takeNext [], rfl, .inl ⟨rfl, Errand.fair_of_over (List.forall_mem_nil _) ?_⟩⟩
    exact fun x hx => hfair.first x (.inl hx)
  | takeNext aside => exact Errand.fair_takeNext hd.matched hrunning hfair
  | screen r aside => exact Errand.fair_screen hd.later hanswered hwithin hfair
  | handOver r onward =>
    cases onward with
    | done => cases hloop
    | queue aside =>
      obtain ⟨accepted, hnext | ⟨report, hnext⟩⟩ :=
        Errand.perform_leads setup t (.handOver r (.queue aside))
      · exact ⟨_, hnext, .inl ⟨rfl, Errand.fair_handOver hfair⟩⟩
      · -- No report is there to be heard.
        have hcourse := hafter.course (.hear report) (by rw [hnext]; exact List.mem_cons_self)
        cases hcourse
  | landed r accepted onward =>
    cases onward with
    | done => cases hloop
    | queue aside =>
      obtain rfl : accepted = true := haccepted (.handed r accepted) List.mem_cons_self
      exact ⟨.takeNext aside, rfl, .inl ⟨rfl, Errand.fair_landed hfair⟩⟩
  | _ => cases hloop

/-- While the carrier takes every request, nobody comes home in a round by itself. -/
theorem OnRound.atHome_before (hd : OnRound s ⟨t, e :: rest⟩)
    (haccepted : ∀ deed ∈ e.deeds t, deed.isAccepted = true) {r : Request}
    (h : (e.perform setup t).state.AtHome ((e.perform setup t).next ++ rest) r) :
    t.AtHome (e :: rest) r := by
  have hself : (e.perform setup t).state.AtHome (e.perform setup t).next r := by
    refine h.of_mem fun x hx => ?_
    rcases List.mem_append.mp hx with hx | hx
    · exact .inl hx
    · exact .inr (Errand.closes_carries_nothing (hd.behind x hx)).1
  rcases Errand.atHome_origin hd.matched hd.filed hself with hbefore | ⟨r₀, hback, -⟩ | hnew
  · exact hbefore.mono fun x hx => by
      rw [List.mem_singleton.mp hx]
      exact List.mem_cons_self
  · have hof := hd.ofRound
    cases e with
    | landed x accepted onward =>
      obtain ⟨rfl, -⟩ := hback
      cases onward with
      | queue aside => cases haccepted (.handed x false) List.mem_cons_self
      | done => cases haccepted (.claimed x false) List.mem_cons_self
    | settle id status => cases hof
    | askParent x record => cases hof
    | tick timeout => cases hof
    | _ => exact hback.elim
  · have hof := hd.ofRound
    cases e with
    | review a => cases hof
    | _ => exact hnew.elim

/-- **On its way through the queue**, a round brings no attachment in for another account. -/
theorem OnRound.oneAccount_turn (setup : Setup) (hd : OnRound s ⟨t, e :: rest⟩)
    (hloop : e.inLoop = true)
    (haccepted : ∀ deed ∈ e.deeds t, deed.isAccepted = true) (hsingle : t.OneAccount (e :: rest)) :
    (e.perform setup t).state.OneAccount ((e.perform setup t).next ++ rest) := by
  have horigin : ∀ r, (e.perform setup t).state.IsKept ((e.perform setup t).next ++ rest) r →
      ∃ r₀, t.IsKept (e :: rest) r₀ ∧ r₀.id = r.id ∧ r₀.account = r.account := by
    rintro r (hhome | hflies)
    · exact ⟨r, .inl (hd.atHome_before haccepted hhome), rfl, rfl⟩
    · rcases Errand.flying_cases hd.filed hflies with ⟨r₀, hr₀, hsame⟩ | ⟨onward, htaken⟩
      · have hid := hd.filed _ _ hr₀
        refine ⟨r₀, .inr (by rw [hid]; exact hr₀), hid, ?_⟩
        rcases hsame with rfl | ⟨report, -, -, rfl⟩
        · rfl
        · exact (Request.account_heard ..).symm
      · rcases Errand.taken_off htaken with ⟨r₀, aside, rfl, -, rfl, -⟩ | ⟨a, others, rfl, -⟩
        · exact ⟨r₀, .inl (.inr ⟨_, List.mem_cons_self, List.mem_cons_self⟩), rfl, rfl⟩
        · cases hloop
  intro r r' hr hr' hid
  obtain ⟨r₀, hkept, hid₀, haccount⟩ := horigin r hr
  obtain ⟨r₀', hkept', hid₀', haccount'⟩ := horigin r' hr'
  rw [← haccount, ← haccount']
  exact hsingle r₀ r₀' hkept hkept' (hid₀.trans (hid.trans hid₀'.symm))

/-- **What a round keeps in which every look-up is answered and every request is taken.** -/
structure KeepsOrder (setup : Setup) (s t : State) (es : List Errand) (l : List Deed) : Prop where
  running : t.scheduler.stopped = false
  single : ∀ e ∈ es, e.inLoop = true → t.OneAccount es
  fair : ∀ e ∈ es, e.inLoop = true → e.Fair setup s t l
  excused : LoopOver es → ∀ r, t.AtHome es r → t.Excuses setup s l r

theorem OnRound.keepsOrder_turn (hd : OnRound s ⟨t, e :: rest⟩)
    (hafter : OnRound s ⟨(e.perform setup t).state, (e.perform setup t).next ++ rest⟩)
    (hanswered : e.isAnswered t = true) (haccepted : ∀ deed ∈ e.deeds t, deed.isAccepted = true)
    (h : KeepsOrder setup s t (e :: rest) l) :
    KeepsOrder setup s (e.perform setup t).state ((e.perform setup t).next ++ rest)
      (e.deeds t ++ l) := by
  have hframe := Errand.perform_frame setup t e
  have hrunning : (e.perform setup t).state.scheduler.stopped = false :=
    hframe.stopped.trans h.running
  have hbehind : ∀ x ∈ rest, x.inLoop = false := fun x hx =>
    (Errand.closes_carries_nothing (hd.behind x hx)).2.2.2
  have hwithin := hd.within_turn setup haccepted (h.single e List.mem_cons_self)
  cases hloop : e.inLoop with
  | true =>
    have hsingle := hd.oneAccount_turn setup hloop haccepted
      (h.single e List.mem_cons_self hloop)
    obtain ⟨x, hnext, hgoes⟩ := hd.fair_turn hafter hwithin hloop h.running hanswered haccepted
      (h.fair e List.mem_cons_self hloop)
    rw [hnext] at hsingle ⊢
    refine ⟨hrunning, fun _ _ _ => hsingle, fun y hy hy' => ?_, fun hover r hr => ?_⟩
    · rcases List.mem_cons.mp hy with rfl | hy
      · rcases hgoes with ⟨-, hfair⟩ | ⟨hpast, -⟩
        · exact hfair
        · rw [hpast] at hy'
          cases hy'
      · rw [hbehind y hy] at hy'
        cases hy'
    · rcases hgoes with ⟨hin, -⟩ | ⟨-, hexcused⟩
      · rw [hover x List.mem_cons_self] at hin
        cases hin
      · refine hexcused r (hr.of_mem fun y hy => ?_)
        rcases List.mem_cons.mp hy with rfl | hy
        · exact .inl (List.mem_singleton_self _)
        · exact .inr (Errand.closes_carries_nothing (hd.behind y hy)).1
  | false =>
    have hover : LoopOver (e :: rest) := List.forall_mem_cons.mpr ⟨hloop, hbehind⟩
    refine ⟨hrunning, fun y hy hy' => ?_, fun y hy hy' => ?_, fun _ r hr => ?_⟩
    · rw [hd.loopOver_turn hloop y hy] at hy'
      cases hy'
    · rw [hd.loopOver_turn hloop y hy] at hy'
      cases hy'
    · refine (h.excused hover r (hd.atHome_before haccepted hr)).later
        (Nat.le_of_eq hframe.now.symm) hwithin fun x accepted hx => ?_
      rcases List.mem_append.mp hx with hx | hx
      · exact absurd rfl (subject_of_loopOver hover _ hx)
      · exact hx

theorem Round.onRound {d : Desk} {moves : List Move} (h : Round setup s moves d)
    (hq : s.scheduler.queue.Matched) (hfiled : s.scheduler.flights.Filed) : d.OnRound s :=
  follow_keeps_of (P := OnRound s) (fun _ _ _ hu hm hmove => onRound_move hu hm hmove)
    (onRound_begin hq hfiled) h.alone h.run

/-! ### The order of a round -/

/-- The look-up of a request from the queue that comes next goes through. -/
def Answered (d : Desk) (m : Move) : Prop :=
  m = .turn → ∀ e ∈ d.task.head?, e.isAnswered d.state = true

instance (d : Desk) (m : Move) : Decidable (d.Answered m) :=
  inferInstanceAs (Decidable (m = .turn → ∀ e ∈ d.task.head?, e.isAnswered d.state = true))

variable {d : Desk} {moves : List Move}

/-- When a round is over in which every look-up went through and every request was taken, everyone
who waits has a reason. -/
theorem Round.excused (h : Round setup s moves d) (hq : s.scheduler.queue.Matched)
    (hfiled : s.scheduler.flights.Filed) (hsingle : s.OneAccount [])
    (hrunning : s.scheduler.stopped = false)
    (hanswered : Throughout (move setup) Answered ⟨s, [.beginRound]⟩ moves)
    (haccepted : ∀ deed ∈ roundDeeds setup s moves, deed.isAccepted = true) {r : Request}
    (hr : d.state.scheduler.queue.index.get? r.id = some r) :
    d.state.Excuses setup s (roundDeeds setup s moves) r := by
  have hkept := h.keeps_of (P := OnRound s) (I := fun t es l =>
      (∀ deed ∈ l, deed.isAccepted = true) → KeepsOrder setup s t es l)
    (fun _ hu => hu) (onRound_begin hq hfiled) (fun _ _ _ => onRound_move) hanswered
    (fun _ => ⟨hrunning, fun e he _ => ?_, fun e he _ => ?_, fun hover => ?_⟩)
    (fun t es l w hi hle hl => ?_) (fun t e rest l hd hself hafter hi hl => ?_)
  · exact (hkept haccepted).excused (List.forall_mem_nil _) r (.inl hr)
  · exact hsingle.of_mem fun x hx => .inr (by rw [List.mem_singleton.mp hx]; rfl)
  · rw [List.mem_singleton.mp he]
    refine ⟨List.forall_mem_nil _, ?_, fun _ hx => by cases hx⟩
    rintro x (⟨accepted, hx⟩ | hx)
    · cases hx
    · cases hx
  · cases hover .beginRound List.mem_cons_self
  · have hbefore := hi hl
    refine ⟨hbefore.running, hbefore.single, fun e he hloop => ?_, fun hover r hr => ?_⟩
    · have hfair := hbefore.fair e he hloop
      refine ⟨fun y hy => hfair.over_later ?_ ?_ hy, hfair.first, hfair.room⟩
      · exact hle
      · exact .refl _
    · exact (hbefore.excused hover r hr).later hle (.refl _) fun _ _ hx => hx
  · refine hd.keepsOrder_turn hafter (hself rfl e rfl) (fun deed hdeed => ?_)
      (hi fun deed hdeed => ?_)
    · exact hl deed (List.mem_append_left _ hdeed)
    · exact hl deed (List.mem_append_right _ hdeed)

/-- **A round keeps to the order and leaves no place empty.** In a round by itself of a scheduler
that runs, from any state whose books can be read, as they can in every state that a run reaches
(`Crew.legible_run`), and in which no attachment is there for two accounts, as between operations
that follow one another (`State.oneAccount_of_inOrder`): if every look-up of a request from the
queue goes through and the carrier takes every request, then for everyone who waits when the round
is over,

* they were not due at some time of the round, or their account has all the downloads in flight
  that it may have, or there are as many in flight as there may be in all;
* if someone who comes after them in the order has been handed over from the queue, it is one of the
  first two. -/
theorem round_in_order (setup : Setup) (s : State) (moves : List Move) (d : Desk)
    (hq : s.scheduler.queue.Matched) (hfiled : s.scheduler.flights.Filed)
    (hsingle : s.OneAccount []) (hrunning : s.scheduler.stopped = false)
    (h : Round setup s moves d)
    (hanswered : Throughout (move setup) Answered ⟨s, [.beginRound]⟩ moves)
    (haccepted : ∀ deed ∈ roundDeeds setup s moves, deed.isAccepted = true) :
    ∀ r ∈ d.state.scheduler.queue.toList,
      (d.state.PassesOver setup s r ∨
        setup.settings.maxConcurrent ≤ d.state.scheduler.flights.size) ∧
      ∀ x ∈ s.scheduler.queue.toList, ∀ start,
        .handed (x.dispatch start) true ∈ roundDeeds setup s moves →
          r.sortKey.before x.sortKey = true → d.state.PassesOver setup s r := by
  intro r hr
  have hwaits := (Queue.mem_toList (h.onRound hq hfiled).matched).mp hr
  have hexcused := h.excused hq hfiled hsingle hrunning hanswered haccepted hwaits
  refine ⟨hexcused.imp_right And.left, fun x _ start hx hbefore => ?_⟩
  rcases hexcused with hpassed | ⟨-, hfirst⟩
  · exact hpassed
  · exact absurd hbefore (hfirst (x.dispatch start) true hx)

/-- The desk with two requests of each of two accounts, in a world where nothing fails. -/
def pairsQueued : Desk :=
  ((fresh pairsWorld).run {} (.begin .rescan :: List.replicate 6 .turn)).getD (fresh pairsWorld)

/-- The first request of each account is in flight. The second one of the first account comes before
the third one in the order, but waits for its account; the last one waits for a place. -/
theorem round_in_order_two_accounts :
    (fresh pairsWorld).run {} (.begin .rescan :: List.replicate 6 .turn) = some pairsQueued ∧
      (roundDeeds {} pairsQueued.state (List.replicate 14 .turn)).map Deed.subject =
        [some 3, some 1] ∧
      ∃ d, Round {} pairsQueued.state (List.replicate 14 .turn) d ∧
        d.state.scheduler.queue.toList.map (·.id) = [2, 4] ∧
        ∀ r ∈ d.state.scheduler.queue.toList,
          (d.state.PassesOver {} pairsQueued.state r ∨ 2 ≤ d.state.scheduler.flights.size) ∧
          ∀ x ∈ pairsQueued.state.scheduler.queue.toList, ∀ start,
            .handed (x.dispatch start) true ∈
                roundDeeds {} pairsQueued.state (List.replicate 14 .turn) →
              r.sortKey.before x.sortKey = true → d.state.PassesOver {} pairsQueued.state r := by
  have hrun : (fresh pairsWorld).run {} (.begin .rescan :: List.replicate 6 .turn) =
      some pairsQueued := rfl
  have hbooks := (sound_run hrun).books
  refine ⟨hrun, rfl, _, ⟨rfl, by decide, rfl⟩, rfl, ?_⟩
  exact round_in_order {} _ (List.replicate 14 .turn) _ (Tidy.matched hbooks) (Tidy.filed hbooks)
    (State.oneAccount_of_inOrder hbooks) rfl ⟨rfl, by decide, rfl⟩ (by decide) (by decide)

end Desk

/-! ### An attachment that is there for two accounts -/

namespace Crew

/-- A record that has been moved to a message of another account. -/
def movedRecord : Attachment where
  id := 1
  message := 20
  account := 2
  flags := .forward

/-- The next record of that message. -/
def nextRecord : Attachment where
  id := 2
  message := 20
  account := 2
  flags := .forward

/-- The record is still where it was. -/
def unmovedWorld : World where
  records := .ofSeed
    { messages := [{ id := 10, account := 1 }, { id := 20, account := 2 }]
      attachments := [{ id := 1, message := 10, account := 1, flags := .forward }, nextRecord] }

/-- The record has been moved. -/
def movedWorld : World :=
  { unmovedWorld with records := unmovedWorld.records.putAttachment movedRecord }

/-- The record is taken off; a report that did not find its message waits for the look-up of the
message, while the record is moved and taken off for its new account. Then the look-up finds the
message, the old request is put back, and the next record is asked for. -/
def thereTwice : List CrewMove :=
  [.begin (.change { id := 1, message := 10, account := 1, flags := .forward }), .turn 0] ++
    .begin .round :: List.replicate 9 (.turn 1) ++
    .begin (.report ⟨10, 1, .messageNotFound, 0⟩) :: List.replicate 3 (.turn 2) ++
    [.world movedWorld, .begin (.change movedRecord), .turn 3] ++
    .begin .round :: List.replicate 9 (.turn 4) ++
    [.turn 2, .begin (.change nextRecord), .turn 5]

/-- The crew after that. -/
def withTwoAccounts : Crew := ((fresh unmovedWorld).run {} thereTwice).getD (fresh unmovedWorld)

/-- **A place is left empty.** The round sets the next record aside, since its account is busy with
the moved one; then it takes the moved one off again for its old account, and so the account of the
next record has nothing in flight any more. One place is free, and the next record waits there. -/
theorem place_left_empty :
    (fresh unmovedWorld).run {} thereTwice = some withTwoAccounts ∧
      withTwoAccounts.state.scheduler.stopped = false ∧
      ∃ d, Desk.Round {} withTwoAccounts.state (List.replicate 10 .turn) d ∧
        Throughout (Desk.move {}) Desk.Answered ⟨withTwoAccounts.state, [.beginRound]⟩
          (List.replicate 10 .turn) ∧
        (∀ deed ∈ Desk.roundDeeds {} withTwoAccounts.state (List.replicate 10 .turn),
          deed.isAccepted = true) ∧
        d.state.scheduler.flights.size < 2 ∧
        ∃ r ∈ d.state.scheduler.queue.toList, ¬ d.state.PassesOver {} withTwoAccounts.state r ∧
          ∃ x ∈ withTwoAccounts.state.scheduler.queue.toList, ∃ start,
            .handed (x.dispatch start) true ∈
                Desk.roundDeeds {} withTwoAccounts.state (List.replicate 10 .turn) ∧
              r.sortKey.before x.sortKey = true := by
  refine ⟨rfl, rfl, _, ⟨rfl, by decide, rfl⟩, by decide, by decide, by decide, _, .head _, ?_, _,
    .tail _ (.head _), 0, .head _, rfl⟩
  rintro (⟨time, -, -, hdeferred⟩ | hbusy)
  · cases hdeferred
  · revert hbusy
    decide

end Crew

end MailFetch

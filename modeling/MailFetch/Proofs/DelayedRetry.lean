import MailFetch.Proofs.GivingUp

/-! # Delayed retries

After a connection error a request waits again, and from some number of retries on it has to wait
for a while before it may be handed over again. The end of this wait is written on the request
itself, and a request does not change while it waits: rounds take it from the queue, set it aside
and put it back as it is. It is taken off only when the wait is over.

* `Errand.get?_settle_connectionError`: what waits after a connection error.
* `delayed_retry_not_early`: the carrier is not asked for a request before its wait is over, however
  the tasks are interleaved; and with operations one after another, not for any request of the
  lineage. -/

namespace MailFetch

namespace Request

variable {r : Request}

/-- The request as it waits after a connection error at the time `now`. -/
def afterError (r : Request) (limits : Settings) (now : Nat) : Request :=
  { r.land.countRetry with
    notBefore :=
      if limits.delayThreshold < r.countRetry.retries then some (now + limits.retryDelay)
      else none }

/-- A wait that still runs ran before. -/
theorem isDeferred_earlier {t now : Nat} (hle : t ≤ now) (h : r.isDeferred now = true) :
    r.isDeferred t = true := by
  unfold isDeferred at h ⊢
  cases hn : r.notBefore with
  | none => simp [hn] at h
  | some u =>
    simp only [hn, decide_eq_true_eq] at h ⊢
    omega

theorem isDeferred_later {t now : Nat} (hle : t ≤ now) (h : r.isDeferred t = false) :
    r.isDeferred now = false := by
  by_contra hnow
  rw [isDeferred_earlier hle (by simpa using hnow)] at h
  cases h

/-- Once the wait is over that a connection error began, the delay has passed. -/
theorem le_of_afterError {limits : Settings} {t now : Nat}
    (hdelay : limits.delayThreshold < r.countRetry.retries)
    (h : (r.afterError limits t).isDeferred now = false) : t + limits.retryDelay ≤ now := by
  simp only [isDeferred, afterError, if_pos hdelay, decide_eq_false_iff_not] at h
  omega

end Request

theorem Scheduler.get?_retryAfterError_self (s : Scheduler) {limits : Settings} (now : Nat)
    {r : Request} (hleft : r.countRetry.retries ≤ limits.maxRetries) :
    (s.retryAfterError limits now r.land).2.queue.index.get? r.id =
      if 0 ≤ r.id then some (r.afterError limits now) else none := by
  unfold retryAfterError Request.afterError
  dsimp only
  have hover : ¬ limits.maxRetries < r.land.countRetry.retries := UInt32.not_lt.mpr hleft
  rw [if_neg hover]
  by_cases hdelay : limits.delayThreshold < r.countRetry.retries
  · have hdelay' : limits.delayThreshold < r.land.countRetry.retries := hdelay
    rw [if_pos hdelay, if_pos hdelay']
    exact (s.queue.get?_drop_push _ r.id).trans (if_pos rfl)
  · have hdelay' : ¬ limits.delayThreshold < r.land.countRetry.retries := hdelay
    rw [if_neg hdelay, if_neg hdelay']
    exact (s.queue.get?_drop_push _ r.id).trans (if_pos rfl)

/-! ### The only request for an attachment -/

/-- **A request is the only one for its attachment**, and waits: there is no other one at home or
abroad, and the carrier is not about to be asked. -/
structure State.OnlyWaits (s : State) (es : List Errand) (x : Request) : Prop where
  home : ∀ r, r.id = x.id → s.AtHome es r → r = x
  abroad : ∀ r, r.id = x.id → ¬ s.Abroad es r
  uncalled : ∀ e ∈ es, e.asks x.id = false

namespace State.OnlyWaits

variable {s : State} {es es' : List Errand} {x : Request}

/-- Where no errand is left, the books say who is there. -/
theorem of_books (hwaits : s.scheduler.queue.index.get? x.id = some x)
    (hground : s.scheduler.flights.get? x.id = none) : s.OnlyWaits [] x where
  home r hid := by
    rintro (hr | ⟨e, he, -⟩)
    · rw [hid, hwaits] at hr
      exact (Option.some.inj hr).symm
    · cases he
  abroad r hid := by
    rintro (hr | ⟨e, he, -⟩)
    · rw [hid, hground] at hr
      cases hr
    · cases he
  uncalled := List.forall_mem_nil _

/-- Errands that bring nothing do not matter. -/
theorem of_mem (h : s.OnlyWaits es x) (hsub : ∀ e ∈ es', e ∈ es ∨ e.isIdle) :
    s.OnlyWaits es' x where
  home r hid hr :=
    h.home r hid (hr.of_mem fun e he => (hsub e he).imp_right fun hidle => hidle.1.1)
  abroad r hid hr :=
    h.abroad r hid (hr.of_mem fun e he => (hsub e he).imp_right fun hidle => hidle.1.2)
  uncalled e he := (hsub e he).elim (h.uncalled e) fun hidle => hidle.2 x.id

theorem withWorld (h : s.OnlyWaits es x) (w : World) : (s.withWorld w).OnlyWaits es x :=
  ⟨h.home, h.abroad, h.uncalled⟩

theorem begin (h : s.OnlyWaits es x) (op : Operation) :
    (op.state s).OnlyWaits (es ++ op.errands s) x where
  home r hid hr := h.home r hid (Operation.atHome_begin es hr)
  abroad r hid hr := h.abroad r hid (Operation.abroad_begin es hr)
  uncalled e he := (List.mem_append.mp he).elim (h.uncalled e) fun hfirst =>
    (Errand.isIdle_of_isFirst (Operation.isFirst_of_mem_errands hfirst)).2 x.id

end State.OnlyWaits

namespace Errand

variable {setup : Setup} {s : State} {e : Errand} {es : List Errand} {x : Request}

/-- **While its wait runs, the only request for an attachment is not handed over.** -/
theorem not_taken_off (h : s.OnlyWaits (e :: es) x) (hnew : ¬ e.Creates setup s x.id)
    (hwait : x.isDeferred s.world.now = true) {r : Request} {onward : Onward}
    (htaken : handOver r onward ∈ (e.perform setup s).next) : r.id ≠ x.id := by
  intro hid
  rcases taken_off htaken with ⟨r₀, aside, rfl, -, rfl, hdue⟩ | ⟨a, rest, rfl, -, -⟩
  · obtain rfl := h.home r₀ hid (.inr ⟨_, List.mem_cons_self, List.mem_cons_self⟩)
    rw [hwait] at hdue
    cases hdue
  · rw [← hid] at hnew
    exact hnew (creates_of_claim htaken).1

/-- **While its wait runs, the only request for an attachment stays the only one**, unless a new one
is made. -/
theorem perform_onlyWaits (hq : s.scheduler.queue.Matched) (hfiled : s.scheduler.flights.Filed)
    (h : s.OnlyWaits (e :: es) x) (hnew : ¬ e.Creates setup s x.id)
    (hwait : x.isDeferred s.world.now = true) :
    (e.perform setup s).state.OnlyWaits ((e.perform setup s).next ++ es) x where
  home r hid hr := by
    have hself : ∀ y ∈ [e], y ∈ e :: es := fun y hy => by
      rw [List.mem_singleton.mp hy]
      exact List.mem_cons_self
    rcases hr.append with hnext | ⟨y, hy, hkept⟩
    · rcases perform_atHome hq hfiled hnext with hbefore | ⟨r₀, hback, hid₀, -⟩ | hcreates
      · exact h.home r hid (hbefore.mono hself)
      · exact absurd ((hback.abroad hfiled).mono hself) (h.abroad r₀ (hid₀.symm.trans hid))
      · rw [hid] at hcreates
        exact absurd hcreates.1 hnew
    · exact h.home r hid (.inr ⟨y, .tail _ hy, hkept⟩)
  abroad r hid hr := by
    rcases hr.append with hnext | ⟨y, hy, hsettling⟩
    · rcases perform_abroad hfiled hnext with ⟨r₀, hbefore, hid₀, -⟩ | ⟨onward, htaken⟩
      · refine h.abroad r₀ (hid₀.trans hid) (hbefore.mono fun y hy => ?_)
        rw [List.mem_singleton.mp hy]
        exact List.mem_cons_self
      · exact not_taken_off h hnew hwait htaken hid
    · exact h.abroad r hid (.inr ⟨y, .tail _ hy, hsettling⟩)
  uncalled y hy := by
    rcases List.mem_append.mp hy with hnext | hes
    · cases y with
      | handOver r onward => simpa [asks] using not_taken_off h hnew hwait hnext
      | _ => rfl
    · exact h.uncalled y (.tail _ hes)

/-! ### After a connection error -/

/-- **What waits after a connection error**: the request with one more retry, for a while if it has
had more retries than go without a wait. -/
theorem get?_settle_connectionError (setup : Setup) {r : Request}
    (hr : s.scheduler.flights.get? r.id = some r)
    (hleft : r.countRetry.retries ≤ setup.settings.maxRetries) :
    ((settle r.id .connectionError).perform setup s).state.scheduler.queue.index.get? r.id =
      if 0 ≤ r.id then some (r.afterError setup.settings s.world.now) else none := by
  have hwaits := Scheduler.get?_retryAfterError_self { s.scheduler with
    flights := s.scheduler.flights.erase r.id
    failures := s.scheduler.failures.settle r.id (Status.connectionError == Status.success) }
    s.world.now hleft
  rw [perform, doSettle, hr]
  dsimp only
  rw [if_pos rfl]
  split
  · simp only [State.ring_queue, State.abandon_scheduler]
    exact hwaits
  · exact hwaits
  · exact hwaits

end Errand

namespace Crew

variable {setup : Setup} {c c' : Crew} {x : Request}

/-! ### Many tasks at once -/

/-- The clock does not go back. -/
theorem now_le_of_move {m : CrewMove} (h : c.move setup m = some c') :
    c.state.world.now ≤ c'.state.world.now := by
  cases m with
  | world w =>
    unfold move at h
    dsimp only at h
    split_ifs at h with hle
    obtain rfl := Option.some.inj h
    exact hle
  | begin op =>
    obtain rfl := Option.some.inj h
    exact Nat.le_of_eq (by rw [Operation.state_world])
  | start =>
    obtain rfl := Option.some.inj h
    exact Nat.le_refl _
  | turn i =>
    obtain ⟨e, -, -, -, -, hstate, -⟩ := turn_errands h
    rw [hstate]
    exact Nat.le_of_eq (Errand.perform_frame setup c.state e).now.symm

/-- A task is about to settle a transfer in flight that ended with a connection error. -/
def LosesConnection (c : Crew) (i : Nat) (r : Request) : Prop :=
  (∃ rest, c.tasks[i]? = some (.settle r.id .connectionError :: rest)) ∧
    c.state.scheduler.flights.get? r.id = some r

/-- **Nobody is about to be handed over whose wait still runs.** -/
def Due (c : Crew) : Prop :=
  ∀ r onward, .handOver r onward ∈ c.tasks.flatten → r.isDeferred c.state.world.now = false

theorem due_of_move {m : CrewMove} (hc : c.Due) (h : c.move setup m = some c') : c'.Due := by
  have hle := now_le_of_move h
  intro r onward hr
  rcases move_cases h with ⟨w, rfl, rfl⟩ | ⟨op, rfl, rfl⟩ | ⟨rfl, rfl⟩ | ⟨i, rfl⟩
  · exact Request.isDeferred_later hle (hc r onward hr)
  · rw [List.flatten_append, List.flatten_singleton] at hr
    rcases List.mem_append.mp hr with hr | hr
    · exact Request.isDeferred_later hle (hc r onward hr)
    · cases Operation.isFirst_of_mem_errands hr
  · refine Request.isDeferred_later hle (hc r onward ?_)
    simpa using hr
  · obtain ⟨e, rest, others, -, -, hstate, htasks, hleft, -⟩ := turn_errands h
    rcases hleft _ hr with hr | ⟨job, hjob⟩
    · rcases List.mem_append.mp hr with hnext | hothers
      · rw [hstate, (Errand.perform_frame setup c.state e).now]
        rcases Errand.taken_off hnext with ⟨r₀, -, -, -, rfl, hdue⟩ | ⟨a, -, -, -, rfl⟩
        · exact hdue
        · rfl
      · exact Request.isDeferred_later hle (hc r onward ((htasks _).mpr (.tail _ hothers)))
    · cases hjob

theorem due_run {w : World} {moves : List CrewMove} (h : (fresh w).run setup moves = some c) :
    c.Due :=
  follow_keeps (fun _ _ _ => due_of_move) (fun _ _ hr => by cases hr) h

/-- A request is the only one for its attachment, and waits. -/
def OnlyWaits (c : Crew) (x : Request) : Prop := c.state.OnlyWaits c.tasks.flatten x

/-- While its wait runs, the only request for an attachment stays the only one. -/
theorem onlyWaits_of_move {m : CrewMove} (hc : c.Legible) (hx : c.OnlyWaits x)
    (hnew : ∀ i, m = .turn i → ¬ c.Creates setup i x.id)
    (h : c.move setup m = some c') (hwait : x.isDeferred c'.state.world.now = true) :
    c'.OnlyWaits x := by
  have hwait₀ := Request.isDeferred_earlier (now_le_of_move h) hwait
  refine keeps_of_turn (Q := fun s es => s.OnlyWaits es x) ?_ h hx (fun w _ => hx.withWorld w)
    (fun op _ => hx.begin op) fun i e rest others hm hi hbefore => ?_
  · intro s es es' hes hsub
    exact hes.of_mem fun e he => (hsub e he).imp_right Errand.isIdle_of_isStart
  · exact Errand.perform_onlyWaits hc.matched hc.filed hbefore
      (fun hcreates => hnew i hm ⟨e, rest, hi, hcreates⟩) hwait₀

/-- **The only request for an attachment waits to the end**, unless a new one is made. -/
theorem not_calls_of_onlyWaits {later : List CrewMove} (hc : c.Legible) (hx : c.OnlyWaits x)
    (hnew : Throughout (move setup) (fun u m => ∀ i, m = .turn i → ¬ u.Creates setup i x.id) c
      later) (h : c.run setup later = some c') (hcalls : c'.Calls x.id) :
    x.isDeferred c'.state.world.now = false := by
  have hkept := follow_keeps_of
    (P := fun u : Crew => u.Legible ∧ (x.isDeferred u.state.world.now = true → u.OnlyWaits x))
    (fun u m u' hu hm hmove => ⟨legible_move hu.1 hmove, fun hwait =>
      onlyWaits_of_move hu.1 (hu.2 (Request.isDeferred_earlier (now_le_of_move hmove) hwait)) hm
        hmove hwait⟩) ⟨hc, fun _ => hx⟩ hnew h
  by_contra hwait
  obtain ⟨e, he, hasks⟩ := hcalls
  rw [(hkept.2 (by simpa using hwait)).uncalled e he] at hasks
  cases hasks

end Crew

namespace Desk

variable {setup : Setup} {d d' : Desk} {x r : Request}

/-! ### One operation after another -/

/-- The next errand settles a transfer in flight that ended with a connection error. -/
def LosesConnection (d : Desk) (r : Request) : Prop :=
  (∃ rest, d.task = .settle r.id .connectionError :: rest) ∧
    d.state.scheduler.flights.get? r.id = some r

/-- A request is the only one for its attachment, and waits. -/
def OnlyWaits (d : Desk) (x : Request) : Prop := d.state.OnlyWaits d.task x

/-- **After a connection error the request that waits is the only one** for its attachment. -/
theorem onlyWaits_of_losesConnection (hd : d.Settled setup) (hr : d.LosesConnection r)
    (hleft : r.countRetry.retries ≤ setup.settings.maxRetries)
    (h : d.move setup .turn = some d') :
    d'.OnlyWaits (r.afterError setup.settings d.state.world.now) := by
  obtain ⟨⟨rest, ht⟩, hflies⟩ := hr
  obtain ⟨e, rest', ht', rfl⟩ := move_turn h
  obtain ⟨rfl, rfl⟩ := List.cons.inj (ht.symm.trans ht')
  have hback : (Errand.settle r.id .connectionError).SendsBack d.state r := ⟨rfl, hflies⟩
  have habroad := abroad_of_sendsBack hd.sound ht hback
  have hcarried := hd.apart.carried
  rw [ht] at hcarried
  have hwaits := Errand.get?_settle_connectionError setup hflies hleft
  have hleads := Errand.perform_leads setup d.state (.settle r.id .connectionError)
  have hnone : ∀ y ∈ (Errand.perform setup d.state (.settle r.id .connectionError)).next,
      y.aside = [] ∧ y.asks r.id = false := by
    intro y hy
    rcases hleads with hnil | ⟨z, hz⟩
    · rw [hnil] at hy
      cases hy
    · rw [hz] at hy
      rw [List.mem_singleton.mp hy]
      exact ⟨rfl, rfl⟩
  have hmem : ∀ y ∈ (Errand.perform setup d.state (.settle r.id .connectionError)).left rest,
      y ∈ (Errand.perform setup d.state (.settle r.id .connectionError)).next ∨ y ∈ rest :=
    fun _ => Turn.mem_left
  refine ⟨fun y (hid : y.id = r.id) hy => ?_, fun y (hid : y.id = r.id) hy => ?_, fun y hy => ?_⟩
  · rcases hy with hwaiting | ⟨z, hz, hkept⟩
    · dsimp only at hwaiting
      rw [hid, hwaits] at hwaiting
      split_ifs at hwaiting
      exact (Option.some.inj hwaiting).symm
    · rcases hmem z hz with hnext | hrest
      · rw [(hnone z hnext).1] at hkept
        cases hkept
      · refine (hd.apart.not_both hd.sound hid (.inr ⟨z, ?_, hkept⟩) habroad).elim
        rw [ht]
        exact .tail _ hrest
  · rcases (hy.mono fun z hz => List.mem_append.mpr (hmem z hz)).append with
      hnext | ⟨z, hz, hsettling⟩
    · exact Errand.not_abroad_of_sendsBack (Tidy.filed hd.sound.books) hcarried hback hid hnext
    · refine Errand.not_abroad_of_carried hcarried ?_ (hback.abroad (Tidy.filed hd.sound.books))
      rw [← hid]
      exact List.mem_flatMap.mpr ⟨z, hz, Errand.mem_inHand_of_settling hsettling⟩
  · rcases hmem y hy with hnext | hrest
    · exact (hnone y hnext).2
    · simpa using List.countP_eq_zero.mp (hd.sound.asks_behind ht) y hrest

/-- While its wait runs, the only request for an attachment stays the only one. -/
theorem onlyWaits_of_move {m : Move} (hd : d.Sound setup) (hx : d.OnlyWaits x)
    (hnew : ¬ (m = .turn ∧ d.Creates setup x.id)) (h : d.move setup m = some d')
    (hwait : x.isDeferred d'.state.world.now = true) : d'.OnlyWaits x := by
  have hwait₀ := Request.isDeferred_earlier (now_le_of_move h) hwait
  unfold OnlyWaits at hx
  rcases move_cases h with ⟨w, rfl, -, rfl⟩ | ⟨op, rfl, ht, rfl⟩ | ⟨e, rest, rfl, ht, rfl⟩
  · exact hx.withWorld w
  · rw [ht] at hx
    exact hx.begin op
  · rw [ht] at hx
    exact (Errand.perform_onlyWaits (Tidy.matched hd.books) (Tidy.filed hd.books) hx
      (fun hcreates => hnew ⟨rfl, e, rest, ht, hcreates⟩) hwait₀).of_mem fun y hy =>
        .inl (List.mem_append.mpr (Turn.mem_left hy))

theorem not_calls_of_onlyWaits {later : List Move} {id : Int} (hd : d.Settled setup)
    (hx : d.OnlyWaits x) (hid : x.id = id)
    (hnew : Throughout (move setup) (fun u m => ¬ (m = .turn ∧ u.Creates setup id)) d later)
    (h : d.run setup later = some d') (hcalls : d'.Calls id) :
    x.isDeferred d'.state.world.now = false := by
  subst hid
  have hkept := follow_keeps_of
    (P := fun u : Desk => u.Settled setup ∧ (x.isDeferred u.state.world.now = true → u.OnlyWaits x))
    (fun u m u' hu hm hmove => ⟨settled_move hu.1 hmove, fun hwait =>
      onlyWaits_of_move hu.1.sound
        (hu.2 (Request.isDeferred_earlier (now_le_of_move hmove) hwait)) hm hmove hwait⟩)
    ⟨hd, fun _ => hx⟩ hnew h
  by_contra hwait
  obtain ⟨r, onward, rest, ht, hid⟩ := hcalls
  have huncalled := (hkept.2 (by simpa using hwait)).uncalled (.handOver r onward)
    (by rw [ht]; exact List.mem_cons_self)
  simp [Errand.asks, hid] at huncalled

end Desk

/-- **Delayed retries are never early.** Let a transfer end with a connection error, and let its
request have a retry left.

However the tasks are interleaved:

* the request waits again with one more retry: without a delay if it has not had more than go
  without one, otherwise until the delay has passed;
* at no time is a request about to be handed over whose wait still runs;
* if it is the only request for its attachment, and no new one is made, the carrier is not asked for
  the transfer before the delay has passed.

With operations one after another it is the only one, so that its lineage does not come to the
carrier before the delay has passed. -/
theorem delayed_retry_not_early (setup : Setup) (w : World) (r : Request)
    (hleft : r.countRetry.retries ≤ setup.settings.maxRetries) :
    (∀ before i c c₁, (Crew.fresh w).run setup before = some c → c.LosesConnection i r →
      c.move setup (.turn i) = some c₁ →
        c₁.state.scheduler.queue.index.get? r.id =
          (if 0 ≤ r.id then some (r.afterError setup.settings c.state.world.now) else none) ∧
        (r.countRetry.retries ≤ setup.settings.delayThreshold →
          (r.afterError setup.settings c.state.world.now).notBefore = none) ∧
        ∀ later c₂, c₁.run setup later = some c₂ →
          c₂.Due ∧
          (setup.settings.delayThreshold < r.countRetry.retries →
            c₁.OnlyWaits (r.afterError setup.settings c.state.world.now) →
            Throughout (Crew.move setup)
              (fun u m => ∀ j, m = .turn j → ¬ u.Creates setup j r.id) c₁ later →
            c₂.Calls r.id →
              c.state.world.now + setup.settings.retryDelay ≤ c₂.state.world.now)) ∧
    ∀ before d d₁, (Desk.fresh w).run setup before = some d → d.LosesConnection r →
      d.move setup .turn = some d₁ →
        d₁.state.scheduler.queue.index.get? r.id =
          (if 0 ≤ r.id then some (r.afterError setup.settings d.state.world.now) else none) ∧
        (setup.settings.delayThreshold < r.countRetry.retries →
          ∀ later d₂, d₁.run setup later = some d₂ →
            Throughout (Desk.move setup)
              (fun u m => ¬ (m = .turn ∧ u.Creates setup r.id)) d₁ later →
            d₂.Calls r.id →
              d.state.world.now + setup.settings.retryDelay ≤ d₂.state.world.now) := by
  constructor
  · intro before i c c₁ hc hloses hmove
    obtain ⟨⟨rest, hi⟩, hflies⟩ := hloses
    have hlegible : c₁.Legible := Crew.legible_move (Crew.legible_run hc) hmove
    refine ⟨?_, fun hfew => ?_, fun later c₂ hlater => ⟨?_, fun hdelay honly hnew hcalls => ?_⟩⟩
    · obtain ⟨e, rest', -, hi', -, hstate, -⟩ := Crew.turn_errands hmove
      obtain ⟨rfl, rfl⟩ := List.cons.inj (Option.some.inj (hi.symm.trans hi'))
      rw [hstate]
      exact Errand.get?_settle_connectionError setup hflies hleft
    · simp only [Request.afterError, if_neg (UInt32.not_lt.mpr hfew)]
    · exact follow_keeps (fun _ _ _ => Crew.due_of_move)
        (Crew.due_of_move (Crew.due_run hc) hmove) hlater
    · exact Request.le_of_afterError hdelay
        (Crew.not_calls_of_onlyWaits hlegible honly hnew hlater hcalls)
  · intro before d d₁ hd hloses hmove
    have hsettled : d.Settled setup :=
      follow_keeps (fun _ _ _ => Desk.settled_move) (Desk.settled_fresh setup w) hd
    refine ⟨?_, fun hdelay later d₂ hlater hnew hcalls => ?_⟩
    · obtain ⟨⟨rest, ht⟩, hflies⟩ := hloses
      obtain ⟨e, rest', ht', rfl⟩ := Desk.move_turn hmove
      obtain ⟨rfl, rfl⟩ := List.cons.inj (ht.symm.trans ht')
      exact Errand.get?_settle_connectionError setup hflies hleft
    · exact Request.le_of_afterError hdelay
        (Desk.not_calls_of_onlyWaits (Desk.settled_move hsettled hmove)
          (Desk.onlyWaits_of_losesConnection hsettled hloses hleft hmove) rfl hnew hlater hcalls)

/-! ### A connection that is lost -/

/-- Every retry has to wait for a while. -/
def alwaysWaiting : Setup := { settings := { delayThreshold := 0 } }

/-- The clock reaches the end of the wait. -/
def waitOver : World := { Crew.wantingWorld with now := seconds 10 }

/-- The main loop hands a transfer over, which reports that it has lost its connection. -/
def Crew.lostOnce : List CrewMove :=
  [.begin (.change { id := 1, message := 10, account := 1, flags := .forward }), .turn 0] ++
    .begin .round :: List.replicate 9 (.turn 1) ++
      [.begin (.report ⟨10, 1, .connectionError, 0⟩), .turn 2]

/-- The same, one operation after another. -/
def Desk.lostOnce : List Move :=
  [.begin (.change { id := 1, message := 10, account := 1, flags := .forward }), .turn] ++
    .begin .round :: List.replicate 9 .turn ++
      [.begin (.report ⟨10, 1, .connectionError, 0⟩), .turn]

/-- A round after the wait, up to the moment at which the carrier is to be asked. -/
def Crew.roundAfterWait : List CrewMove :=
  .world waitOver :: .begin .round :: List.replicate 3 (.turn 3)

def Desk.roundAfterWait : List Move := .world waitOver :: .begin .round :: List.replicate 3 .turn

/-- In the round after the wait no new request is made. -/
theorem Crew.makes_none_roundAfterWait :
    ∃ c c₁ c₂ r, (fresh wantingWorld).run alwaysWaiting lostOnce = some c ∧
      c.tasks[2]? = some [.settle 1 .connectionError] ∧
      c.state.scheduler.flights.get? 1 = some r ∧ r.id = 1 ∧ r.retries = 0 ∧
      c.move alwaysWaiting (.turn 2) = some c₁ ∧ c₁.tasks.flatten = [] ∧
      c₁.state.scheduler.flights.get? 1 = none ∧
      c₁.run alwaysWaiting roundAfterWait = some c₂ ∧ c₂.Calls 1 ∧
      Throughout (move alwaysWaiting)
        (fun u m => ∀ j, m = .turn j → ¬ u.Creates alwaysWaiting j 1) c₁ roundAfterWait := by
  refine ⟨_, _, _, _, rfl, rfl, rfl, rfl, rfl, rfl, rfl, rfl, rfl, ⟨_, .head _, rfl⟩, ?_⟩
  refine throughout_cons_of nofun rfl (throughout_cons_of nofun rfl ?_)
  refine throughout_cons_of ?_ rfl (throughout_cons_of ?_ rfl (throughout_cons_of ?_ rfl ?_))
  · rintro _ ⟨⟩ ⟨e, rest, hi, hcreates⟩
    obtain ⟨rfl, -⟩ := List.cons.inj (Option.some.inj hi)
    exact hcreates
  · rintro _ ⟨⟩ ⟨e, rest, hi, hcreates⟩
    obtain ⟨rfl, -⟩ := List.cons.inj (Option.some.inj hi)
    exact hcreates
  · rintro _ ⟨⟩ ⟨e, rest, hi, hcreates⟩
    obtain ⟨rfl, -⟩ := List.cons.inj (Option.some.inj hi)
    exact hcreates
  · intro earlier m later u hnil
    simp at hnil

theorem Desk.makes_none_roundAfterWait :
    ∃ d d₁ d₂ r, (fresh Crew.wantingWorld).run alwaysWaiting lostOnce = some d ∧
      d.task = [.settle 1 .connectionError] ∧ d.state.scheduler.flights.get? 1 = some r ∧
      r.id = 1 ∧ r.retries = 0 ∧ d.move alwaysWaiting .turn = some d₁ ∧
      d₁.run alwaysWaiting roundAfterWait = some d₂ ∧ d₂.Calls 1 ∧
      Throughout (move alwaysWaiting) (fun u m => ¬ (m = .turn ∧ u.Creates alwaysWaiting 1)) d₁
        roundAfterWait := by
  refine ⟨_, _, _, _, rfl, rfl, rfl, rfl, rfl, rfl, rfl, ⟨_, _, _, rfl, rfl⟩, ?_⟩
  refine throughout_cons_of (fun h => nomatch h.1) rfl
    (throughout_cons_of (fun h => nomatch h.1) rfl ?_)
  refine throughout_cons_of ?_ rfl (throughout_cons_of ?_ rfl (throughout_cons_of ?_ rfl ?_))
  · rintro ⟨-, e, rest, ht, hcreates⟩
    obtain ⟨rfl, -⟩ := List.cons.inj ht
    exact hcreates
  · rintro ⟨-, e, rest, ht, hcreates⟩
    obtain ⟨rfl, -⟩ := List.cons.inj ht
    exact hcreates
  · rintro ⟨-, e, rest, ht, hcreates⟩
    obtain ⟨rfl, -⟩ := List.cons.inj ht
    exact hcreates
  · intro earlier m later u hnil
    simp at hnil

theorem delayed_retry_not_early_lost_once :
    (∃ c c₁ c₂, (Crew.fresh Crew.wantingWorld).run alwaysWaiting Crew.lostOnce = some c ∧
      c.move alwaysWaiting (.turn 2) = some c₁ ∧
      c₁.run alwaysWaiting Crew.roundAfterWait = some c₂ ∧ c₂.Calls 1 ∧
      c.state.world.now + seconds 10 ≤ c₂.state.world.now) ∧
    ∃ d d₁ d₂, (Desk.fresh Crew.wantingWorld).run alwaysWaiting Desk.lostOnce = some d ∧
      d.move alwaysWaiting .turn = some d₁ ∧
      d₁.run alwaysWaiting Desk.roundAfterWait = some d₂ ∧ d₂.Calls 1 ∧
      d.state.world.now + seconds 10 ≤ d₂.state.world.now := by
  have hone : ∀ r : Request, r.retries = 0 → r.countRetry.retries = 1 := by
    intro r hr
    rw [Request.countRetry, hr]
    rfl
  constructor
  · obtain ⟨c, c₁, c₂, r, hc, hi, hflies, hid, hzero, hmove, hidle, hground, hlater, hcalls,
      hnew⟩ := Crew.makes_none_roundAfterWait
    rw [← hid] at hi hflies hground hcalls hnew
    obtain ⟨hwaits, -, hrun⟩ := (delayed_retry_not_early alwaysWaiting Crew.wantingWorld r
      (by rw [hone r hzero]; decide)).1 _ 2 c c₁ hc ⟨⟨[], hi⟩, hflies⟩ hmove
    rw [if_pos (by rw [hid]; decide)] at hwaits
    have honly : c₁.OnlyWaits (r.afterError alwaysWaiting.settings c.state.world.now) := by
      unfold Crew.OnlyWaits
      rw [hidle]
      exact .of_books hwaits hground
    refine ⟨c, c₁, c₂, hc, hmove, hlater, hid ▸ hcalls, ?_⟩
    exact (hrun _ c₂ hlater).2 (by rw [hone r hzero]; decide) honly hnew hcalls
  · obtain ⟨d, d₁, d₂, r, hd, ht, hflies, hid, hzero, hmove, hlater, hcalls, hnew⟩ :=
      Desk.makes_none_roundAfterWait
    rw [← hid] at ht hflies hcalls hnew
    refine ⟨d, d₁, d₂, hd, hmove, hlater, hid ▸ hcalls, ?_⟩
    exact ((delayed_retry_not_early alwaysWaiting Crew.wantingWorld r
      (by rw [hone r hzero]; decide)).2 _ d d₁ hd ⟨⟨[], ht⟩, hflies⟩ hmove).2
        (by rw [hone r hzero]; decide) _ d₂ hlater hnew hcalls

end MailFetch

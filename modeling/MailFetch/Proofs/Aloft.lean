import MailFetch.Proofs.Course
import MailFetch.Proofs.Errand

/-! # Who is in flight after an errand

A request that is in flight after an errand was so before it, perhaps in an older state, or has just
been taken off. `Errand.Aloft` says this with what is known in each of the three cases, and
`Errand.perform_aloft` that there are no others. Breaking transfers off only takes requests out of
the air (`Scheduler.part_breakOff`, `Scheduler.part_breakOffAll`). -/

namespace MailFetch

namespace Scheduler

variable (s : Scheduler) (limits : Settings) (now : Nat)

theorem flights_requeue (r : Request) : (s.requeue limits now r).2.flights = s.flights := by
  rw [requeue_eq]

theorem flights_retryAfterError (r : Request) :
    (s.retryAfterError limits now r).2.flights = s.flights := by
  rw [retryAfterError_eq]

theorem flights_breakOff (id : Int) :
    (s.breakOff limits now id).2.flights =
      if s.flights.contains id then s.flights.erase id else s.flights := by
  unfold breakOff
  cases hr : s.flights.get? id with
  | none => rw [if_neg (by rw [Flights.contains_eq_false_iff.mpr hr]; nofun)]
  | some r =>
    rw [if_pos (Flights.contains_iff.mpr ⟨r, hr⟩)]
    exact flights_requeue ..

/-- Nobody is in flight after having been broken off. -/
theorem get?_breakOff_self (id : Int) : (s.breakOff limits now id).2.flights.get? id = none := by
  rw [flights_breakOff]
  split_ifs with hf
  · rw [Flights.get?_erase, if_pos rfl]
  · exact Flights.contains_eq_false_iff.mp (by simpa using hf)

/-- Breaking a transfer off brings nobody into the air. -/
theorem part_breakOff (id : Int) : (s.breakOff limits now id).2.flights.Part s.flights := by
  rw [flights_breakOff]
  split_ifs
  · exact .erase _ _
  · exact .refl _

theorem part_breakOffAll (ids : List Int) :
    (s.breakOffAll limits now ids).2.flights.Part s.flights := by
  induction ids generalizing s with
  | nil => exact .refl _
  | cons id rest ih => exact (ih _).trans (s.part_breakOff limits now id)

/-- Of several that are broken off, nobody is in flight afterwards. -/
theorem get?_breakOffAll {ids : List Int} {id : Int} (h : id ∈ ids) :
    (s.breakOffAll limits now ids).2.flights.get? id = none := by
  induction ids generalizing s with
  | nil => cases h
  | cons j rest ih =>
    rcases List.mem_cons.mp h with rfl | hrest
    · rw [Option.eq_none_iff_forall_ne_some]
      intro r hr
      have hself := part_breakOffAll (s.breakOff limits now id).2 limits now rest id r hr
      rw [get?_breakOff_self] at hself
      cases hself
    · exact ih _ hrest

end Scheduler

namespace Request

variable (r : Request) (now : Nat) (status : Status) (percent : Nat)

theorem id_heard : (r.heard now status percent).id = r.id := by
  unfold heard
  dsimp only
  split_ifs <;> rfl

theorem account_heard : (r.heard now status percent).account = r.account := by
  unfold heard
  dsimp only
  split_ifs <;> rfl

theorem heardAt_heard : (r.heard now status percent).heardAt = some now := by
  unfold heard
  dsimp only
  split_ifs <;> rfl

end Request

namespace Errand

variable {setup : Setup} {s : State} {e : Errand}

/-- **Where a request in flight comes from** that is so after a turn. -/
inductive Aloft (s : State) (t : Turn) (id : Int) (r : Request) : Prop
  /-- It was in flight before. -/
  | before (h : s.scheduler.flights.get? id = some r)
  /-- It was in flight before, and has been heard of now. -/
  | heard (r₀ : Request) (h : s.scheduler.flights.get? id = some r₀) (hid : r.id = r₀.id)
      (haccount : r.account = r₀.account) (hheard : r.heardAt = some s.world.now)
  /-- It has just been taken off, and is handed over next. -/
  | taken (onward : Onward) (hnext : handOver r onward ∈ t.next) (hid : r.id = id)
      (hheard : r.heardAt = some s.world.now)

/-- What screening a request does to those in flight: nothing, or it is taken off with room for it,
in all and for its account. -/
theorem flights_screen (setup : Setup) (s : State) (r : Request) (aside : List Request) :
    (doScreen setup s r aside).state.scheduler.flights = s.scheduler.flights ∨
      s.scheduler.flights.size < setup.settings.maxConcurrent ∧
        s.scheduler.flights.countFor r.account < setup.settings.maxPerAccount ∧
        (doScreen setup s r aside).state.scheduler.flights =
          s.scheduler.flights.insert (r.dispatch s.world.now) ∧
        (doScreen setup s r aside).next = [handOver (r.dispatch s.world.now) (.queue aside)] := by
  unfold doScreen
  split
  · exact .inl rfl
  · exact .inl rfl
  · dsimp only
    split_ifs with hdue hroom
    · exact .inl rfl
    · exact .inl rfl
    · simp only [Scheduler.hasRoom, Scheduler.hasRoomFor, Bool.or_eq_true, not_or,
        Bool.not_eq_true, Bool.not_eq_false', decide_eq_true_eq] at hroom
      exact .inr ⟨hroom.1, hroom.2, rfl, rfl⟩

/-- What claiming a record does to those in flight: nothing, or its request is taken off with room
for its account. -/
theorem flights_claim (setup : Setup) (s : State) (a : Attachment) (rest : List Attachment) :
    (doClaim setup s a rest).state.scheduler.flights = s.scheduler.flights ∧
        (doClaim setup s a rest).next = [consider rest] ∨
      s.scheduler.flights.countFor a.account < setup.settings.maxPerAccount ∧
        (doClaim setup s a rest).state.scheduler.flights = s.scheduler.flights.insert
          ((a.request .background s.world.now).dispatch s.world.now) ∧
        (doClaim setup s a rest).next =
          [handOver ((a.request .background s.world.now).dispatch s.world.now) .done] := by
  unfold doClaim
  split_ifs with hroom
  · exact .inl ⟨rfl, rfl⟩
  · simp only [Scheduler.hasRoomFor, Bool.or_eq_true, not_or, Bool.not_eq_true,
      Bool.not_eq_false', decide_eq_true_eq] at hroom
    exact .inr ⟨hroom.2, rfl, rfl⟩

theorem part_settle (id : Int) (status : Status) :
    (doSettle setup s id status).state.scheduler.flights.Part s.scheduler.flights := by
  unfold doSettle
  split
  · exact .refl _
  · dsimp only
    split_ifs
    · split <;>
      · simp only [State.ring_flights, State.abandon_scheduler, State.arm_flights,
          Scheduler.flights_retryAfterError]
        exact .erase _ _
    · exact .erase _ _

/-- After a tick, those are in flight who have not been silent for too long. -/
theorem flights_tick (timeout : Nat) (hstopped : s.scheduler.stopped = false) :
    (doTick setup s timeout).state.scheduler.flights =
      (s.scheduler.breakOffAll setup.settings s.world.now
        (s.scheduler.flights.stalled timeout s.world.now)).2.flights := by
  unfold doTick
  rw [if_neg (by rw [hstopped]; nofun)]
  dsimp only
  split_ifs <;> simp only [State.ring_flights, State.abandon_scheduler]

theorem part_tick (timeout : Nat) :
    (doTick setup s timeout).state.scheduler.flights.Part s.scheduler.flights := by
  by_cases hstopped : s.scheduler.stopped = true
  · unfold doTick
    rw [if_pos hstopped]
    exact .refl _
  · rw [flights_tick timeout (by simpa using hstopped)]
    exact s.scheduler.part_breakOffAll _ _ _

/-- A request in flight after a turn was so before, as it is, or has just been taken off. -/
def KeptOrTaken (s : State) (t : Turn) (id : Int) (r : Request) : Prop :=
  s.scheduler.flights.get? id = some r ∨
    ∃ onward, handOver r onward ∈ t.next ∧ r.id = id ∧ r.heardAt = some s.world.now

theorem keptOrTaken_insert {t : Turn} {x : Request} {onward : Onward} {id : Int} {r : Request}
    (hnext : t.next = [handOver x onward]) (hheard : x.heardAt = some s.world.now)
    (h : (s.scheduler.flights.insert x).get? id = some r) : KeptOrTaken s t id r := by
  rw [Flights.get?_insert] at h
  split_ifs at h with hid
  · obtain rfl := Option.some.inj h
    exact .inr ⟨onward, by rw [hnext]; exact List.mem_cons_self, hid.symm, hheard⟩
  · exact .inl h

/-- Apart from a report, no errand changes a request in flight. -/
theorem perform_keptOrTaken (hhear : ∀ report, e ≠ hear report) {id : Int} {r : Request}
    (h : (e.perform setup s).state.scheduler.flights.get? id = some r) :
    KeptOrTaken s (e.perform setup s) id r := by
  by_cases htouch : e.touchesBooks = false
  · rw [(perform_frame setup s e).flights htouch] at h
    exact .inl h
  cases e with
  | review a =>
    unfold perform doReview at h
    dsimp only at h
    split at h <;> exact .inl h
  | takeNext aside =>
    unfold perform doTakeNext at h
    dsimp only at h
    split_ifs at h
    · exact .inl h
    · split at h <;> exact .inl h
  | screen x aside =>
    rcases flights_screen setup s x aside with heq | ⟨-, -, heq, hnext⟩
    · rw [perform, heq] at h
      exact .inl h
    · rw [perform, heq] at h
      exact keptOrTaken_insert hnext rfl h
  | landed x accepted onward =>
    unfold perform doLanded at h
    dsimp only at h
    split_ifs at h
    · exact .inl h
    · simp only [State.arm_flights, State.breakOff_scheduler] at h
      exact .inl (s.scheduler.part_breakOff _ _ _ id r h)
  | putBack aside => exact .inl h
  | claim a rest =>
    rcases flights_claim setup s a rest with ⟨heq, -⟩ | ⟨-, heq, hnext⟩
    · rw [perform, heq] at h
      exact .inl h
    · rw [perform, heq] at h
      exact keptOrTaken_insert hnext rfl h
  | hear report => exact absurd rfl (hhear report)
  | settle j status => exact .inl (part_settle j status id r h)
  | askParent x record =>
    unfold perform doAskParent at h
    dsimp only at h
    split at h
    · simp only [State.ring_flights, State.requeue_scheduler, Scheduler.flights_requeue] at h
      exact .inl h
    · exact .inl h
    · exact .inl h
  | tick timeout => exact .inl (part_tick timeout id r h)
  | _ => exact absurd rfl htouch

/-- **Whoever is in flight after an errand** was so before, or has just been taken off. -/
theorem perform_aloft (hfiled : s.scheduler.flights.Filed) {id : Int} {r : Request}
    (h : (e.perform setup s).state.scheduler.flights.get? id = some r) :
    Aloft s (e.perform setup s) id r := by
  by_cases hhear : ∃ report, e = hear report
  · obtain ⟨report, rfl⟩ := hhear
    unfold perform doHear at h
    dsimp only at h
    split at h
    · exact .before h
    next r₀ hr₀ =>
      rw [Flights.get?_insert, Request.id_heard, hfiled _ _ hr₀] at h
      split_ifs at h with hid
      · obtain rfl := Option.some.inj h
        rw [← hid] at hr₀
        exact .heard r₀ hr₀ (r₀.id_heard ..) (r₀.account_heard ..) (r₀.heardAt_heard ..)
      · exact .before h
  · rcases perform_keptOrTaken (fun report he => hhear ⟨report, he⟩) h with
      hbefore | ⟨onward, hnext, hid, hheard⟩
    · exact .before hbefore
    · exact .taken onward hnext hid hheard

/-- **Who is handed over next** has just been taken off: a request from the queue that is due, or a
new one for a record that nobody asked for. -/
theorem taken_off {r : Request} {onward : Onward}
    (h : handOver r onward ∈ (e.perform setup s).next) :
    (∃ r₀ aside, e = screen r₀ aside ∧ onward = .queue aside ∧ r = r₀.dispatch s.world.now ∧
        r₀.isDeferred s.world.now = false) ∨
      ∃ a rest, e = claim a rest ∧ onward = .done ∧
        r = (a.request .background s.world.now).dispatch s.world.now := by
  rcases (perform_leads setup s e).of_handOver h with ⟨r₀, aside, -, rfl, -⟩ | ⟨a, rest, -, rfl, -⟩
  · left
    rw [perform, doScreen] at h
    split at h
    · cases List.mem_singleton.mp h
    · cases List.mem_singleton.mp h
    · dsimp only at h
      split_ifs at h with hdue
      · cases List.mem_singleton.mp h
      · cases List.mem_singleton.mp h
      · obtain ⟨hr, honward⟩ := Errand.handOver.inj (List.mem_singleton.mp h)
        exact ⟨r₀, aside, rfl, honward, hr, by simpa using hdue⟩
  · right
    rcases flights_claim setup s a rest with ⟨-, hnext⟩ | ⟨-, -, hnext⟩
    · rw [perform, hnext] at h
      cases List.mem_singleton.mp h
    · rw [perform, hnext] at h
      obtain ⟨hr, honward⟩ := Errand.handOver.inj (List.mem_singleton.mp h)
      exact ⟨a, rest, rfl, honward, hr⟩

/-- Requests in flight stay under their own numbers. -/
theorem perform_filed (hfiled : s.scheduler.flights.Filed) :
    (e.perform setup s).state.scheduler.flights.Filed := by
  intro id r hr
  rcases perform_aloft hfiled hr with h | ⟨r₀, h, hid, -, -⟩ | ⟨-, -, hid, -⟩
  · exact hfiled id r h
  · rw [hid]
    exact hfiled id r₀ h
  · exact hid

end Errand

end MailFetch

import MailFetch.Proofs.Flights
import MailFetch.Scheduler.State

/-! # The scheduler's books

The queue and the requests in flight are the scheduler's books. They are in order, `Tidy`, if the
two halves of the queue agree, every waiting request is fit to wait, every request in flight is
entered under its own number as active and has been heard of since it started, and nobody is entered
in both.

Each way in which the scheduler changes its books keeps them in order: a request may join the queue
if it is fit to wait and not in flight (`Tidy.push`), and may be entered as in flight if it does not
wait (`Tidy.insert`). `Tidy.requeue`, `Tidy.breakOff`, `Tidy.retryAfterError` and `Tidy.restore` put
these together. -/

namespace MailFetch

/-- A retry is put off by no more than the wait before a delayed one. -/
def Request.Prompt (limits : Settings) (now : Nat) (r : Request) : Prop :=
  ∀ t, r.notBefore = some t → t ≤ now + limits.retryDelay

/-- A request that may wait in the queue: not active, with a number that a record can have, with no
more retries than are allowed, and put off by no more than a retry is. -/
structure Request.FitToWait (limits : Settings) (now : Nat) (r : Request) : Prop where
  idle : r.active = false
  id_nonneg : 0 ≤ r.id
  retries_le : r.retries ≤ limits.maxRetries
  prompt : r.Prompt limits now

/-- A request that is properly in flight: active, started, and heard of no earlier than that and no
later than now. -/
structure Request.Airborne (limits : Settings) (now : Nat) (r : Request) : Prop where
  active : r.active = true
  heard : ∃ start heard, r.startedAt = some start ∧ r.heardAt = some heard ∧ start ≤ heard ∧
    heard ≤ now
  prompt : r.Prompt limits now

namespace Request

variable {limits : Settings} {now now' : Nat} {r : Request}

theorem Prompt.later (h : r.Prompt limits now) (hle : now ≤ now') : r.Prompt limits now' :=
  fun t ht => Nat.le_trans (h t ht) (Nat.add_le_add_right hle _)

theorem FitToWait.later (h : r.FitToWait limits now) (hle : now ≤ now') :
    r.FitToWait limits now' :=
  ⟨h.idle, h.id_nonneg, h.retries_le, h.prompt.later hle⟩

theorem Airborne.later (h : r.Airborne limits now) (hle : now ≤ now') :
    r.Airborne limits now' := by
  obtain ⟨start, heard, hs, hh, hsh, hhn⟩ := h.heard
  exact ⟨h.active, ⟨start, heard, hs, hh, hsh, Nat.le_trans hhn hle⟩, h.prompt.later hle⟩

theorem airborne_dispatch (h : r.Prompt limits now) : (r.dispatch now).Airborne limits now :=
  ⟨rfl, ⟨now, now, rfl, rfl, Nat.le_refl _, Nat.le_refl _⟩, h⟩

end Request

namespace Scheduler

variable (s : Scheduler) (limits : Settings) (now : Nat)

/-- Requeueing changes nothing but the queue. -/
theorem requeue_eq (r : Request) :
    (s.requeue limits now r).2 = { s with queue := (s.requeue limits now r).2.queue } := by
  unfold requeue
  dsimp only
  split_ifs <;> rfl

/-- Breaking off a transfer changes nothing but the books. -/
theorem breakOff_eq (id : Int) :
    (s.breakOff limits now id).2 =
      { s with
        queue := (s.breakOff limits now id).2.queue
        flights := (s.breakOff limits now id).2.flights } := by
  unfold breakOff
  cases s.flights.get? id with
  | none => rfl
  | some r =>
    dsimp only
    rw [requeue_eq]

theorem breakOffAll_eq (ids : List Int) :
    (s.breakOffAll limits now ids).2 =
      { s with
        queue := (s.breakOffAll limits now ids).2.queue
        flights := (s.breakOffAll limits now ids).2.flights } := by
  induction ids generalizing s with
  | nil => rfl
  | cons id rest ih =>
    unfold breakOffAll
    dsimp only
    rw [ih, breakOff_eq]

/-- A retry after a connection error changes nothing but the queue. -/
theorem retryAfterError_eq (r : Request) :
    (s.retryAfterError limits now r).2 =
      { s with queue := (s.retryAfterError limits now r).2.queue } := by
  unfold retryAfterError
  dsimp only
  split_ifs <;> rfl

end Scheduler

/-- **The books are in order** at the time `now`. -/
structure Tidy (limits : Settings) (now : Nat) (q : Queue) (f : Flights) : Prop where
  matched : q.Matched
  waiting : ∀ id r, q.index.get? id = some r → r.FitToWait limits now
  flying : ∀ id r, f.get? id = some r → r.id = id ∧ r.Airborne limits now
  apart : ∀ id, q.contains id = true → f.contains id = false

namespace Tidy

variable {limits : Settings} {now : Nat} {q : Queue} {f : Flights}

theorem empty (limits : Settings) (now : Nat) : Tidy limits now .empty .empty where
  matched := Queue.matched_empty
  waiting := by simp [Queue.empty]
  flying := by simp [Flights.get?, Flights.empty]
  apart := by simp [Queue.contains, Queue.empty, Table.contains]

theorem later (h : Tidy limits now q f) {now' : Nat} (hle : now ≤ now') : Tidy limits now' q f where
  matched := h.matched
  waiting id r hr := (h.waiting id r hr).later hle
  flying id r hr := ⟨(h.flying id r hr).1, (h.flying id r hr).2.later hle⟩
  apart := h.apart

theorem drop (h : Tidy limits now q f) (id : Int) : Tidy limits now (q.drop id) f where
  matched := h.matched.drop id
  waiting j r hr := by
    rw [Queue.get?_drop] at hr
    split_ifs at hr
    exact h.waiting j r hr
  flying := h.flying
  apart j hj := h.apart j ((Queue.contains_drop q id j).mp hj).1

/-- **A request may join the queue** if it is fit to wait and not in flight; with a number that no
record can have it is refused, and nothing changes. -/
theorem push (h : Tidy limits now q f) {r : Request}
    (hr : 0 ≤ r.id → r.FitToWait limits now ∧ f.contains r.id = false) :
    Tidy limits now (q.push r) f where
  matched := h.matched.push r
  waiting j x hx := by
    rw [Queue.get?_push] at hx
    split_ifs at hx with hj
    · obtain rfl := Option.some.inj hx
      exact (hr hj.2.1).1
    · exact h.waiting j x hx
  flying := h.flying
  apart j hj := by
    rcases (Queue.contains_push q r j).mp hj with hj | ⟨rfl, hpos⟩
    · exact h.apart j hj
    · exact (hr hpos).2

theorem erase (h : Tidy limits now q f) (id : Int) : Tidy limits now q (f.erase id) where
  matched := h.matched
  waiting := h.waiting
  flying j r hr := by
    rw [Flights.get?_erase] at hr
    split_ifs at hr
    exact h.flying j r hr
  apart j hj := by
    rw [Flights.contains_eq_false_iff, Flights.get?_erase]
    split_ifs
    · rfl
    · exact Flights.contains_eq_false_iff.mp (h.apart j hj)

/-- **A request may be entered as in flight** if it does not wait. -/
theorem insert (h : Tidy limits now q f) {r : Request} (hr : r.Airborne limits now)
    (hq : q.contains r.id = false) : Tidy limits now q (f.insert r) where
  matched := h.matched
  waiting := h.waiting
  flying j x hx := by
    rw [Flights.get?_insert] at hx
    split_ifs at hx with hj
    · obtain rfl := Option.some.inj hx
      exact ⟨hj.symm, hr⟩
    · exact h.flying j x hx
  apart j hj := by
    rw [Flights.contains_eq_false_iff, Flights.get?_insert]
    split_ifs with he
    · rw [he, hq] at hj
      cases hj
    · exact Flights.contains_eq_false_iff.mp (h.apart j hj)

theorem filed (h : Tidy limits now q f) : f.Filed := fun id r hr => (h.flying id r hr).1

theorem not_waiting_of_flying (h : Tidy limits now q f) {id : Int} (hf : f.contains id = true) :
    q.contains id = false := by
  by_contra hq
  rw [h.apart id (by simpa using hq)] at hf
  cases hf

/-- **Taking the most urgent request** leaves the books in order; the request was fit to wait, and
is entered nowhere now. -/
theorem pop (h : Tidy limits now q f) {r : Request} {q' : Queue} (hp : q.pop = (some r, q')) :
    Tidy limits now q' f ∧ r.FitToWait limits now ∧ q'.contains r.id = false ∧
      f.contains r.id = false := by
  rcases Queue.pop_cases h.matched with ⟨hnone, -⟩ | ⟨r', q'', hsome, hm, hr, hget⟩
  · rw [hp] at hnone
    cases hnone
  · rw [hp] at hsome
    obtain ⟨rfl, rfl⟩ : r = r' ∧ q' = q'' := by simpa using hsome
    have hcontains : ∀ id, q'.contains id = true → q.contains id = true := by
      intro id hid
      obtain ⟨x, hx⟩ := Queue.contains_iff.mp hid
      rw [hget] at hx
      split_ifs at hx
      exact Queue.contains_iff.mpr ⟨x, hx⟩
    refine ⟨⟨hm, fun id x hx => ?_, h.flying, fun id hid => h.apart id (hcontains id hid)⟩,
      h.waiting _ _ hr, ?_, h.apart _ (Queue.contains_iff.mpr ⟨r, hr⟩)⟩
    · rw [hget] at hx
      split_ifs at hx
      exact h.waiting id x hx
    · rw [Queue.contains_eq_false_iff, hget, if_pos rfl]

/-! ### What the scheduler does to its books -/

/-- Putting requests back keeps the books in order, whoever is in flight by then. -/
theorem restore {aside : List Request} (hfit : ∀ r ∈ aside, r.FitToWait limits now) :
    ∀ {q : Queue}, Tidy limits now q f →
      Tidy limits now (aside.foldl (fun q r => if f.contains r.id then q else q.push r) q) f := by
  induction aside with
  | nil => exact fun h => h
  | cons r rest ih =>
    intro q h
    rw [List.foldl_cons]
    refine ih (fun x hx => hfit x (List.mem_cons_of_mem _ hx)) ?_
    split_ifs with hr
    · exact h
    · exact h.push fun _ => ⟨hfit r List.mem_cons_self, by simpa using hr⟩

variable {s : Scheduler}

/-- **Requeueing** keeps the books in order if the request is not in flight by then; where it has
used up its retries, or its number is refused, that does not matter. -/
theorem requeue (h : Tidy limits now s.queue s.flights) {r : Request} (hact : r.active = false)
    (hprompt : r.Prompt limits now)
    (hf : 0 ≤ r.id → r.countRetry.retries ≤ limits.maxRetries → s.flights.contains r.id = false) :
    Tidy limits now (s.requeue limits now r).2.queue (s.requeue limits now r).2.flights := by
  rw [Scheduler.requeue_eq]
  unfold Scheduler.requeue
  dsimp only
  split_ifs with hmax
  · exact h.drop r.id
  · have hle : r.countRetry.retries ≤ limits.maxRetries := UInt32.not_lt.mp hmax
    exact (h.drop r.id).push fun hpos => ⟨⟨hact, hpos, hle, hprompt⟩, hf hpos hle⟩

theorem breakOff (h : Tidy limits now s.queue s.flights) (id : Int) :
    Tidy limits now (s.breakOff limits now id).2.queue (s.breakOff limits now id).2.flights := by
  unfold Scheduler.breakOff
  cases hr : s.flights.get? id with
  | none => exact h
  | some r =>
    obtain ⟨hid, hair⟩ := h.flying id r hr
    refine requeue (s := { s with flights := s.flights.erase id }) (h.erase id) rfl hair.prompt
      fun _ _ => ?_
    rw [Flights.contains_eq_false_iff]
    simp [Request.land, hid]

theorem breakOffAll (h : Tidy limits now s.queue s.flights) (ids : List Int) :
    Tidy limits now (s.breakOffAll limits now ids).2.queue
      (s.breakOffAll limits now ids).2.flights := by
  induction ids generalizing s with
  | nil => exact h
  | cons id rest ih => exact ih (h.breakOff id)

theorem retryAfterError (h : Tidy limits now s.queue s.flights) {r : Request}
    (hact : r.active = false) (hf : s.flights.contains r.id = false) :
    Tidy limits now (s.retryAfterError limits now r).2.queue
      (s.retryAfterError limits now r).2.flights := by
  rw [Scheduler.retryAfterError_eq]
  dsimp only
  unfold Scheduler.retryAfterError
  dsimp only
  split_ifs with hmax hdelay
  · exact h.drop r.id
  · refine (h.drop r.id).push fun hpos => ⟨⟨hact, hpos, UInt32.not_lt.mp hmax, fun t ht => ?_⟩, hf⟩
    exact Nat.le_of_eq (Option.some.inj ht).symm
  · exact (h.drop r.id).push fun hpos => ⟨⟨hact, hpos, UInt32.not_lt.mp hmax, nofun⟩, hf⟩

end Tidy

end MailFetch

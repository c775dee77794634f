import MailFetch.Proofs.OfflineTick
import MailFetch.Proofs.Outcome

/-! # A look through the records, made again

A look through the records reviews every record whose download is asked for. What becomes of one
record depends on what is said about its own attachment alone, and nothing else is touched. So the
records may be reviewed in any order; and once all have been reviewed, each of them has its request,
or asks for nothing any more, or asks under a number that no request can have. Then a second look
finds nothing to do.

* `State.waitsAfter`, `State.recordAfter`: what a review makes of its attachment.
* `State.Reviewed`: what reviews of several records make of a state. `Desk.reviewed_reviews`: they
  come to an end, and this is what they make.
* `State.Reviewed.alike`: the order of the records does not matter.
* `State.Reviewed.settled`: afterwards no review makes a difference.
* `Crew.sweep_again`: a look through the records, made again and made in any order. -/

namespace MailFetch

/-! ### What a review makes of its attachment -/

/-- A record that asks for a download asks for one of the two kinds. -/
theorem Flags.contains_of_intersects_pending {f : Flags} (h : f.intersects .pending = true) :
    f.contains .forward = true ∨ f.contains .requested = true := by
  have hbit (i : Nat) : f.bits &&& BitVec.twoPow 32 i = BitVec.twoPow 32 i ∨
      f.bits &&& BitVec.twoPow 32 i = 0#32 := by
    rw [BitVec.and_twoPow]
    split_ifs
    · exact .inl rfl
    · exact .inr rfl
  have hforward : forward.bits = BitVec.twoPow 32 1 := rfl
  have hrequested : requested.bits = BitVec.twoPow 32 2 := rfl
  have hpending : pending.bits = forward.bits ||| requested.bits := rfl
  unfold intersects at h
  unfold contains
  rw [hpending, BitVec.and_or_distrib_left, hforward, hrequested] at h
  rw [hforward, hrequested, beq_iff_eq, beq_iff_eq]
  rcases hbit 1 with hone | hone
  · exact .inl hone
  rcases hbit 2 with htwo | htwo
  · exact .inr htwo
  · rw [hone, htwo] at h
    cases h

/-- What is pending has a class. -/
theorem Attachment.ofFlags_of_isPending {a : Attachment} (h : a.isPending = true) :
    ∃ p, Priority.ofFlags a.flags = some p := by
  rcases Flags.contains_of_intersects_pending h with hforward | hrequested
  · exact ⟨.sendMail, if_pos hforward⟩
  · exact Priority.ofFlags_of_requested hrequested

namespace Scheduler

variable {s s' : Scheduler} {policy : Policy} {a : Attachment}

/-- A verdict depends on the books of its own attachment only. -/
theorem verdict_congr (hflights : s'.flights = s.flights)
    (hqueue : s'.queue.index.get? a.id = s.queue.index.get? a.id) :
    s'.verdict policy a = s.verdict policy a := by
  have hwaits : s'.queue.contains a.id = s.queue.contains a.id := by
    unfold Queue.contains Table.contains
    rw [hqueue]
  unfold verdict
  rw [hflights, hwaits]

theorem verdict_ne_unasked {p : Priority} (h : Priority.ofFlags a.flags = some p) :
    s.verdict policy a ≠ .unasked := by
  unfold verdict
  rw [h]
  dsimp only
  split_ifs <;> nofun

theorem contains_of_wanted {p : Priority} (h : s.verdict policy a = .wanted p) :
    s.queue.contains a.id = false := by
  unfold verdict at h
  split at h
  · cases h
  · split_ifs at h with hknown hpolicy
    exact (Bool.or_eq_false_iff.mp (by simpa using hknown)).2

theorem verdict_of_waiting (hpending : a.isPending = true) (h : s.queue.contains a.id = true) :
    s.verdict policy a = .known := by
  obtain ⟨p, hp⟩ := Attachment.ofFlags_of_isPending hpending
  simp [verdict, hp, h]

end Scheduler

namespace Records

variable {r : Records} {a : Attachment}

/-- What is pending is filed under its own number. -/
theorem mem_pending (hfiled : r.Filed) :
    a ∈ r.pending ↔ r.attachments.get? a.id = some a ∧ a.isPending = true := by
  unfold pending
  rw [List.mem_filter, hfiled.mem_values]

/-- No two pending records are about one attachment. -/
theorem pairwise_pending (hfiled : r.Filed) : r.pending.Pairwise fun a b => b.id ≠ a.id := by
  refine (hfiled.pairwise_values.filter _).imp fun {a b} hlt => ?_
  omega

end Records

namespace State

/-- The state at a later time, when nothing has happened in between. -/
def later (s : State) (t : Nat) : State := s.withWorld { s.world with now := t }

/-- **Who waits for an attachment** when its record has been reviewed. -/
def waitsAfter (s : State) (policy : Policy) (a : Attachment) : Option Request :=
  match s.scheduler.verdict policy a with
  | .unasked => none
  | .known | .forbidden => s.scheduler.queue.index.get? a.id
  | .wanted p => if 0 ≤ a.id then some (a.request p s.world.now) else none

/-- **The record of an attachment** when it has been reviewed. -/
def recordAfter (s : State) (policy : Policy) (a : Attachment) : Option Attachment :=
  if s.scheduler.verdict policy a = .forbidden then
    (s.world.records.attachments.get? a.id).map (Update.finished a.flags .failed).apply
  else s.world.records.attachments.get? a.id

/-- **What reviews of some records make of a state**: of each record what its own review makes, and
of nothing else anything. -/
structure Reviewed (s : State) (policy : Policy) (found : List Attachment) (s' : State) :
    Prop where
  matched : s'.scheduler.queue.Matched
  waits : ∀ a ∈ found, s'.scheduler.queue.index.get? a.id = s.waitsAfter policy a
  record : ∀ a ∈ found, s'.world.records.attachments.get? a.id = s.recordAfter policy a
  waitsElse : ∀ id, (∀ a ∈ found, a.id ≠ id) →
    s'.scheduler.queue.index.get? id = s.scheduler.queue.index.get? id
  recordElse : ∀ id, (∀ a ∈ found, a.id ≠ id) →
    s'.world.records.attachments.get? id = s.world.records.attachments.get? id
  flights : s'.scheduler.flights = s.scheduler.flights
  usage : s'.scheduler.usage = s.scheduler.usage
  failures : s'.scheduler.failures = s.scheduler.failures
  world : s'.world = { s.world with
    records := { s.world.records with attachments := s'.world.records.attachments } }

/-- **Two states are alike**: they have the same queue, the same transfers in flight, the same
ledgers and the same records. -/
structure Alike (s s' : State) : Prop where
  queue : s'.scheduler.queue = s.scheduler.queue
  flights : s'.scheduler.flights = s.scheduler.flights
  usage : s'.scheduler.usage = s.scheduler.usage
  failures : s'.scheduler.failures = s.scheduler.failures
  records : s'.world.records = s.world.records

namespace Reviewed

variable {s s₁ s₂ : State} {policy : Policy} {a : Attachment} {found : List Attachment}

theorem nil (hq : s.scheduler.queue.Matched) : s.Reviewed policy [] s where
  matched := hq
  waits := by simp
  record := by simp
  waitsElse _ _ := rfl
  recordElse _ _ := rfl
  flights := rfl
  usage := rfl
  failures := rfl
  world := rfl

/-- **One record more is reviewed**, of another attachment. -/
theorem cons (h₁ : s.Reviewed policy [a] s₁) (h₂ : s₁.Reviewed policy found s₂)
    (hnew : ∀ b ∈ found, b.id ≠ a.id) : s.Reviewed policy (a :: found) s₂ := by
  have hothers : ∀ b ∈ found, ∀ x ∈ [a], x.id ≠ b.id := by
    intro b hb x hx
    rw [List.mem_singleton.mp hx]
    exact (hnew b hb).symm
  have hverdict : ∀ b ∈ found, s₁.scheduler.verdict policy b = s.scheduler.verdict policy b :=
    fun b hb => Scheduler.verdict_congr h₁.flights (h₁.waitsElse b.id (hothers b hb))
  have hnow : s₁.world.now = s.world.now := by rw [h₁.world]
  refine
    { matched := h₂.matched
      waits := fun b hb => ?_
      record := fun b hb => ?_
      waitsElse := fun id hid => ?_
      recordElse := fun id hid => ?_
      flights := h₂.flights.trans h₁.flights
      usage := h₂.usage.trans h₁.usage
      failures := h₂.failures.trans h₁.failures
      world := ?_ }
  · rcases List.mem_cons.mp hb with rfl | hb
    · rw [h₂.waitsElse b.id hnew, h₁.waits b List.mem_cons_self]
    · rw [h₂.waits b hb, waitsAfter, waitsAfter, hverdict b hb, hnow,
        h₁.waitsElse b.id (hothers b hb)]
  · rcases List.mem_cons.mp hb with rfl | hb
    · rw [h₂.recordElse b.id hnew, h₁.record b List.mem_cons_self]
    · rw [h₂.record b hb, recordAfter, recordAfter, hverdict b hb,
        h₁.recordElse b.id (hothers b hb)]
  · rw [h₂.waitsElse id fun b hb => hid b (.tail _ hb),
      h₁.waitsElse id fun b hb => hid b (List.mem_singleton.mp hb ▸ List.mem_cons_self)]
  · rw [h₂.recordElse id fun b hb => hid b (.tail _ hb),
      h₁.recordElse id fun b hb => hid b (List.mem_singleton.mp hb ▸ List.mem_cons_self)]
  · rw [h₂.world, h₁.world]

/-- **The order in which records are reviewed does not matter.** -/
theorem alike {order : List Attachment} (h₁ : s.Reviewed policy found s₁)
    (h₂ : s.Reviewed policy order s₂) (hperm : order.Perm found) : s₁.Alike s₂ := by
  have hqueue (id : Int) :
      s₂.scheduler.queue.index.get? id = s₁.scheduler.queue.index.get? id := by
    by_cases hid : ∃ a ∈ found, a.id = id
    · obtain ⟨a, ha, rfl⟩ := hid
      rw [h₁.waits a ha, h₂.waits a (hperm.mem_iff.mpr ha)]
    · have hnone : ∀ a ∈ found, a.id ≠ id := fun a ha heq => hid ⟨a, ha, heq⟩
      rw [h₁.waitsElse id hnone, h₂.waitsElse id fun a ha => hnone a (hperm.mem_iff.mp ha)]
  have hrecords (id : Int) :
      s₂.world.records.attachments.get? id = s₁.world.records.attachments.get? id := by
    by_cases hid : ∃ a ∈ found, a.id = id
    · obtain ⟨a, ha, rfl⟩ := hid
      rw [h₁.record a ha, h₂.record a (hperm.mem_iff.mpr ha)]
    · have hnone : ∀ a ∈ found, a.id ≠ id := fun a ha heq => hid ⟨a, ha, heq⟩
      rw [h₁.recordElse id hnone, h₂.recordElse id fun a ha => hnone a (hperm.mem_iff.mp ha)]
  exact
    { queue := Queue.ext_get? h₂.matched h₁.matched hqueue
      flights := h₂.flights.trans h₁.flights.symm
      usage := h₂.usage.trans h₁.usage.symm
      failures := h₂.failures.trans h₁.failures.symm
      records := by rw [h₂.world, h₁.world, Table.ext_get? hrecords] }

/-- Reviewed records stay filed under their own numbers. -/
theorem filed (hfiled : s.world.records.Filed) (h : s.Reviewed policy found s₁) :
    s₁.world.records.Filed := by
  intro id b hb
  by_cases hid : ∃ a ∈ found, a.id = id
  · obtain ⟨a, ha, rfl⟩ := hid
    rw [h.record a ha, recordAfter] at hb
    split_ifs at hb
    · obtain ⟨c, hc, rfl⟩ := Option.map_eq_some_iff.mp hb
      exact hfiled a.id c hc
    · exact hfiled a.id b hb
  · rw [h.recordElse id fun a ha heq => hid ⟨a, ha, heq⟩] at hb
    exact hfiled id b hb

/-- **Whatever is pending after a look through the records** was so before and has not been
refused. -/
theorem pending_before {b : Attachment} (hfiled : s.world.records.Filed)
    (h : s.Reviewed policy s.world.records.pending s₁) (hb : b ∈ s₁.world.records.pending) :
    b ∈ s.world.records.pending ∧ s.scheduler.verdict policy b ≠ .forbidden := by
  obtain ⟨hrecord, hpending⟩ := (Records.mem_pending (h.filed hfiled)).mp hb
  by_cases hid : ∃ a ∈ s.world.records.pending, a.id = b.id
  · obtain ⟨a, ha, heq⟩ := hid
    rw [← heq, h.record a ha, recordAfter, ((Records.mem_pending hfiled).mp ha).1] at hrecord
    split_ifs at hrecord with hverdict
    · -- A refused record asks for nothing any more.
      have hdone : ((Update.finished a.flags .failed).apply a).isPending = false :=
        Flags.intersects_without a.flags .pending
      rw [← Option.some.inj hrecord, hdone] at hpending
      cases hpending
    · rw [← Option.some.inj hrecord]
      exact ⟨ha, hverdict⟩
  · have hnone : ∀ a ∈ s.world.records.pending, a.id ≠ b.id := fun a ha heq => hid ⟨a, ha, heq⟩
    rw [h.recordElse b.id hnone] at hrecord
    exact absurd rfl (hnone b ((Records.mem_pending hfiled).mpr ⟨hrecord, hpending⟩))

/-- **When all pending records have been reviewed**, to review them again makes no difference, at
whatever time. Each has its request by then, unless it cannot have one; and those that were refused
are not pending any more. -/
theorem settled (hfiled : s.world.records.Filed)
    (h : s.Reviewed policy s.world.records.pending s₁) (t : Nat) :
    (s₁.later t).Reviewed policy s₁.world.records.pending (s₁.later t) := by
  have hstays : ∀ b ∈ s₁.world.records.pending,
      (s₁.later t).waitsAfter policy b = s₁.scheduler.queue.index.get? b.id ∧
        s₁.scheduler.verdict policy b ≠ .forbidden := by
    intro b hb
    obtain ⟨hmem, hallowed⟩ := h.pending_before hfiled hb
    have hpending := ((Records.mem_pending hfiled).mp hmem).2
    have hwaits := h.waits b hmem
    cases hverdict : s.scheduler.verdict policy b with
    | unasked =>
      obtain ⟨p, hp⟩ := Attachment.ofFlags_of_isPending hpending
      exact absurd hverdict (Scheduler.verdict_ne_unasked hp)
    | forbidden => exact absurd hverdict hallowed
    | known =>
      rw [waitsAfter, hverdict] at hwaits
      have hknown : s₁.scheduler.verdict policy b = .known :=
        (Scheduler.verdict_congr h.flights hwaits).trans hverdict
      exact ⟨by rw [waitsAfter]; simp only [later, withWorld, hknown], by simp [hknown]⟩
    | wanted p =>
      rw [waitsAfter, hverdict] at hwaits
      by_cases hpos : 0 ≤ b.id
      · simp only [if_pos hpos] at hwaits
        have hjoined := Queue.contains_iff.mpr ⟨_, hwaits⟩
        have hknown : s₁.scheduler.verdict policy b = .known :=
          Scheduler.verdict_of_waiting hpending hjoined
        exact ⟨by rw [waitsAfter]; simp only [later, withWorld, hknown], by simp [hknown]⟩
      · -- A request under a negative number was not let in, and would not be again.
        simp only [if_neg hpos] at hwaits
        have hnone := Queue.contains_eq_false_iff.mp (Scheduler.contains_of_wanted hverdict)
        have hagain : s₁.scheduler.verdict policy b = .wanted p :=
          (Scheduler.verdict_congr h.flights (hwaits.trans hnone.symm)).trans hverdict
        refine ⟨?_, by simp [hagain]⟩
        rw [waitsAfter]
        simp only [later, withWorld, hagain, if_neg hpos, hwaits]
  exact
    { matched := h.matched
      waits := fun b hb => (hstays b hb).1.symm
      record := fun b hb => (if_neg (hstays b hb).2).symm
      waitsElse := fun _ _ => rfl
      recordElse := fun _ _ => rfl
      flights := rfl
      usage := rfl
      failures := rfl
      world := rfl }

end Reviewed

end State

/-! ### Reviews come to their end -/

namespace World

variable {w : World}

theorem StoreUp.get?_update (hup : w.StoreUp) (id : Int) (u : Update) (j : Int) :
    (w.update id u).records.attachments.get? j =
      if j = id then (w.records.attachments.get? id).map u.apply
      else w.records.attachments.get? j := by
  cases ha : w.records.attachments.get? id with
  | none =>
    have hsame : w.update id u = w := by
      unfold World.update Records.update
      rw [ha]
      simp
    rw [hsame]
    split_ifs with hj
    · rw [hj, ha]
      rfl
    · rfl
  | some a =>
    rw [hup.update u ha, enter]
    exact Table.get?_insert _ _ _ _

/-- An update touches the attachments only. -/
theorem update_eq (w : World) (id : Int) (u : Update) :
    w.update id u = { w with records :=
      { w.records with attachments := (w.update id u).records.attachments } } := by
  rcases w.update_cases id u with hsame | ⟨a, -, henter⟩
  · rw [hsame]
  · rw [henter, enter]

end World

namespace State

variable {s : State} {policy : Policy} {a : Attachment}

/-- A review that refuses nothing changes who waits for its attachment. -/
theorem reviewed_of_queue {q : Queue} (hq : q.Matched)
    (hverdict : s.scheduler.verdict policy a ≠ .forbidden)
    (hwaits : ∀ id, q.index.get? id =
      if id = a.id then s.waitsAfter policy a else s.scheduler.queue.index.get? id) :
    s.Reviewed policy [a] (s.withScheduler { s.scheduler with queue := q }).ring where
  matched := hq
  waits b hb := by
    rw [List.mem_singleton.mp hb]
    exact (hwaits a.id).trans (if_pos rfl)
  record b hb := by
    rw [List.mem_singleton.mp hb, recordAfter, if_neg hverdict]
    rfl
  waitsElse id hid := (hwaits id).trans (if_neg (hid a List.mem_cons_self).symm)
  recordElse _ _ := rfl
  flights := rfl
  usage := rfl
  failures := rfl
  world := rfl

/-- A review that refuses changes its record. -/
theorem reviewed_of_refusal (hup : s.world.StoreUp) (hq : s.scheduler.queue.Matched)
    (hverdict : s.scheduler.verdict policy a = .forbidden) :
    s.Reviewed policy [a] (s.update a.id (.finished a.flags .failed)).ring where
  matched := hq
  waits b hb := by
    rw [List.mem_singleton.mp hb, waitsAfter, hverdict]
    rfl
  record b hb := by
    rw [List.mem_singleton.mp hb, recordAfter, if_pos hverdict]
    exact (hup.get?_update _ _ _).trans (if_pos rfl)
  waitsElse _ _ := rfl
  recordElse id hid := (hup.get?_update _ _ _).trans (if_neg (hid a List.mem_cons_self).symm)
  flights := rfl
  usage := rfl
  failures := rfl
  world := s.world.update_eq _ _

end State

namespace Desk

variable {setup : Setup} {s : State} {a : Attachment}

/-- **A review comes to its end**, and makes of the state what it may. -/
theorem reviewed_review (setup : Setup) (hup : s.world.StoreUp) (hq : s.scheduler.queue.Matched)
    (a : Attachment) :
    ∃ s', s.Reviewed setup.policy [a] s' ∧ ∀ rest d, Finishes setup ⟨s', rest⟩ d →
      Finishes setup ⟨s, .review a :: rest⟩ d := by
  have hreview : (Errand.review a).perform setup s = Errand.doReview setup s a := rfl
  unfold Errand.doReview at hreview
  cases hverdict : s.scheduler.verdict setup.policy a with
  | unasked =>
    rw [hverdict] at hreview
    refine ⟨_, State.reviewed_of_queue (hq.drop a.id) (by simp [hverdict]) fun id => ?_,
      fun rest d hrest => finishes_turn [] rfl hreview hrest⟩
    rw [Queue.get?_drop, State.waitsAfter, hverdict]
  | known =>
    rw [hverdict] at hreview
    refine ⟨_, State.reviewed_of_queue hq (by simp [hverdict]) fun id => ?_,
      fun rest d hrest => finishes_turn [] rfl hreview hrest⟩
    rw [State.waitsAfter, hverdict]
    by_cases hid : id = a.id
    · rw [if_pos hid, hid]
    · rw [if_neg hid]
  | wanted p =>
    rw [hverdict] at hreview
    refine ⟨_, State.reviewed_of_queue (hq.push (a.request p s.world.now)) (by simp [hverdict])
      fun id => ?_, fun rest d hrest => finishes_turn [] rfl hreview hrest⟩
    have hfree := Scheduler.contains_of_wanted hverdict
    have hnone := Queue.contains_eq_false_iff.mp hfree
    rw [Queue.get?_push, State.waitsAfter, hverdict]
    have hid : (a.request p s.world.now).id = a.id := rfl
    rw [hid]
    by_cases heq : id = a.id
    · subst heq
      by_cases hpos : 0 ≤ a.id <;> simp [hfree, hnone, hpos]
    · simp [heq]
  | forbidden =>
    rw [hverdict] at hreview
    exact ⟨_, State.reviewed_of_refusal hup hq hverdict, fun rest d hrest =>
      finishes_turn _ rfl hreview (finishes_cons rfl (finishes_cons rfl hrest))⟩

/-- **Reviews of several records come to their end**, and make of each record what its own review
makes. The induction is on the records; a review leaves the books of the later ones alone. -/
theorem reviewed_reviews (setup : Setup) (hup : s.world.StoreUp)
    (hq : s.scheduler.queue.Matched) {found : List Attachment}
    (hdistinct : found.Pairwise fun a b => b.id ≠ a.id) :
    ∃ s', s.Reviewed setup.policy found s' ∧ ∀ rest d, Finishes setup ⟨s', rest⟩ d →
      Finishes setup ⟨s, found.map .review ++ rest⟩ d := by
  induction found generalizing s with
  | nil => exact ⟨s, .nil hq, fun rest d h => h⟩
  | cons a found ih =>
    obtain ⟨hnew, htail⟩ := List.pairwise_cons.mp hdistinct
    obtain ⟨s₁, h₁, hturn⟩ := reviewed_review setup hup hq a
    have hup₁ : s₁.world.StoreUp := by
      rw [h₁.world]
      exact hup
    obtain ⟨s₂, h₂, hturns⟩ := ih hup₁ h₁.matched htail
    exact ⟨s₂, h₁.cons h₂ hnew, fun rest d h => hturn _ _ (hturns rest d h)⟩

/-- **A look through the records** comes to its end, and reviews all that is pending. -/
theorem reviewed_sweep (setup : Setup) (hup : s.world.StoreUp) (hq : s.scheduler.queue.Matched)
    (hfiled : s.world.records.Filed) :
    ∃ s', s.Reviewed setup.policy s.world.records.pending s' ∧
      Finishes setup ⟨s, [.sweep]⟩ ⟨s', []⟩ := by
  obtain ⟨s', h, hturns⟩ := reviewed_reviews setup hup hq (Records.pairwise_pending hfiled)
  refine ⟨s', h, finishes_cons rfl ?_⟩
  rw [Errand.perform, Errand.doSweep, hup.pending]
  dsimp only
  rw [List.append_nil]
  exact hturns _ _ (finishes_cons rfl (finishes_nil setup s'))

end Desk

namespace Crew

variable {setup : Setup} {c : Crew}

/-- **A look through the records** comes to the same however it is made. In every state that a run
can reach, however its tasks are interleaved, while no call to the store fails and its records are
filed under their own numbers, a look through the records comes to its end, and

* a second one right afterwards, at whatever time, comes to its end and leaves the queue, those in
  flight, the ledgers and the records as they are;
* reviews of the pending records in any order come to their end, and to the same. -/
theorem sweep_again (setup : Setup) (w : World) (moves : List CrewMove)
    (hrun : (fresh w).run setup moves = some c) (hup : c.state.world.StoreUp)
    (hfiled : c.state.world.records.Filed) :
    ∃ d, Desk.Finishes setup ⟨c.state, [.sweep]⟩ d ∧
      (∀ t, c.state.world.now ≤ t →
        ∃ d', Desk.Finishes setup ⟨d.state.later t, [.sweep]⟩ d' ∧ d.state.Alike d'.state) ∧
      ∀ order : List Attachment, order.Perm c.state.world.records.pending →
        ∃ d', Desk.Finishes setup ⟨c.state, order.map .review⟩ d' ∧ d.state.Alike d'.state := by
  have hq : c.state.scheduler.queue.Matched := (legible_run hrun).matched
  obtain ⟨s₁, h₁, hends₁⟩ := Desk.reviewed_sweep setup hup hq hfiled
  refine ⟨_, hends₁, fun t _ => ?_, fun order hperm => ?_⟩
  · have hup₁ : (s₁.later t).world.StoreUp := by
      have hfaults : s₁.world.faults = c.state.world.faults := by rw [h₁.world]
      unfold World.StoreUp State.later State.withWorld
      dsimp only
      rw [hfaults]
      exact hup
    have hfiled₁ : s₁.world.records.Filed := h₁.filed hfiled
    obtain ⟨s₂, h₂, hends₂⟩ := Desk.reviewed_sweep setup hup₁ h₁.matched hfiled₁
    have halike := (h₁.settled hfiled t).alike h₂ (.refl _)
    exact ⟨_, hends₂, halike.queue, halike.flights, halike.usage, halike.failures, halike.records⟩
  · have hdistinct : order.Pairwise fun a b => b.id ≠ a.id :=
      (hperm.pairwise_iff fun h => h.symm).mpr (Records.pairwise_pending hfiled)
    obtain ⟨s₂, h₂, hends₂⟩ := Desk.reviewed_reviews setup hup hq hdistinct
    refine ⟨⟨s₂, []⟩, ?_, h₁.alike h₂ hperm⟩
    have hends := hends₂ [] _ (Desk.finishes_nil setup s₂)
    rwa [List.append_nil] at hends

/-- Three pending records: one that is wanted, one that may not be downloaded, and one with a number
that no request can have. -/
def mixedPending : List Attachment :=
  [{ id := -3, message := 10, account := 1, flags := .requested },
    { id := 1, message := 10, account := 1, flags := .forward },
    { id := 2, message := 10, account := 1, flags := .union .requested .barred }]

/-- A world with these records. -/
def mixedPendingWorld : World where records := .ofSeed { attachments := mixedPending }

/-- A second look five seconds later, and a look in the opposite order, leave the same queue and the
same records as the first look. -/
theorem sweep_again_mixed :
    ∃ d d₁ d₂, Desk.Finishes {} ⟨(fresh mixedPendingWorld).state, [.sweep]⟩ d ∧
      Desk.Finishes {} ⟨d.state.later (seconds 5), [.sweep]⟩ d₁ ∧
      Desk.Finishes {} ⟨(fresh mixedPendingWorld).state, mixedPending.reverse.map .review⟩ d₂ ∧
      d₁.state.scheduler.queue = d.state.scheduler.queue ∧
      d₁.state.world.records = d.state.world.records ∧
      d₂.state.scheduler.queue = d.state.scheduler.queue ∧
      d₂.state.world.records = d.state.world.records := by
  obtain ⟨d, hends, hagain, horder⟩ := sweep_again {} mixedPendingWorld [] rfl
    (List.forall_mem_nil _) (Records.filed_ofSeed _)
  obtain ⟨d₁, hends₁, halike₁⟩ := hagain (seconds 5) (Nat.zero_le _)
  obtain ⟨d₂, hends₂, halike₂⟩ := horder mixedPending.reverse (by decide)
  exact ⟨d, d₁, d₂, hends, hends₁, hends₂, halike₁.queue, halike₁.records, halike₂.queue,
    halike₂.records⟩

end Crew

end MailFetch

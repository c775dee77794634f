import MailFetch.Proofs.Barred
import MailFetch.Proofs.OnePlace
import MailFetch.Proofs.PendingMail

/-! # What becomes of a record

A transfer that ends for good leaves nothing of its request, and of its record what
`Attachment.outcome` says, as long as the store works. Nothing of it is pending any more, so a later
look for missed downloads does not find it.

* `Errand.finishes_hear`, `Errand.finishes_conclude`: the part of a report that takes the request
  out of the books, and the part that deals with the record.
* `Errand.Spares`: the errands of a look through the records that make no request for one
  attachment. `Desk.sweep_spares`: such a look comes to its end, and nobody waits all along.
* `Crew.outcome_of_report`: what a report makes of the books and the records, and that the next look
  through the records makes no request. -/

namespace MailFetch

/-! ### Records -/

theorem Flags.intersects_without (f g : Flags) : (f.without g).intersects g = false := by
  refine Bool.eq_false_iff.mpr fun hmeets => ?_
  obtain ⟨i, hf, hg⟩ := (intersects_iff _ _).mp hmeets
  rw [getLsbD_without f g (BitVec.lt_of_getLsbD hf), hg, Bool.not_true, Bool.and_false] at hf
  cases hf

namespace Attachment

/-- **What the end of a transfer makes of its record**: nothing if its message is gone, or if it was
to be forwarded and is gone itself. Otherwise it asks for no download any more, and is saved or
failed. -/
def outcome (status : Status) (a : Attachment) : Option Attachment :=
  if status = .messageNotFound ∨ status = .attachmentNotFound ∧ a.isForwarded = true then none
  else if status = .success then
    some { a with flags := a.flags.without .pending, phase := .saved, downloadedSize := a.size }
  else some { a with flags := a.flags.without .pending, phase := .failed }

/-- What is entered into a record that stays when its transfer ends. -/
def ending (status : Status) (a : Attachment) : Update :=
  if status = .success then .saved a else .finished a.flags .failed

variable {a b : Attachment} {status : Status}

theorem outcome_of_stays
    (h : ¬ (status = .messageNotFound ∨ status = .attachmentNotFound ∧ a.isForwarded = true)) :
    a.outcome status = some ((a.ending status).apply a) := by
  unfold outcome ending
  rw [if_neg h]
  split_ifs <;> rfl

/-- Whatever is left of a record asks for no download. -/
theorem isPending_of_outcome (h : a.outcome status = some b) : b.isPending = false := by
  unfold outcome at h
  split_ifs at h
  all_goals
    rw [← Option.some.inj h]
    exact Flags.intersects_without a.flags .pending

theorem id_of_outcome (h : a.outcome status = some b) : b.id = a.id := by
  unfold outcome at h
  split_ifs at h
  all_goals rw [← Option.some.inj h]

end Attachment

namespace World

variable {w w' : World} {id : Int}

/-- **Only one attachment's record changes.** -/
structure Replaces (w w' : World) (id : Int) (record : Option Attachment) : Prop where
  self : w'.records.attachments.get? id = record
  others : ∀ j, j ≠ id → w'.records.attachments.get? j = w.records.attachments.get? j
  messages : w'.records.messages = w.records.messages
  accounts : w'.records.accounts = w.records.accounts

theorem replaces_enter (w : World) (id : Int) (a : Attachment) :
    w.Replaces (w.enter id a) id (some a) where
  self := by simp [enter]
  others j hj := by simp [enter, hj]
  messages := rfl
  accounts := rfl

theorem replaces_erase (w : World) (id : Int) :
    w.Replaces { w with records := w.records.eraseAttachment id } id none where
  self := by simp [Records.eraseAttachment]
  others j hj := by simp [Records.eraseAttachment, hj]
  messages := rfl
  accounts := rfl

theorem StoreUp.update (hup : w.StoreUp) {a : Attachment} (u : Update)
    (ha : w.records.attachments.get? id = some a) : w.update id u = w.enter id (u.apply a) :=
  update_of_get? (hup.fails rfl id) u ha

end World

/-! ### The end of a report -/

/-- **Two states have the same books**: the same requests wait and are in flight. -/
def State.SameBooks (s s' : State) : Prop :=
  s'.scheduler.queue = s.scheduler.queue ∧ s'.scheduler.flights = s.scheduler.flights

theorem State.SameBooks.trans {s s' s'' : State} (h : s.SameBooks s') (h' : s'.SameBooks s'') :
    s.SameBooks s'' := ⟨h'.1.trans h.1, h'.2.trans h.2⟩

namespace Errand

variable {setup : Setup} {s : State} {e : Errand} {status : Status} {record : Option Attachment}

theorem sameBooks_perform (h : e.touchesBooks = false) :
    s.SameBooks (e.perform setup s).state :=
  ⟨(perform_frame setup s e).queue h, (perform_frame setup s e).flights h⟩

/-- Once its record has been closed, a call comes to its end and changes neither the books nor the
world. -/
theorem finishes_of_turnsLeft (h : 0 < e.turnsLeft) :
    ∃ d, Desk.Finishes setup ⟨s, [e]⟩ d ∧ s.SameBooks d.state ∧ d.state.world = s.world := by
  induction hleft : e.turnsLeft using Nat.strongRecOn generalizing e s with
  | _ n ih =>
    subst hleft
    have hbooks : s.SameBooks (e.perform setup s).state :=
      sameBooks_perform (by cases e <;> first | rfl | cases h)
    have hstays : e.mayCollapse = false := by cases e <;> first | rfl | cases h
    obtain ⟨hworld, hnil | ⟨x, hx, hpos, hless⟩⟩ := perform_of_turnsLeft setup s h
    · refine ⟨⟨_, []⟩, Desk.finishes_cons hstays ?_, hbooks, hworld⟩
      rw [hnil]
      exact Desk.finishes_nil setup _
    · obtain ⟨d, hends, hsame, hkept⟩ :=
        ih x.turnsLeft hless (s := (e.perform setup s).state) hpos rfl
      refine ⟨d, Desk.finishes_cons hstays ?_, hbooks.trans hsame, hkept.trans hworld⟩
      rw [hx]
      exact hends

/-- **Closing a record** enters how the transfer ended, if the record is left. -/
theorem finishes_close (setup : Setup) (s : State) (status : Status) (record : Option Attachment)
    (deleted : Bool) :
    ∃ d, Desk.Finishes setup ⟨s, [close status record deleted]⟩ d ∧ s.SameBooks d.state ∧
      d.state.world = match record with
        | some a => if deleted then s.world else s.world.update a.id (a.ending status)
        | none => s.world := by
  have hbooks : s.SameBooks ((close status record deleted).perform setup s).state :=
    sameBooks_perform rfl
  cases record with
  | none => exact ⟨⟨_, []⟩, Desk.finishes_cons rfl (Desk.finishes_nil setup _), hbooks, rfl⟩
  | some a =>
    have hworld : ((close status (some a) deleted).perform setup s).state.world =
        if deleted then s.world else s.world.update a.id (a.ending status) := by
      unfold perform doClose Attachment.ending
      dsimp only
      split_ifs <;> rfl
    have hnext : ∃ x, ((close status (some a) deleted).perform setup s).next = [x] ∧
        0 < x.turnsLeft := by
      unfold perform doClose
      dsimp only
      split_ifs
      · exact ⟨sendIfComplete a, rfl, Nat.succ_pos 2⟩
      · exact ⟨ring, rfl, Nat.succ_pos 0⟩
    obtain ⟨x, hx, hleft⟩ := hnext
    obtain ⟨d, hends, hsame, hkept⟩ := finishes_of_turnsLeft hleft
    refine ⟨d, Desk.finishes_cons rfl ?_, hbooks.trans hsame, hkept.trans hworld⟩
    rw [hx]
    exact hends

/-- Deleting a record goes through. -/
theorem finishes_expunge (setup : Setup) (status : Status) (record : Option Attachment)
    (hup : s.world.StoreUp) (id : Int) :
    ∃ d, Desk.Finishes setup ⟨s, [expunge id status record]⟩ d ∧ s.SameBooks d.state ∧
      s.world.Replaces d.state.world id none := by
  have hbooks : s.SameBooks ((expunge id status record).perform setup s).state :=
    sameBooks_perform rfl
  have hturn : ((expunge id status record).perform setup s).next = [close status record true] ∧
      ((expunge id status record).perform setup s).state.world =
        { s.world with records := s.world.records.eraseAttachment id } := by
    rw [perform, doExpunge, State.delete, hup.delete]
    cases record with
    | none => exact ⟨rfl, rfl⟩
    | some a =>
      dsimp only
      split_ifs <;> exact ⟨rfl, rfl⟩
  obtain ⟨d, hends, hsame, hkept⟩ := finishes_close setup
    ((expunge id status record).perform setup s).state status record true
  refine ⟨d, Desk.finishes_cons rfl ?_, hbooks.trans hsame, ?_⟩
  · rw [hturn.1]
    exact hends
  · have hworld : d.state.world = ((expunge id status record).perform setup s).state.world := by
      rw [hkept]
      split <;> rfl
    rw [hworld, hturn.2]
    exact s.world.replaces_erase id

/-- **A record whose message or whose forwarded attachment is gone** is deleted, whether or not the
message has to be looked up before. -/
theorem finishes_conclude_gone (setup : Setup) {r : Request} (hup : s.world.StoreUp)
    (hlook : s.world.attachment r.id = .ok record)
    (hparent : status = .messageNotFound → s.world.records.messages.get? r.message = none)
    (hgone : status = .messageNotFound ∨
      status = .attachmentNotFound ∧ (record.map (·.isForwarded)).getD false = true) :
    ∃ d, Desk.Finishes setup ⟨s, [conclude r status]⟩ d ∧ s.SameBooks d.state ∧
      s.world.Replaces d.state.world r.id none := by
  obtain ⟨d, hends, hsame, hnone⟩ := finishes_expunge setup status record hup r.id
  refine ⟨d, Desk.finishes_cons rfl ?_, hsame, hnone⟩
  rw [perform, doConclude, hlook]
  dsimp only
  by_cases hparted : status = .messageNotFound
  · rw [if_pos hparted]
    refine Desk.finishes_cons rfl ?_
    rw [perform, doAskParent, hup.message, hparent hparted, ← hparted]
    exact hends
  · rw [if_neg hparted, if_pos (hgone.resolve_left hparted)]
    exact hends

/-- **What a report makes of its record**, once the request has been taken out of the air: what
`Attachment.outcome` says, and of nothing else anything. -/
theorem finishes_conclude (setup : Setup) {r : Request} (hup : s.world.StoreUp)
    (hfiled : s.world.records.Filed)
    (hparent : status = .messageNotFound → s.world.records.messages.get? r.message = none) :
    ∃ d, Desk.Finishes setup ⟨s, [conclude r status]⟩ d ∧ s.SameBooks d.state ∧
      s.world.Replaces d.state.world r.id
        ((s.world.records.attachments.get? r.id).bind (·.outcome status)) := by
  have hlook := hup.attachment r.id
  generalize hrecord : s.world.records.attachments.get? r.id = record at hlook
  by_cases hgone : status = .messageNotFound ∨
    status = .attachmentNotFound ∧ (record.map (·.isForwarded)).getD false = true
  · have houtcome : record.bind (·.outcome status) = none := by
      cases record with
      | none => rfl
      | some a => exact if_pos hgone
    rw [houtcome]
    exact finishes_conclude_gone setup hup hlook hparent hgone
  · obtain ⟨hthere, hstays⟩ := not_or.mp hgone
    obtain ⟨d, hends, hsame, hworld⟩ := finishes_close setup s status record false
    refine ⟨d, Desk.finishes_cons rfl ?_, hsame, ?_⟩
    · rw [perform, doConclude, hlook]
      dsimp only
      rw [if_neg hthere, if_neg hstays]
      exact hends
    · cases record with
      | none =>
        rw [hworld]
        exact ⟨hrecord, fun _ _ => rfl, rfl, rfl⟩
      | some a =>
        have hid := hfiled r.id a hrecord
        have hentered : d.state.world = s.world.update a.id (a.ending status) := hworld
        rw [hentered, hup.update _ (hid ▸ hrecord), ← hid, Option.bind_some,
          Attachment.outcome_of_stays hgone]
        exact s.world.replaces_enter a.id ((a.ending status).apply a)

/-! ### A look through the records -/

/-- **An errand of a look through the records** that makes no request for one attachment. -/
def Spares (id : Int) : Errand → Prop
  | review a => a.id ≠ id
  | refuse _ | ring | answer _ => True
  | _ => False

variable {id : Int}

/-- The errands that follow spare the attachment, too. -/
theorem Spares.next (h : e.Spares id) : ∀ x ∈ (e.perform setup s).next, x.Spares id := by
  cases e with
  | review a =>
    unfold perform doReview
    dsimp only
    split
    all_goals simp [Spares]
  | refuse a => simp [perform, doRefuse, Spares]
  | ring | answer _ => simp [perform]
  | _ => exact h.elim

/-- Nobody joins the queue for the attachment. -/
theorem Spares.waiting (h : e.Spares id) (hnone : s.scheduler.queue.contains id = false) :
    (e.perform setup s).state.scheduler.queue.contains id = false := by
  rw [Queue.contains_eq_false_iff] at hnone ⊢
  cases e with
  | review a =>
    unfold perform doReview
    dsimp only
    split
    · rw [State.ring_queue, Queue.get?_drop, if_neg (Ne.symm h)]
      exact hnone
    · exact hnone
    · exact hnone
    · rw [State.ring_queue, Queue.get?_push, if_neg fun hid => h hid.1.symm]
      exact hnone
  | refuse _ | ring | answer _ =>
    rw [(perform_frame setup s _).queue rfl]
    exact hnone
  | _ => exact h.elim

/-- What is reviewed is pending, so a look through the records spares an attachment without a
pending record. -/
theorem spares_sweep (hfiled : s.world.records.Filed)
    (hdone : ∀ a, s.world.records.attachments.get? id = some a → a.isPending = false) :
    ∀ x ∈ (doSweep s).next, x.Spares id := by
  unfold doSweep
  split
  · simp [Spares]
  next found hfound =>
    intro x hx
    rcases List.mem_append.mp hx with hx | hx
    · obtain ⟨a, ha, rfl⟩ := List.mem_map.mp hx
      unfold World.pending at hfound
      split_ifs at hfound
      rw [← Except.ok.inj hfound] at ha
      obtain ⟨hmem, hpending⟩ := List.mem_filter.mp ha
      obtain ⟨j, hj⟩ := Table.mem_values.mp hmem
      rintro rfl
      rw [← hfiled j a hj] at hj
      rw [hdone a hj] at hpending
      cases hpending
    · rw [List.mem_singleton.mp hx]
      trivial

end Errand

namespace Desk

variable {setup : Setup} {d d' : Desk} {id : Int}

/-- **Nobody waits for an attachment**, and the errands that are left spare it. -/
def Spares (id : Int) (d : Desk) : Prop :=
  d.state.scheduler.queue.contains id = false ∧ ∀ e ∈ d.task, e.Spares id

theorem spares_turn (hd : d.Spares id) (h : d.move setup .turn = some d') : d'.Spares id := by
  obtain ⟨e, rest, ht, rfl⟩ := move_turn h
  have he := hd.2 e (by rw [ht]; exact List.mem_cons_self)
  refine ⟨he.waiting hd.1, fun x hx => ?_⟩
  rcases Turn.mem_left hx with hx | hx
  · exact he.next x hx
  · exact hd.2 x (by rw [ht]; exact .tail _ hx)

theorem spares_turns (hd : d.Spares id) {turns : Nat}
    (h : d.run setup (List.replicate turns .turn) = some d') : d'.Spares id := by
  induction turns generalizing d with
  | zero =>
    obtain rfl := Option.some.inj h
    exact hd
  | succ n ih =>
    obtain ⟨u, hturn, hrest⟩ := follow_cons_eq_some h
    exact ih (spares_turn hd hturn) hrest

/-- **Reviews come to an end**, one record after the other. -/
theorem finishes_reviews (setup : Setup) (s : State) (found : List Attachment) (a : Answer) :
    ∃ d, Finishes setup ⟨s, found.map .review ++ [.answer a]⟩ d := by
  induction found generalizing s with
  | nil => exact ⟨_, finishes_cons rfl (finishes_nil setup _)⟩
  | cons b rest ih =>
    have hturn : ((Errand.review b).perform setup s).next = [] ∨
        ((Errand.review b).perform setup s).next = [.refuse b] := by
      unfold Errand.perform Errand.doReview
      dsimp only
      split
      · exact .inl rfl
      · exact .inl rfl
      · exact .inr rfl
      · exact .inl rfl
    rcases hturn with hnext | hnext
    · obtain ⟨d, hends⟩ := ih ((Errand.review b).perform setup s).state
      refine ⟨d, finishes_cons rfl ?_⟩
      rw [hnext]
      exact hends
    · obtain ⟨d, hends⟩ :=
        ih (Errand.doRefuse ((Errand.review b).perform setup s).state b).state.ring
      refine ⟨d, finishes_cons rfl ?_⟩
      rw [hnext]
      exact finishes_cons rfl (finishes_cons rfl hends)

/-- **A look through the records makes no request** for an attachment whose record is not pending,
and comes to its end. -/
theorem sweep_spares (setup : Setup) {s : State} (hfiled : s.world.records.Filed)
    (hnone : s.scheduler.queue.contains id = false)
    (hdone : ∀ a, s.world.records.attachments.get? id = some a → a.isPending = false) :
    (∃ d, Finishes setup ⟨s, [.sweep]⟩ d) ∧
      ∀ turns d, Desk.run setup ⟨s, [.sweep]⟩ (List.replicate turns .turn) = some d →
        d.state.scheduler.queue.contains id = false := by
  have hspares := Errand.spares_sweep hfiled hdone
  refine ⟨?_, fun turns d hrun => ?_⟩
  · have hnext : ∃ (found : List Attachment) (a : Answer),
        (Errand.doSweep s).next = found.map .review ++ [.answer a] := by
      unfold Errand.doSweep
      split
      · exact ⟨[], _, rfl⟩
      · exact ⟨_, _, rfl⟩
    obtain ⟨found, a, hfound⟩ := hnext
    obtain ⟨d, hends⟩ := finishes_reviews setup (Errand.doSweep s).state found a
    refine ⟨d, finishes_cons rfl ?_⟩
    rw [Errand.perform, hfound, List.append_nil]
    exact hends
  · cases turns with
    | zero =>
      obtain rfl := Option.some.inj hrun
      exact hnone
    | succ n =>
      obtain ⟨u, hturn, hrest⟩ := follow_cons_eq_some hrun
      obtain ⟨e, rest, ht, rfl⟩ := move_turn hturn
      obtain ⟨rfl, rfl⟩ := List.cons.inj ht
      refine (spares_turns ⟨?_, fun x hx => ?_⟩ hrest).1
      · rw [(Errand.perform_frame setup s .sweep).queue rfl]
        exact hnone
      · rcases Turn.mem_left hx with hx | hx
        · exact hspares x hx
        · cases hx

end Desk

/-! ### The whole report -/

/-- **What a report about the end of a transfer makes of a state**: its request is in neither book,
its record, if there was one, is what `Attachment.outcome` says, and all other records and requests
are as they were. -/
structure State.Resolved (status : Status) (id : Int) (s s' : State) : Prop where
  unbooked : s'.Unbooked id
  record : s.world.Replaces s'.world id
    ((s.world.records.attachments.get? id).bind (·.outcome status))
  waiting : ∀ j, j ≠ id → s'.scheduler.queue.index.get? j = s.scheduler.queue.index.get? j
  flying : ∀ j, j ≠ id → s'.scheduler.flights.get? j = s.scheduler.flights.get? j

namespace Errand

variable {setup : Setup} {s : State}

/-- A transfer that ends for good is taken out of both books, and its record is looked up. -/
theorem settle_for_good {status : Status} {r : Request} (setup : Setup) (s : State)
    (hr : s.scheduler.flights.get? r.id = some r) (hlost : status ≠ .connectionError) :
    (doSettle setup s r.id status).next = [conclude r.land status] ∧
      (doSettle setup s r.id status).state.world = s.world ∧
      (doSettle setup s r.id status).state.scheduler.queue = s.scheduler.queue.drop r.id ∧
      (doSettle setup s r.id status).state.scheduler.flights = s.scheduler.flights.erase r.id := by
  unfold doSettle
  rw [hr]
  dsimp only
  rw [if_neg hlost]
  exact ⟨rfl, rfl, rfl, rfl⟩

/-- **A report takes its request out of both books**, before it comes to the record. -/
theorem finishes_hear (setup : Setup) {report : Report} {r : Request}
    (hfiled : s.scheduler.flights.Filed)
    (hr : s.scheduler.flights.get? report.id = some r)
    (hends : report.status.isTerminal = true) (hlost : report.status ≠ .connectionError) :
    ∃ s' x, x.id = report.id ∧ x.message = r.message ∧ s'.world = s.world ∧
      (∀ j, s'.scheduler.queue.index.get? j =
        if j = report.id then none else s.scheduler.queue.index.get? j) ∧
      (∀ j, s'.scheduler.flights.get? j =
        if j = report.id then none else s.scheduler.flights.get? j) ∧
      ∀ d, Desk.Finishes setup ⟨s', [conclude x report.status]⟩ d →
        Desk.Finishes setup ⟨s, [hear report]⟩ d := by
  generalize hheard : r.heard s.world.now report.status report.percent = x
  have hx : report.id = x.id := by rw [← hheard, Request.id_heard, hfiled report.id r hr]
  have hmessage : x.message = r.message := by
    rw [← hheard]
    unfold Request.heard
    dsimp only
    rw [if_pos hends]
  let t : State :=
    { s with scheduler := { s.scheduler with flights := s.scheduler.flights.insert x } }
  have hhear : doHear s report = { state := t, next := [settle x.id report.status] } := by
    rw [doHear, hr, ← hx]
    dsimp only
    rw [if_pos hends, hheard]
  obtain ⟨hnext, hworld, hqueue, hflights⟩ := settle_for_good setup t (r := x)
    (by rw [Flights.get?_insert, if_pos rfl]) hlost
  rw [hx]
  refine ⟨(doSettle setup t x.id report.status).state, x.land, rfl, hmessage, hworld, fun j => ?_,
    fun j => ?_, fun d hd => Desk.finishes_cons rfl ?_⟩
  · rw [hqueue, Queue.get?_drop]
  · rw [hflights, Flights.get?_erase, Flights.get?_insert]
    split_ifs <;> rfl
  · rw [perform, hhear]
    refine Desk.finishes_cons rfl ?_
    rw [perform, hnext]
    exact hd

end Errand

namespace Crew

variable {setup : Setup} {c : Crew}

/-- **A report that ends a transfer for good** settles what becomes of its record. In every state
that a run can reach, however its tasks are interleaved, while no call to the store fails and its
records are filed under their own numbers: a terminal report on a request in flight that is neither
about a connection nor about a message that is there after all comes to its end, and

* it leaves of the books and the records what `State.Resolved` says;
* a look through the records right afterwards comes to its end, and all along it nobody waits for
  the attachment. -/
theorem outcome_of_report (setup : Setup) (w : World) (moves : List CrewMove) (report : Report)
    (r : Request) (hrun : (fresh w).run setup moves = some c) (hup : c.state.world.StoreUp)
    (hfiled : c.state.world.records.Filed)
    (hr : c.state.scheduler.flights.get? report.id = some r)
    (hends : report.status.isTerminal = true) (hlost : report.status ≠ .connectionError)
    (hparent : report.status = .messageNotFound →
      c.state.world.records.messages.get? r.message = none) :
    ∃ d, Desk.Finishes setup ⟨c.state, [.hear report]⟩ d ∧
      c.state.Resolved report.status report.id d.state ∧
      (∃ d', Desk.Finishes setup ⟨d.state, [.sweep]⟩ d') ∧
      ∀ turns d', Desk.run setup ⟨d.state, [.sweep]⟩ (List.replicate turns .turn) = some d' →
        d'.state.scheduler.queue.contains report.id = false := by
  obtain ⟨s, x, hid, hmessage, hworld, hqueue, hflights, hcall⟩ :=
    Errand.finishes_hear setup (legible_run hrun).filed hr hends hlost
  have hup' : s.world.StoreUp := hworld ▸ hup
  have hfiled' : s.world.records.Filed := hworld ▸ hfiled
  obtain ⟨d, hconcluded, hbooks, hrecord⟩ := Errand.finishes_conclude setup hup' hfiled'
    (by rw [hworld, hmessage]; exact hparent)
  rw [hworld, hid] at hrecord
  have hunbooked : d.state.Unbooked report.id := by
    rw [State.Unbooked, Queue.contains_eq_false_iff, Flights.contains_eq_false_iff, hbooks.1,
      hbooks.2, hqueue, hflights, if_pos rfl, if_pos rfl]
    exact ⟨rfl, rfl⟩
  have hresolved : c.state.Resolved report.status report.id d.state :=
    ⟨hunbooked, hrecord, fun j hj => by rw [hbooks.1, hqueue, if_neg hj],
      fun j hj => by rw [hbooks.2, hflights, if_neg hj]⟩
  -- The record that is left is not pending, and the others are filed under their own numbers.
  have hdone : ∀ a, d.state.world.records.attachments.get? report.id = some a →
      a.isPending = false := by
    intro a ha
    rw [hrecord.self] at ha
    obtain ⟨b, -, hb⟩ := Option.bind_eq_some_iff.mp ha
    exact Attachment.isPending_of_outcome hb
  have hstillFiled : d.state.world.records.Filed := by
    intro j a ha
    by_cases hj : j = report.id
    · rw [hj, hrecord.self] at ha
      obtain ⟨b, hb, houtcome⟩ := Option.bind_eq_some_iff.mp ha
      rw [Attachment.id_of_outcome houtcome, hfiled _ b hb, hj]
    · rw [hrecord.others j hj] at ha
      exact hfiled j a ha
  exact ⟨d, hcall d hconcluded, hresolved,
    Desk.sweep_spares setup hstillFiled hunbooked.1 hdone⟩

/-- Neither of two attachments is found: the forwarded one loses its record, and the other one is
failed and no longer asked for. -/
theorem outcome_of_report_not_found :
    ∃ c d₁ d₂, (fresh mixedWorld).run twoAtOnce bothHandedOver = some c ∧
      Desk.Finishes twoAtOnce ⟨c.state, [.hear ⟨10, 1, .attachmentNotFound, 0⟩]⟩ d₁ ∧
      d₁.state.Unbooked 1 ∧ d₁.state.world.records.attachments.get? 1 = none ∧
      Desk.Finishes twoAtOnce ⟨c.state, [.hear ⟨10, 2, .attachmentNotFound, 0⟩]⟩ d₂ ∧
      d₂.state.Unbooked 2 ∧ d₂.state.world.records.attachments.get? 2 =
        some { id := 2, message := 10, account := 1, flags := .none, phase := .failed } := by
  obtain ⟨d₁, hends₁, hresolved₁, -⟩ := outcome_of_report twoAtOnce mixedWorld bothHandedOver
    ⟨10, 1, .attachmentNotFound, 0⟩ _ rfl (List.forall_mem_nil _) (Records.filed_ofSeed _) rfl rfl
    nofun nofun
  obtain ⟨d₂, hends₂, hresolved₂, -⟩ := outcome_of_report twoAtOnce mixedWorld bothHandedOver
    ⟨10, 2, .attachmentNotFound, 0⟩ _ rfl (List.forall_mem_nil _) (Records.filed_ofSeed _) rfl rfl
    nofun nofun
  exact ⟨_, d₁, d₂, rfl, hends₁, hresolved₁.unbooked, hresolved₁.record.self, hends₂,
    hresolved₂.unbooked, hresolved₂.record.self⟩

end Crew

end MailFetch

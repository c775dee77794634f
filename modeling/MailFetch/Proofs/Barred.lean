import MailFetch.Proofs.GivingUp

/-! # Records that are barred

A record that carries the bar is never chosen unasked, since such a choice is made among records
that carry no flag, and a review of it makes no request. So while the record of an attachment is
barred, a request for it can only come from what was there before: from a request, from an errand
that has read the record without the bar, or from a report without the bar that is still to be
applied.

* `State.Shut`: nothing of the first two kinds is there. `Errand.shut_perform`: this stays so, but
  for a review of the record without the bar.
* `Errand.announces_perform`: such a review comes from a report without the bar, as long as the
  record is barred. -/

namespace MailFetch

/-! ### The bar -/

namespace Flags

variable {f : Flags}

/-- The end of a download leaves the bar as it is. -/
theorem contains_barred_without_pending (f : Flags) :
    (f.without .pending).contains .barred = f.contains .barred := by
  have hapart : ~~~Flags.pending.bits &&& Flags.barred.bits = Flags.barred.bits := by decide
  unfold contains without
  rw [BitVec.and_assoc, hapart]

theorem contains_barred_of_isEmpty (h : f.isEmpty = true) : f.contains .barred = false := by
  have hbits : f.bits = 0 := by simpa [isEmpty] using h
  unfold contains
  rw [hbits]
  decide

/-- The policy is asked about barred records. -/
theorem callForPolicy_of_barred (h : f.contains .barred = true) : f.callForPolicy = true := by
  have hbits : f.bits &&& Flags.barred.bits = Flags.barred.bits := by simpa [contains] using h
  have hwithin :
      (Flags.requested.union .barred).bits &&& Flags.barred.bits = Flags.barred.bits := by decide
  unfold callForPolicy intersects
  rw [bne_iff_ne]
  intro hnone
  -- Within the two flags that call for the policy, the bar would be missing.
  have hzero : Flags.barred.bits = 0 := by
    rw [← hbits, ← hwithin, ← BitVec.and_assoc, hnone]
    decide
  revert hzero
  decide

end Flags

theorem Priority.ofFlags_of_requested {f : Flags} (h : f.contains .requested = true) :
    ∃ p, ofFlags f = some p := by
  unfold ofFlags
  split_ifs <;> exact ⟨_, rfl⟩

namespace Scheduler

variable {s : Scheduler} {policy : Policy} {a : Attachment}

/-- **No request is made by a review of a barred record.** -/
theorem verdict_ne_wanted (h : a.flags.contains .barred = true) (p : Priority) :
    s.verdict policy a ≠ .wanted p := by
  intro hwanted
  unfold verdict at hwanted
  split at hwanted
  · cases hwanted
  · rw [Flags.callForPolicy_of_barred h, policy.allows_eq_false_of_barred h] at hwanted
    split_ifs at hwanted with hknown hpolicy
    exact hpolicy rfl

/-- What a user asks for is refused if it is barred, unless there is a request already. -/
theorem verdict_of_barred (h : a.flags.contains .barred = true)
    (hasked : a.flags.contains .requested = true) (hqueue : s.queue.contains a.id = false)
    (hground : s.flights.contains a.id = false) : s.verdict policy a = .forbidden := by
  obtain ⟨p, hp⟩ := Priority.ofFlags_of_requested hasked
  simp [verdict, hp, hqueue, hground, Flags.callForPolicy_of_barred h,
    policy.allows_eq_false_of_barred h]

end Scheduler

/-- **A reading of an attachment's record without the bar.** -/
def Attachment.Unbarred (a : Attachment) (id : Int) : Prop :=
  a.id = id ∧ a.flags.contains .barred = false

/-! ### Barred records -/

/-- Attachment records are filed under their own numbers. -/
def Records.Filed (s : Records) : Prop := ∀ j a, s.attachments.get? j = some a → a.id = j

namespace Records

variable {s : Records}

theorem Filed.insert (h : s.Filed) {j : Int} {a : Attachment} (ha : a.id = j) :
    Filed { s with attachments := s.attachments.insert j a } := by
  intro k b hb
  dsimp only at hb
  rw [Table.get?_insert] at hb
  split_ifs at hb with hk
  · rw [← Option.some.inj hb, ha, hk]
  · exact h k b hb

theorem Filed.mem_values (h : s.Filed) {a : Attachment} :
    a ∈ s.attachments.values ↔ s.attachments.get? a.id = some a := by
  rw [Table.mem_values]
  constructor
  · rintro ⟨j, hj⟩
    rw [h j a hj]
    exact hj
  · exact fun ha => ⟨a.id, ha⟩

theorem Filed.pairwise_values (h : s.Filed) :
    s.attachments.values.Pairwise fun a b => a.id < b.id := by
  refine List.pairwise_map.mpr (s.attachments.ascending.imp_of_mem fun {x y} hx hy hlt => ?_)
  rw [h _ _ (Table.get?_eq_some_iff.mpr hx), h _ _ (Table.get?_eq_some_iff.mpr hy)]
  exact hlt

/-- The records that a seed describes are filed under their own numbers. -/
theorem filed_ofSeed (seed : Seed) : (ofSeed seed).Filed := by
  suffices h : ∀ (l : List Attachment) (t : Table Attachment),
      (∀ j a, t.get? j = some a → a.id = j) → ∀ j a,
        ((l.map fun a => (a.id, a)).foldl (fun t e => t.insert e.1 e.2) t).get? j = some a →
          a.id = j from
    h seed.attachments .empty fun j a ha => by cases ha
  intro l
  induction l with
  | nil => exact fun t ht => ht
  | cons b rest ih =>
    intro t ht
    refine ih (t.insert b.id b) fun j a ha => ?_
    rw [Table.get?_insert] at ha
    split_ifs at ha with hj
    · rw [hj, Option.some.inj ha]
    · exact ht j a ha

end Records

namespace World

/-- The world with a record entered under a number. -/
def enter (w : World) (j : Int) (a : Attachment) : World :=
  { w with records := { w.records with attachments := w.records.attachments.insert j a } }

variable {w : World} {id j : Int} {u : Update} {a : Attachment}

theorem get?_enter (w : World) (j : Int) (a : Attachment) (id : Int) :
    (w.enter j a).records.attachments.get? id =
      if id = j then some a else w.records.attachments.get? id := Table.get?_insert ..

/-- **What an update does**: nothing, or it changes the record if there is one. -/
theorem update_cases (w : World) (j : Int) (u : Update) :
    w.update j u = w ∨ ∃ a, w.records.attachments.get? j = some a ∧
      w.update j u = w.enter j (u.apply a) := by
  unfold update Records.update
  split_ifs
  · exact .inl rfl
  · cases ha : w.records.attachments.get? j with
    | none => exact .inl rfl
    | some a => exact .inr ⟨a, rfl, rfl⟩

/-- **An update that goes through** is applied to the record that is there. -/
theorem update_of_get? (hpasses : w.fails .updateAttachment j = false) (u : Update)
    (ha : w.records.attachments.get? j = some a) : w.update j u = w.enter j (u.apply a) := by
  unfold update Records.update
  rw [if_neg (by rw [hpasses]; decide), ha]
  rfl

theorem filed_update (h : w.records.Filed) (j : Int) (u : Update) :
    (w.update j u).records.Filed := by
  rcases w.update_cases j u with hsame | ⟨a, ha, hworld⟩
  · rw [hsame]
    exact h
  · rw [hworld]
    exact h.insert (h j a ha)

/-- A record after an update was there before, as it is or before the update was applied. -/
theorem get?_of_update (h : (w.update j u).records.attachments.get? id = some a) :
    w.records.attachments.get? id = some a ∨
      j = id ∧ ∃ a₀, w.records.attachments.get? id = some a₀ ∧ a = u.apply a₀ := by
  rcases w.update_cases j u with hsame | ⟨a₀, ha₀, hworld⟩
  · exact .inl (hsame ▸ h)
  · rw [hworld, get?_enter] at h
    split_ifs at h with hid
    · subst hid
      exact .inr ⟨rfl, a₀, ha₀, (Option.some.inj h).symm⟩
    · exact .inl h

/-- A record after a deletion was there before. -/
theorem get?_of_delete (h : (w.delete j).2.records.attachments.get? id = some a) :
    w.records.attachments.get? id = some a := by
  unfold delete at h
  split_ifs at h
  · exact h
  · dsimp only [Records.eraseAttachment] at h
    rw [Table.get?_erase] at h
    split_ifs at h
    exact h

theorem filed_delete (h : w.records.Filed) (j : Int) : (w.delete j).2.records.Filed :=
  fun k a ha => h k a (get?_of_delete ha)

end World

/-- **The record of an attachment is barred**, if there is one. -/
structure World.Bars (w : World) (id : Int) : Prop where
  filed : w.records.Filed
  barred : ∀ a, w.records.attachments.get? id = some a → a.flags.contains .barred = true

namespace World.Bars

variable {w : World} {id j : Int} {u : Update} {a : Attachment}

/-- No record of the attachment is without the bar. -/
theorem not_unbarred (h : w.Bars id) (ha : w.records.attachments.get? j = some a) :
    ¬ a.Unbarred id := by
  rintro ⟨hid, hbar⟩
  obtain rfl : j = id := (h.filed j a ha).symm.trans hid
  rw [h.barred a ha] at hbar
  cases hbar

theorem not_unbarred_of_attachment (h : w.Bars id) (ha : w.attachment j = .ok (some a)) :
    ¬ a.Unbarred id := by
  unfold World.attachment at ha
  split_ifs at ha
  exact h.not_unbarred (Except.ok.inj ha)

theorem not_unbarred_of_mem_values (h : w.Bars id) (ha : a ∈ w.records.attachments.values) :
    ¬ a.Unbarred id := by
  obtain ⟨j, hj⟩ := Table.mem_values.mp ha
  exact h.not_unbarred hj

/-- **Whoever is chosen unasked is not barred.** -/
theorem ne_of_newest (h : w.Bars id) {limit : Nat} {found : List Attachment}
    (hfound : w.newest limit = .ok found) (ha : a ∈ found) : a.id ≠ id := by
  intro hid
  unfold World.newest at hfound
  split_ifs at hfound
  rw [← Except.ok.inj hfound] at ha
  have hmem := List.mem_filter.mp (List.mem_of_mem_take ha)
  simp only [List.mem_reverse, Bool.and_eq_true] at hmem
  exact h.not_unbarred_of_mem_values hmem.1 ⟨hid, Flags.contains_barred_of_isEmpty hmem.2.2⟩

/-- An update keeps the bar unless it takes it away. -/
theorem update (h : w.Bars id)
    (hu : ∀ f, j = id → u.flags = some f → f.contains .barred = true) :
    (w.update j u).Bars id := by
  refine ⟨filed_update h.filed j u, fun a ha => ?_⟩
  rcases get?_of_update ha with hbefore | ⟨hid, a₀, ha₀, rfl⟩
  · exact h.barred a hbefore
  · cases hf : u.flags with
    | none =>
      simp only [Update.apply, hf, Option.getD_none]
      exact h.barred a₀ ha₀
    | some f =>
      simp only [Update.apply, hf, Option.getD_some]
      exact hu f hid hf

theorem delete (h : w.Bars id) : (w.delete j).2.Bars id :=
  ⟨filed_delete h.filed j, fun a ha => h.barred a (get?_of_delete ha)⟩

end World.Bars

/-- **A world takes updates of an attachment's record.** -/
structure World.Takes (w : World) (id : Int) : Prop where
  filed : w.records.Filed
  recorded : ∃ a, w.records.attachments.get? id = some a
  works : w.fails .updateAttachment id = false

/-- A record is barred after an update that bars it. -/
theorem World.Takes.bars {w : World} {id : Int} {u : Update} {f : Flags} (h : w.Takes id)
    (hu : u.flags = some f) (hf : f.contains .barred = true) : (w.update id u).Bars id := by
  obtain ⟨a, ha⟩ := h.recorded
  have hworld : w.update id u = w.enter id (u.apply a) := by
    simp [World.update, Records.update, World.enter, h.works, ha]
  rw [hworld]
  refine ⟨h.filed.insert (h.filed id a ha), fun b hb => ?_⟩
  rw [World.get?_enter, if_pos rfl] at hb
  rw [← Option.some.inj hb]
  simp only [Update.apply, hu, Option.getD_some]
  exact hf

/-! ### Errands that open the way -/

/-- The records among which a round still chooses that asks about a budget. -/
def Asker.candidates : Asker → List Attachment
  | caller => []
  | round a rest => a :: rest

namespace Errand

variable {setup : Setup} {s : State} {e : Errand} {id : Int}

/-- The records from which an errand may claim one. -/
def candidates : Errand → List Attachment
  | consider found => found
  | vet a rest | claim a rest => a :: rest
  | budget _ asker | share _ _ asker => asker.candidates
  | _ => []

/-- The reading of a record with whose flags an errand may update it. -/
def reading : Errand → Option Attachment
  | refuse a => some a
  | askParent _ record | expunge _ _ record | close _ record _ => record
  | _ => none

/-- **An errand opens the way** to a transfer of a barred attachment: it may claim its record, or
take the bar away. -/
def Opens (id : Int) (e : Errand) : Prop :=
  (∃ a ∈ e.candidates, a.id = id) ∨ (∃ a, e.reading = some a ∧ a.Unbarred id) ∨
    ∃ u f, e = write id u ∧ u.flags = some f ∧ f.contains .barred = false

/-- **An errand lifts the bar**: it reviews the record without it. -/
def Lifts (id : Int) : Errand → Prop
  | review a => a.Unbarred id
  | _ => False

/-- **An errand is on the way to lifting the bar.** -/
def Announces (id : Int) : Errand → Prop
  | review a => a.Unbarred id
  | applyNotice j flags => j = id ∧ flags.contains .barred = false
  | _ => False

theorem not_opens_of_isFirst (h : Operation.isFirst e = true) : ¬ e.Opens id := by
  cases e with
  | budget account asker =>
    cases asker with
    | caller => simp [Opens, candidates, Asker.candidates, reading]
    | round a rest => cases h
  | _ => first | (cases h; done) | simp [Opens, candidates, reading]

theorem not_opens_of_isStart (h : e.isStart = true) : ¬ e.Opens id := by
  cases e <;> first | (cases h; done) | simp [Opens, candidates, reading]

theorem not_announces_of_isStart (h : e.isStart = true) : ¬ e.Announces id := by
  cases e <;> first | (cases h; done) | exact fun hannounces => hannounces

/-- **The way stays shut**: while the record is barred, no errand opens the way but after one that
did. -/
theorem opens_perform (hbars : s.world.Bars id) (hshut : ¬ e.Opens id) (hlifts : ¬ e.Lifts id) :
    ∀ x ∈ (e.perform setup s).next, ¬ x.Opens id := by
  intro x hx hopens
  have hl := perform_leads setup s e
  cases e with
  | browse =>
    rw [perform, doBrowse] at hx
    split at hx
    · cases hx
    next found hfound =>
      rw [List.mem_singleton.mp hx] at hopens
      rcases hopens with ⟨a, ha, hid⟩ | ⟨a, ha, -⟩ | ⟨u, f, hu, -⟩
      · exact hbars.ne_of_newest hfound ha hid
      · cases ha
      · cases hu
  | conclude r status =>
    rw [perform, doConclude] at hx
    split at hx
    · cases hx
    next record hrecord =>
      have hbarred : ∀ a, record = some a → ¬ a.Unbarred id := by
        rintro a rfl
        exact hbars.not_unbarred_of_attachment hrecord
      split_ifs at hx <;> rw [List.mem_singleton.mp hx] at hopens <;>
        rcases hopens with ⟨a, ha, -⟩ | ⟨a, ha, hun⟩ | ⟨u, f, hu, -⟩ <;>
          first | exact hbarred a ha hun | cases ha | cases hu
  | _ =>
    -- The other errands hand on what they have read.
    grind [Leads, LeadsOn, Opens, candidates, Asker.candidates, reading, Lifts, Update.progress]

/-- Whoever is on the way to lifting the bar comes from there: the records do not tell of it. -/
theorem announces_perform (hbars : s.world.Bars id) (hquiet : ¬ e.Announces id)
    (hnotices : e = listen → ∀ flags, .changed id flags ∈ s.scheduler.notices →
      flags.contains .barred = true) :
    ∀ x ∈ (e.perform setup s).next, ¬ x.Announces id := by
  intro x hx hannounces
  have hl := perform_leads setup s e
  cases e with
  | sweep =>
    rw [perform, doSweep] at hx
    split at hx
    · rw [List.mem_singleton.mp hx] at hannounces
      exact hannounces
    next found hfound =>
      rcases List.mem_append.mp hx with hx | hx
      · obtain ⟨a, ha, rfl⟩ := List.mem_map.mp hx
        unfold World.pending at hfound
        split_ifs at hfound
        rw [← Except.ok.inj hfound] at ha
        exact hbars.not_unbarred_of_mem_values (List.mem_filter.mp ha).1 hannounces
      · rw [List.mem_singleton.mp hx] at hannounces
        exact hannounces
  | applyNotice j flags =>
    rw [perform, doApplyNotice] at hx
    split_ifs at hx
    · cases hx
    · split at hx
      next a ha =>
        rw [List.mem_singleton.mp hx] at hannounces
        unfold World.attachment at ha
        split_ifs at ha
        exact hquiet ⟨(hbars.filed j a (Except.ok.inj ha)).symm.trans hannounces.1, hannounces.2⟩
      · cases hx
  | listen =>
    rw [perform, doListen] at hx
    split at hx
    · rw [List.mem_singleton.mp hx] at hannounces
      exact hannounces
    next n rest hnotice =>
      cases n with
      | changed j flags =>
        rcases List.mem_cons.mp hx with rfl | hx
        · obtain ⟨rfl, hbar⟩ := hannounces
          rw [hnotices rfl flags (by rw [hnotice]; exact List.mem_cons_self)] at hbar
          cases hbar
        · rw [List.mem_singleton.mp hx] at hannounces
          exact hannounces
      | shutDown => cases hx
  | _ =>
    -- The other errands lead to no review.
    grind [Leads, LeadsOn, Announces]

/-- No errand takes the bar from the record unless it opens the way. -/
theorem bars_perform (hbars : s.world.Bars id) (hshut : ¬ e.Opens id) :
    (e.perform setup s).state.world.Bars id := by
  rcases perform_world setup s e with ⟨carrier, hw⟩ | ⟨j, u, hu, hw⟩ | ⟨j, hw⟩ <;> rw [hw]
  · exact ⟨hbars.filed, hbars.barred⟩
  · refine hbars.update fun f hid hf => ?_
    by_contra hbar
    rw [Bool.not_eq_true] at hbar
    refine hshut ?_
    have hfinished : ∀ (a : Attachment) phase, (Update.finished a.flags phase).flags = some f →
        a.flags.contains .barred = false := by
      intro a phase hflags
      rw [← Option.some.inj hflags, Flags.contains_barred_without_pending] at hbar
      exact hbar
    cases e with
    | refuse a =>
      obtain ⟨rfl, rfl⟩ := hu
      exact .inr (.inl ⟨a, rfl, hid, hfinished a _ hf⟩)
    | write k v =>
      obtain ⟨rfl, rfl⟩ := hu
      exact .inr (.inr ⟨u, f, by rw [hid], hf, hbar⟩)
    | close status record deleted =>
      cases record with
      | none => exact hu.elim
      | some a =>
        cases deleted with
        | true => exact hu.elim
        | false =>
          obtain ⟨rfl, rfl | rfl⟩ := hu
          · exact .inr (.inl ⟨a, rfl, hid, hfinished a .saved hf⟩)
          · exact .inr (.inl ⟨a, rfl, hid, hfinished a .failed hf⟩)
    | _ => exact hu.elim
  · exact hbars.delete

/-- No errand but the worker's touches the notices. -/
theorem perform_notices (h : e ≠ listen) :
    (e.perform setup s).state.scheduler.notices = s.scheduler.notices := by
  cases e with
  | listen => exact absurd rfl h
  | landed r accepted onward =>
    rw [perform]
    unfold doLanded
    split_ifs
    · rfl
    · simp only [State.arm, Scheduler.arm, State.breakOff_scheduler]
      rw [Scheduler.breakOff_eq]
  | settle id status =>
    rw [perform, doSettle]
    split
    · rfl
    · dsimp only
      have hother := Scheduler.retryAfterError_eq
      split_ifs
      · split <;>
        · simp only [State.ring, Scheduler.ring, State.arm, Scheduler.arm, State.abandon_scheduler]
          rw [hother]
      · rfl
  | askParent r record =>
    rw [perform, doAskParent]
    split
    · simp only [State.ring, Scheduler.ring, State.requeue_scheduler]
      rw [Scheduler.requeue_eq]
    · rfl
    · rfl
  | tick timeout =>
    rw [perform, doTick]
    split_ifs
    · rfl
    · dsimp only
      split_ifs <;> simp only [State.ring, Scheduler.ring, State.abandon_scheduler] <;>
        rw [Scheduler.breakOffAll_eq]
  | _ =>
    simp only [perform, doReview, doRefuse, doSweep, doApplyNotice, doBeginRound, doTakeNext,
      doScreen, doHandOver, doPutBack, doLookAhead, doBrowse, doConsider, doVet, doDiscard,
      doBudget, doShare, doClaim, doEndRound, doHear, doRecordProgress, doConclude, doExpunge,
      doClose, doSendIfComplete, doSendMail, doRearm, doLoop, listenFor, endWait, doPause, doFetch]
    repeat' split
    all_goals rfl

/-- Notices are taken by the worker, and no errand adds one. -/
theorem mem_notices_of_perform {n : Notice} (h : n ∈ (e.perform setup s).state.scheduler.notices) :
    n ∈ s.scheduler.notices := by
  by_cases hlisten : e = listen
  · subst hlisten
    rw [perform, doListen] at h
    split at h
    · exact h
    next first rest hnotices =>
      rw [hnotices]
      cases first <;> exact .tail _ h
  · rwa [perform_notices hlisten] at h

/-- No request is made for the attachment while the way is shut. -/
theorem not_creates (hshut : ¬ e.Opens id) (hlifts : ¬ e.Lifts id) : ¬ e.Creates setup s id := by
  intro hcreates
  cases e with
  | review a =>
    obtain ⟨hid, -, p, hp⟩ := hcreates
    refine Scheduler.verdict_ne_wanted ?_ p hp
    by_contra hbar
    exact hlifts ⟨hid, by simpa using hbar⟩
  | claim a rest => exact hshut (.inl ⟨a, List.mem_cons_self, hcreates.1⟩)
  | _ => exact hcreates

end Errand

/-! ### While the way is shut -/

/-- **The way to a transfer of an attachment is shut**: nothing is to come for it, its record is
barred, and no errand opens the way. -/
structure State.Shut (s : State) (es : List Errand) (id : Int) : Prop where
  idle : ¬ s.Pending es id
  bars : s.world.Bars id
  closed : ∀ e ∈ es, ¬ e.Opens id

/-- **No report without the bar is on its way**, neither among the errands nor among the notices. -/
structure State.Unannounced (s : State) (es : List Errand) (id : Int) : Prop where
  errands : ∀ e ∈ es, ¬ e.Announces id
  notices : ∀ flags, .changed id flags ∈ s.scheduler.notices → flags.contains .barred = true

/-- **An operation reports the attachment without the bar.** -/
def Operation.Lifts (id : Int) : Operation → Prop
  | change a => a.Unbarred id
  | applyNotice j flags | notify j flags => j = id ∧ flags.contains .barred = false
  | _ => False

namespace Operation

variable {s : State} {op : Operation} {e : Errand} {id : Int}

theorem not_announces (hop : ¬ op.Lifts id) (he : e ∈ op.errands s) : ¬ e.Announces id := by
  cases op with
  | change a =>
    rw [List.mem_singleton.mp he]
    exact hop
  | applyNotice j flags =>
    rw [List.mem_singleton.mp he]
    exact hop
  | alarm =>
    obtain ⟨a, -, rfl⟩ : ∃ a, s.scheduler.alarm = some a ∧ Errand.tick a.timeout = e := by
      simpa [errands] using he
    exact fun hannounces => hannounces
  | notify _ _ | ring | stop => cases he
  | _ =>
    rw [List.mem_singleton.mp he]
    exact fun hannounces => hannounces

theorem mem_notices_of_state {n : Notice} (h : n ∈ (op.state s).scheduler.notices) :
    n ∈ s.scheduler.notices ∨ n = .shutDown ∨
      ∃ j flags, op = notify j flags ∧ n = .changed j flags := by
  cases op with
  | notify j flags =>
    unfold state Scheduler.notify State.withScheduler at h
    split_ifs at h
    · exact .inl h
    · rcases List.mem_append.mp h with h | h
      · exact .inl h
      · exact .inr (.inr ⟨j, flags, rfl, List.mem_singleton.mp h⟩)
  | stop =>
    rcases List.mem_append.mp h with h | h
    · exact .inl h
    · exact .inr (.inl (List.mem_singleton.mp h))
  | _ => exact .inl h

end Operation

namespace State

variable {setup : Setup} {s : State} {e : Errand} {es es' : List Errand} {id : Int}

theorem Shut.of_mem (h : s.Shut es id) (hsub : ∀ e ∈ es', e ∈ es ∨ e.isStart = true) :
    s.Shut es' id where
  idle hpending := h.idle (Errand.pending_of_mem hpending fun e he =>
    (hsub e he).imp_right Errand.isIdle_of_isStart)
  bars := h.bars
  closed e he := (hsub e he).elim (h.closed e) Errand.not_opens_of_isStart

theorem Shut.begin (h : s.Shut es id) (op : Operation) :
    (op.state s).Shut (es ++ op.errands s) id where
  idle hpending := h.idle (Operation.pending_begin hpending)
  bars := by
    rw [Operation.state_world]
    exact h.bars
  closed e he := (List.mem_append.mp he).elim (h.closed e) fun he =>
    Errand.not_opens_of_isFirst (Operation.isFirst_of_mem_errands he)

/-- **The way stays shut** after an errand, unless it lifts the bar. -/
theorem Shut.perform (hq : s.scheduler.queue.Matched) (hfiled : s.scheduler.flights.Filed)
    (h : s.Shut (e :: es) id) (hlifts : ¬ e.Lifts id) :
    (e.perform setup s).state.Shut ((e.perform setup s).next ++ es) id := by
  have hclosed := h.closed e List.mem_cons_self
  refine ⟨fun hpending => ?_, Errand.bars_perform h.bars hclosed, fun x hx => ?_⟩
  · exact (Errand.perform_pending hq hfiled hpending).elim h.idle
      (Errand.not_creates hclosed hlifts)
  · rcases List.mem_append.mp hx with hx | hx
    · exact Errand.opens_perform h.bars hclosed hlifts x hx
    · exact h.closed x (.tail _ hx)

theorem Unannounced.of_mem (h : s.Unannounced es id)
    (hsub : ∀ e ∈ es', e ∈ es ∨ e.isStart = true) : s.Unannounced es' id where
  errands e he := (hsub e he).elim (h.errands e) Errand.not_announces_of_isStart
  notices := h.notices

theorem Unannounced.begin (h : s.Unannounced es id) {op : Operation} (hop : ¬ op.Lifts id) :
    (op.state s).Unannounced (es ++ op.errands s) id where
  errands e he := (List.mem_append.mp he).elim (h.errands e) (Operation.not_announces hop)
  notices flags hn := by
    rcases Operation.mem_notices_of_state hn with hold | hstop | ⟨j, f, rfl, hnew⟩
    · exact h.notices flags hold
    · cases hstop
    · obtain ⟨rfl, rfl⟩ := Notice.changed.inj hnew
      by_contra hbar
      exact hop ⟨rfl, by simpa using hbar⟩

theorem Unannounced.perform (hbars : s.world.Bars id) (h : s.Unannounced (e :: es) id) :
    (e.perform setup s).state.Unannounced ((e.perform setup s).next ++ es) id where
  errands x hx := (List.mem_append.mp hx).elim
    (Errand.announces_perform hbars (h.errands e List.mem_cons_self) (fun _ => h.notices) x)
    fun hx => h.errands x (.tail _ hx)
  notices flags hn := h.notices flags (Errand.mem_notices_of_perform hn)

/-- What lifts the bar has been announced. -/
theorem Unannounced.not_lifts (h : s.Unannounced es id) (he : e ∈ es) : ¬ e.Lifts id := by
  intro hlifts
  refine h.errands e he ?_
  cases e with
  | review a => exact hlifts
  | _ => exact hlifts.elim

end State

end MailFetch

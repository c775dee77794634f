import MailFetch.Proofs.OnePlace
import MailFetch.Proofs.PendingMail

/-! # Mail is not sent early

Mail is sent at the end of a call, which has come there by one errand after the other. What a task
has done so far is told by its turns (`Crew.turns`). An errand that goes on with a report follows
from the task's last turn, and so does that turn's errand from the one before it (`Linked`): so the
turns can be walked back from the mail to the report that the call has taken.

* `Errand.of_sendMail` and its fellows, with `Errand.of_recordProgress` and `Errand.of_write`: from
  where each errand of a call follows, and what its turn has found.
* `MailCall`: the turns of a call that comes to send mail.
* `Crew.told_run`: the turns of a task in a run are linked. `Crew.last_turn`: when it had the last.
* `Crew.mail_not_early`: whenever mail is sent, whatever calls to the store fail, a call sends it,
  and each call does so once at most. -/

namespace MailFetch

namespace Errand

variable {setup : Setup} {s : State} {e x : Errand} {l : List Errand}

/-! ### From where the errands of a call follow -/

/-- **Whether an errand goes on with a report** that has been taken. -/
def goesOn : Errand → Bool
  | recordProgress _ _ | write _ _ | settle _ _ | conclude _ _ | askParent _ _ | expunge _ _ _
  | close _ _ _ | sendIfComplete _ | sendMail _ => true
  | _ => false

theorem goesOn_of_isFirst (h : Operation.isFirst e = true) : e.goesOn = false := by
  cases e <;> first | rfl | cases h

theorem goesOn_of_isStart (h : e.isStart = true) : e.goesOn = false := by
  cases e <;> first | rfl | cases h

/-- Only the first one of the errands that follow goes on with a report. -/
theorem Leads.goesOn_tail (hl : e.Leads (x :: l)) : ∀ y ∈ l, y.goesOn = false := by
  cases e <;> grind [Leads, LeadsOn, goesOn]

theorem of_sendMail {a : Int} (h : sendMail a ∈ (e.perform setup s).next) :
    ∃ b, e = sendIfComplete b ∧ b.account = a ∧ s.world.hasUnloaded b.message = .ok false := by
  have hl := perform_leads setup s e
  cases e with
  | sendIfComplete b =>
    rw [perform, doSendIfComplete] at h
    split at h
    next hnone =>
      obtain rfl : a = b.account := by simpa using h
      exact ⟨b, rfl, rfl, hnone⟩
    · simp at h
  | _ => grind [Leads, LeadsOn]

theorem of_sendIfComplete {b : Attachment} (h : sendIfComplete b ∈ (e.perform setup s).next) :
    ∃ status deleted, e = close status (some b) deleted ∧ b.isForwarded = true ∧
      (status = .success ∨ deleted = true) := by
  have hl := perform_leads setup s e
  cases e with
  | close status record deleted =>
    cases record with
    | none => cases h
    | some a =>
      rw [perform, doClose] at h
      dsimp only at h
      split_ifs at h with hsends
      · obtain rfl : b = a := by simpa using h
        simp only [Bool.and_eq_true, Bool.or_eq_true, beq_iff_eq] at hsends
        exact ⟨status, deleted, rfl, hsends⟩
      · simp at h
  | _ => grind [Leads, LeadsOn]

/-- A record is closed when it has been looked up, when the message has been, or when the record has
been deleted. -/
theorem of_close {status : Status} {record : Option Attachment} {deleted : Bool}
    (h : close status record deleted ∈ (e.perform setup s).next) :
    (∃ r, e = conclude r status ∧ deleted = false ∧ s.world.attachment r.id = .ok record) ∨
      (∃ r, e = askParent r record ∧ deleted = false ∧ status = .messageNotFound) ∨
      ∃ id, e = expunge id status record ∧ deleted = (s.world.delete id).1 := by
  have hl := perform_leads setup s e
  cases e with
  | conclude r status' =>
    rw [perform, doConclude] at h
    split at h
    · cases h
    next found hfound =>
      split_ifs at h
      · simp at h
      · simp at h
      · simp only [List.mem_singleton, close.injEq] at h
        obtain ⟨rfl, rfl, rfl⟩ := h
        exact .inl ⟨r, rfl, rfl, hfound⟩
  | askParent r record' =>
    rw [perform, doAskParent] at h
    split at h
    · cases h
    · simp at h
    · simp only [List.mem_singleton, close.injEq] at h
      obtain ⟨rfl, rfl, rfl⟩ := h
      exact .inr (.inl ⟨r, rfl, rfl, rfl⟩)
  | expunge id status' record' =>
    simp only [perform, doExpunge, State.delete, List.mem_singleton, close.injEq] at h
    obtain ⟨rfl, rfl, rfl⟩ := h
    exact .inr (.inr ⟨id, rfl, rfl⟩)
  | _ => grind [Leads, LeadsOn]

/-- A record is deleted if it was to be forwarded and is gone, or if its message is gone. -/
theorem of_expunge {id : Int} {status : Status} {record : Option Attachment}
    (h : expunge id status record ∈ (e.perform setup s).next) :
    ∃ r, r.id = id ∧
      (e = conclude r status ∧ status ≠ .success ∧ s.world.attachment id = .ok record ∨
        e = askParent r record ∧ status = .messageNotFound) := by
  have hl := perform_leads setup s e
  cases e with
  | conclude r status' =>
    rw [perform, doConclude] at h
    split at h
    · cases h
    next found hfound =>
      split_ifs at h with hgone hforward
      · simp at h
      · simp only [List.mem_singleton, expunge.injEq] at h
        obtain ⟨rfl, rfl, rfl⟩ := h
        exact ⟨r, rfl, .inl ⟨rfl, by rw [hforward.1]; decide, hfound⟩⟩
      · simp at h
  | askParent r record' =>
    rw [perform, doAskParent] at h
    split at h
    · cases h
    · simp only [List.mem_singleton, expunge.injEq] at h
      obtain ⟨rfl, rfl, rfl⟩ := h
      exact ⟨r, rfl, .inr ⟨rfl, rfl⟩⟩
    · simp at h
  | _ => grind [Leads, LeadsOn]

theorem of_askParent {r : Request} {record : Option Attachment}
    (h : askParent r record ∈ (e.perform setup s).next) :
    e = conclude r .messageNotFound ∧ s.world.attachment r.id = .ok record := by
  have hl := perform_leads setup s e
  cases e with
  | conclude r' status =>
    rw [perform, doConclude] at h
    split at h
    · cases h
    next found hfound =>
      split_ifs at h with hgone
      · simp only [List.mem_singleton, askParent.injEq] at h
        obtain ⟨rfl, rfl⟩ := h
        exact ⟨by rw [hgone], hfound⟩
      · simp at h
      · simp at h
  | _ => grind [Leads, LeadsOn]

/-- A record is looked up for a request that was in flight until then. -/
theorem of_conclude {r : Request} {status : Status}
    (h : conclude r status ∈ (e.perform setup s).next) :
    ∃ id r₀, e = settle id status ∧ s.scheduler.flights.get? id = some r₀ ∧ r₀.id = r.id := by
  have hl := perform_leads setup s e
  cases e with
  | settle id status' =>
    rw [perform, doSettle] at h
    split at h
    · cases h
    next r₀ hr₀ =>
      dsimp only at h
      split_ifs at h
      · split at h <;> cases h
      · simp only [List.mem_singleton, conclude.injEq] at h
        obtain ⟨rfl, rfl⟩ := h
        exact ⟨id, r₀, rfl, hr₀, rfl⟩
  | _ => grind [Leads, LeadsOn]

theorem of_settle {id : Int} {status : Status} (h : settle id status ∈ (e.perform setup s).next) :
    ∃ report, e = hear report ∧ report.id = id ∧ report.status = status ∧
      s.scheduler.flights.contains id = true := by
  have hl := perform_leads setup s e
  cases e with
  | hear report =>
    rw [perform, doHear] at h
    split at h
    · cases h
    next r hr =>
      dsimp only at h
      split_ifs at h
      · simp only [List.mem_singleton, settle.injEq] at h
        obtain ⟨rfl, rfl⟩ := h
        exact ⟨report, rfl, rfl, rfl, Flights.contains_iff.mpr ⟨r, hr⟩⟩
      · simp at h
      · cases h
  | _ => grind [Leads, LeadsOn]

/-- Progress is looked up for when a report on a request in flight has reached the percentage at
which it is next entered. -/
theorem of_recordProgress {id : Int} {percent : Nat}
    (h : recordProgress id percent ∈ (e.perform setup s).next) :
    ∃ report r, e = hear report ∧ report.id = id ∧ report.percent = percent ∧
      s.scheduler.flights.get? id = some r ∧ report.status.isTerminal = false ∧
        r.nextPersisted ≤ percent := by
  have hl := perform_leads setup s e
  cases e with
  | hear report =>
    rw [perform, doHear] at h
    split at h
    · cases h
    next r hr =>
      dsimp only at h
      split_ifs at h with hends hreached
      · simp at h
      · simp only [List.mem_singleton, recordProgress.injEq] at h
        obtain ⟨rfl, rfl⟩ := h
        exact ⟨report, r, rfl, rfl, rfl, hr, by simpa using hends, hreached⟩
      · cases h
  | _ => grind [Leads, LeadsOn]

/-- Progress is written by the size that the record has when it is looked up. -/
theorem of_write {id : Int} {u : Update} (h : write id u ∈ (e.perform setup s).next) :
    ∃ percent a, e = recordProgress id percent ∧
      s.world.attachment id = .ok (some a) ∧ u = .progress a.size percent := by
  have hl := perform_leads setup s e
  cases e with
  | recordProgress j percent =>
    rw [perform, doRecordProgress] at h
    split at h
    next a ha =>
      simp only [List.mem_singleton, write.injEq] at h
      obtain ⟨rfl, rfl⟩ := h
      exact ⟨percent, a, rfl, ha, rfl⟩
    · cases h
  | _ => grind [Leads, LeadsOn]

/-! ### How much a call can send -/

/-- How much mail a call can still send when it comes to an errand. -/
def mailAhead : Errand → Nat
  | ring => 0
  | _ => 1

theorem mailAhead_le_one (e : Errand) : e.mailAhead ≤ 1 := by
  cases e <;> simp [mailAhead]

theorem mails_le_mailAhead (e : Errand) : e.mails.length ≤ e.mailAhead := by
  cases e <;> simp [mails, mailAhead]

/-- What a call sends, it cannot send again. -/
theorem mailAhead_next (hx : x ∈ (e.perform setup s).next) :
    e.mails.length + x.mailAhead ≤ e.mailAhead := by
  cases e with
  | sendMail a =>
    obtain rfl := List.mem_singleton.mp hx
    exact Nat.le_refl 1
  | ring => cases hx
  | _ => exact Nat.le_trans (Nat.le_of_eq (Nat.zero_add _)) (mailAhead_le_one x)

end Errand

/-! ### The turns of a task -/

/-- **An errand follows from the last turn**, if it goes on with a report. -/
def Errand.Follows (setup : Setup) (turns : List (State × Errand)) (x : Errand) : Prop :=
  x.goesOn = true → ∃ s e before, turns = (s, e) :: before ∧ x ∈ (e.perform setup s).next

/-- **Turns are linked** if every errand among them follows from the turn before it. The latest turn
comes first; those in flight at each are filed under their own numbers. -/
def Linked (setup : Setup) : List (State × Errand) → Prop
  | [] => True
  | t :: before =>
    t.2.Follows setup before ∧ t.1.scheduler.flights.Filed ∧ Linked setup before

/-- **The turns of a call that comes to send mail**, the latest first, in a task that has had other
turns before: it has heard a report, taken the request out of the air, found the record, dealt with
it and looked for what its message lacks. -/
structure MailCall (turns : List (State × Errand)) where
  report : Report
  request : Request
  record : Attachment
  deleted : Bool
  heard : State
  settled : State
  found : State
  closed : State
  looked : State
  between : List (State × Errand)
  before : List (State × Errand)
  course : turns = (looked, .sendIfComplete record) ::
    (closed, .close report.status (some record) deleted) :: between ++
      (found, .conclude request report.status) :: (settled, .settle report.id report.status) ::
        (heard, .hear report) :: before
  /-- The attachment of the report is in flight. -/
  flying : heard.scheduler.flights.contains report.id = true ∧
    settled.scheduler.flights.contains report.id = true
  /-- The record is the attachment's, and was to be forwarded. -/
  recorded : found.world.records.attachments.get? report.id = some record
  forwarded : record.isForwarded = true
  /-- The transfer has succeeded, or the record has been deleted. -/
  ended : report.status = .success ∧ between = [] ∨
    ∃ gone asked, between = (gone, .expunge report.id report.status (some record)) :: asked ∧
      (gone.world.delete report.id).1 = true
  /-- The message lacks nothing that the store has. -/
  complete : ∀ j a, looked.world.records.attachments.get? j = some a →
    a.message = record.message → a.isDownloaded = true

theorem World.isDownloaded_of_hasUnloaded {w : World} {message j : Int} {a : Attachment}
    (h : w.hasUnloaded message = .ok false) (ha : w.records.attachments.get? j = some a)
    (hmessage : a.message = message) : a.isDownloaded = true := by
  unfold World.hasUnloaded at h
  split_ifs at h
  have hnone := List.any_eq_false.mp (Except.ok.inj h) a (Table.mem_values.mpr ⟨j, ha⟩)
  simpa [hmessage] using hnone

theorem World.get?_of_attachment {w : World} {id : Int} {record : Option Attachment}
    (h : w.attachment id = .ok record) : w.records.attachments.get? id = record := by
  unfold World.attachment at h
  split_ifs at h
  exact Except.ok.inj h

namespace Linked

variable {setup : Setup} {turns : List (State × Errand)}

/-- **A task that looks up a record** has heard a report and taken the request out of the air. -/
theorem of_conclude {r : Request} {status : Status} (h : Linked setup turns)
    (hfollows : (Errand.conclude r status).Follows setup turns) :
    ∃ report settled heard before, report.id = r.id ∧ report.status = status ∧
      turns = (settled, .settle report.id report.status) :: (heard, .hear report) :: before ∧
        heard.scheduler.flights.contains report.id = true ∧
          settled.scheduler.flights.contains report.id = true := by
  obtain ⟨settled, e, later, rfl, hmem⟩ := hfollows rfl
  obtain ⟨id, r₀, rfl, hr₀, hid⟩ := Errand.of_conclude hmem
  obtain ⟨hsettle, hfiled, -⟩ := h
  obtain ⟨heard, e, before, rfl, hmem⟩ := hsettle rfl
  obtain ⟨report, rfl, rfl, rfl, hflying⟩ := Errand.of_settle hmem
  exact ⟨report, settled, heard, before, (hfiled report.id r₀ hr₀).symm.trans hid, rfl, rfl,
    hflying, Flights.contains_iff.mpr ⟨r₀, hr₀⟩⟩

/-- **A task that deletes a record** has looked it up, and perhaps its message. -/
theorem of_expunge {id : Int} {status : Status} {record : Option Attachment}
    (h : Linked setup turns) (hfollows : (Errand.expunge id status record).Follows setup turns) :
    ∃ found r asked later, turns = asked ++ (found, .conclude r status) :: later ∧ r.id = id ∧
      status ≠ .success ∧ found.world.attachment id = .ok record ∧ Linked setup later ∧
        (Errand.conclude r status).Follows setup later := by
  obtain ⟨s, e, later, rfl, hmem⟩ := hfollows rfl
  obtain ⟨hnext, -, hlater⟩ := h
  obtain ⟨r, rfl, ⟨rfl, hfailed, hfound⟩ | ⟨rfl, rfl⟩⟩ := Errand.of_expunge hmem
  · exact ⟨s, r, [], later, rfl, rfl, hfailed, hfound, hlater, hnext⟩
  · obtain ⟨found, e, before, rfl, hmem⟩ := hnext rfl
    obtain ⟨rfl, hfound⟩ := Errand.of_askParent hmem
    obtain ⟨hconclude, -, hbefore⟩ := hlater
    exact ⟨found, r, [_], before, rfl, rfl, by decide, hfound, hbefore, hconclude⟩

/-- **What a task has done that is about to send mail.** -/
theorem mailCall {a : Int} (h : Linked setup turns)
    (hfollows : (Errand.sendMail a).Follows setup turns) :
    ∃ call : MailCall turns, call.record.account = a := by
  obtain ⟨looked, e, t, rfl, hmem⟩ := hfollows rfl
  obtain ⟨b, rfl, haccount, hnone⟩ := Errand.of_sendMail hmem
  obtain ⟨hlook, -, ht⟩ := h
  obtain ⟨closed, e, u, rfl, hmem⟩ := hlook rfl
  obtain ⟨status, deleted, rfl, hforward, hdone⟩ := Errand.of_sendIfComplete hmem
  obtain ⟨hclose, -, hu⟩ := ht
  obtain ⟨s, e, v, rfl, hmem⟩ := hclose rfl
  obtain ⟨hnext, -, hv⟩ := hu
  have hcomplete := fun (j : Int) (x : Attachment) =>
    World.isDownloaded_of_hasUnloaded (j := j) (a := x) hnone
  rcases Errand.of_close hmem with ⟨r, rfl, rfl, hfound⟩ | ⟨r, rfl, rfl, rfl⟩ | ⟨id, rfl, rfl⟩
  · obtain ⟨report, settled, heard, before, hid, rfl, rfl, hflying⟩ := hv.of_conclude hnext
    rw [← hid] at hfound
    exact ⟨⟨report, r, b, false, heard, settled, s, closed, looked, [], before, rfl, hflying,
      World.get?_of_attachment hfound, hforward, .inl ⟨hdone.resolve_right Bool.false_ne_true, rfl⟩,
      hcomplete⟩, haccount⟩
  · -- When the message cannot be looked up, nothing is deleted, and it was no success.
    rcases hdone with hdone | hdone <;> cases hdone
  · obtain ⟨found, r, asked, w, rfl, rfl, hfailed, hfound, hw, hconclude⟩ := hv.of_expunge hnext
    obtain ⟨report, settled, heard, before, hid, rfl, rfl, hflying⟩ := hw.of_conclude hconclude
    rw [← hid] at hfound hdone ⊢
    exact ⟨⟨report, r, b, _, heard, settled, found, closed, looked, (s, _) :: asked, before, rfl,
      hflying, World.get?_of_attachment hfound, hforward,
      .inr ⟨s, asked, rfl, hdone.resolve_left hfailed⟩, hcomplete⟩, haccount⟩

end Linked

namespace Crew

variable {setup : Setup} {c c' : Crew} {i : Nat} {e : Errand} {rest : List Errand}

/-- The turn that a move is for a task: the state before it and the errand that is done. -/
def turnOf (i : Nat) (c : Crew) (m : CrewMove) : List (State × Errand) :=
  if m = .turn i then ((c.tasks[i]?.bind List.head?).map fun e => (c.state, e)).toList else []

/-- **The turns that a task has** in a run, the latest first. -/
def turns (setup : Setup) (i : Nat) : Crew → List CrewMove → List (State × Errand) :=
  recorded (move setup) (turnOf i)

theorem turnOf_self (hi : c.tasks[i]? = some (e :: rest)) :
    c.turnOf i (.turn i) = [(c.state, e)] := by
  rw [turnOf, if_pos rfl, hi]
  rfl

/-- The turns of a run that goes on by one move. -/
theorem turns_concat {c₀ : Crew} {moves : List CrewMove} {m : CrewMove}
    (h : c₀.run setup moves = some c) (hmove : c.move setup m = some c') :
    c₀.turns setup i (moves ++ [m]) = c.turnOf i m ++ c₀.turns setup i moves := by
  rw [turns, recorded_append h, recorded_cons hmove]
  rfl

/-- **The moment of the last turn**: there was none of the task after it, and before it the task had
the turns that came earlier. -/
theorem last_turn {c₀ : Crew} {moves : List CrewMove} {s : State} {x : Errand}
    {before : List (State × Errand)} (h : c₀.run setup moves = some c)
    (hturns : c₀.turns setup i moves = (s, x) :: before) :
    ∃ earlier between u rest, moves = earlier ++ .turn i :: between ∧ .turn i ∉ between ∧
      c₀.run setup earlier = some u ∧ u.state = s ∧ u.tasks[i]? = some (x :: rest) ∧
        c₀.turns setup i earlier = before := by
  induction moves using List.reverseRecOn generalizing c with
  | nil => cases hturns
  | append_singleton moves m ih =>
    obtain ⟨u, hu, hmove⟩ := follow_concat_eq_some h
    rw [turns_concat hu hmove] at hturns
    by_cases hm : m = .turn i
    · subst hm
      obtain ⟨-, y, rest, -, hi, -⟩ := move_turn hmove
      rw [turnOf_self hi] at hturns
      obtain ⟨hpair, hbefore⟩ := List.cons.inj hturns
      obtain ⟨rfl, rfl⟩ := Prod.mk.inj hpair
      exact ⟨moves, [], u, rest, rfl, List.not_mem_nil, hu, rfl, hi, hbefore⟩
    · rw [turnOf, if_neg hm, List.nil_append] at hturns
      obtain ⟨earlier, between, v, rest, rfl, hnot, hv⟩ := ih hu hturns
      refine ⟨earlier, between ++ [m], v, rest, by simp, ?_, hv⟩
      rw [List.mem_append, List.mem_singleton]
      exact fun hmem => hmem.elim hnot fun hlast => hm hlast.symm

/-- **The turns tell how a task has come to its next errand**: they are linked, the next errand
follows from the last turn, and no other one goes on with a report. -/
structure Told (setup : Setup) (i : Nat) (c : Crew) (turns : List (State × Errand)) : Prop where
  linked : Linked setup turns
  next : ∀ x rest, c.tasks[i]? = some (x :: rest) →
    x.Follows setup turns ∧ ∀ y ∈ rest, y.goesOn = false

theorem told_fresh (setup : Setup) (i : Nat) (w : World) : (fresh w).Told setup i [] :=
  ⟨trivial, fun x rest hi => by simp [fresh] at hi⟩

/-- **What a turn leaves of its own task**: the errands that it leads to, and those behind. -/
theorem told_turn {turns : List (State × Errand)} (hc : c.Legible)
    (hi : c.tasks[i]? = some (e :: rest)) (h : c.move setup (.turn i) = some c')
    (ht : c.Told setup i turns) : c'.Told setup i ((c.state, e) :: turns) := by
  obtain ⟨hfollows, hbehind⟩ := ht.next e rest hi
  refine ⟨⟨hfollows, hc.filed, ht.linked⟩, fun x rest' hi' => ?_⟩
  obtain ⟨-, htask⟩ := task_of_self hi h
  have hleft := Option.some.inj (htask.symm.trans hi')
  unfold Turn.left at hleft
  split_ifs at hleft
  cases hnext : (e.perform setup c.state).next with
  | nil =>
    -- The task goes on with what was behind, which goes on with no report.
    rw [hnext, List.nil_append] at hleft
    rw [hleft] at hbehind
    refine ⟨fun hgoes => ?_, fun y hy => hbehind y (.tail _ hy)⟩
    rw [hbehind x List.mem_cons_self] at hgoes
    cases hgoes
  | cons y l =>
    have hleads := Errand.perform_leads setup c.state e
    rw [hnext] at hleads hleft
    obtain ⟨rfl, rfl⟩ := List.cons.inj hleft
    refine ⟨fun _ => ⟨c.state, e, turns, rfl, hnext ▸ List.mem_cons_self⟩, fun z hz => ?_⟩
    rcases List.mem_append.mp hz with hz | hz
    · exact hleads.goesOn_tail z hz
    · exact hbehind z hz

theorem told_move {m : CrewMove} {turns : List (State × Errand)} (hc : c.Legible)
    (h : c.move setup m = some c') (ht : c.Told setup i turns) :
    c'.Told setup i (c.turnOf i m ++ turns) := by
  by_cases hm : m = .turn i
  · subst hm
    obtain ⟨-, e, rest, -, hi, -⟩ := move_turn h
    rw [turnOf_self hi]
    exact told_turn hc hi h ht
  · rw [turnOf, if_neg hm, List.nil_append]
    refine ⟨ht.linked, fun x rest hi' => ?_⟩
    cases hi : c.tasks[i]? with
    | none =>
      have hplain : ∀ y ∈ x :: rest, y.goesOn = false := fun y hy =>
        (plain_of_new h hi hi' hy).elim Errand.goesOn_of_isFirst Errand.goesOn_of_isStart
      refine ⟨fun hgoes => ?_, fun y hy => hplain y (.tail _ hy)⟩
      rw [hplain x List.mem_cons_self] at hgoes
      cases hgoes
    | some task =>
      obtain rfl := Option.some.inj ((task_of_other hm h hi).symm.trans hi')
      exact ht.next x rest hi

/-- **The turns of every run are linked.** -/
theorem told_run {w : World} {moves : List CrewMove} (h : (fresh w).run setup moves = some c) :
    c.Told setup i (turns setup i (fresh w) moves) :=
  (follow_records (I := fun u l => u.Legible ∧ u.Told setup i l)
    (fun _ _ _ _ hu hmove => ⟨legible_move hu.1 hmove, told_move hu.1 hmove hu.2⟩)
    ⟨legible_fresh w, told_fresh setup i w⟩ h).2

/-! ### When mail is sent -/

/-- **Mail is sent by a turn** of a task that has come to that. -/
theorem sends_of_move {m : CrewMove} (h : c.move setup m = some c')
    (hsent : c'.state.mails ≠ c.state.mails) :
    ∃ i a rest, m = .turn i ∧ c.tasks[i]? = some (.sendMail a :: rest) ∧
      c'.state.mails = a :: c.state.mails := by
  rcases move_cases h with ⟨w, rfl, rfl⟩ | ⟨op, rfl, rfl⟩ | ⟨rfl, rfl⟩ | ⟨i, rfl⟩
  · exact absurd rfl hsent
  · rw [State.mails, Operation.state_log] at hsent
    exact absurd rfl hsent
  · exact absurd rfl hsent
  · obtain ⟨-, e, rest, -, hi, -⟩ := move_turn h
    rw [(task_of_self hi h).1, Errand.mails_perform] at hsent ⊢
    cases e with
    | sendMail a => exact ⟨i, a, rest, rfl, hi, rfl⟩
    | _ => exact absurd rfl hsent

/-- If a task has had its turn just now, the state is what this turn has made of the one before. -/
theorem state_of_last {earlier : List CrewMove} {c₀ : Crew} {s : State} {e : Errand}
    {before : List (State × Errand)} (h : c₀.run setup (earlier ++ [.turn i]) = some c)
    (hturns : c₀.turns setup i (earlier ++ [.turn i]) = (s, e) :: before) :
    c.state = (e.perform setup s).state := by
  obtain ⟨u, hu, hmove⟩ := follow_concat_eq_some h
  obtain ⟨-, x, rest, -, hi, -⟩ := move_turn hmove
  rw [turns_concat hu hmove, turnOf_self hi] at hturns
  obtain ⟨hpair, -⟩ := List.cons.inj hturns
  obtain ⟨rfl, rfl⟩ := Prod.mk.inj hpair
  exact (task_of_self hi hmove).1

/-- **A call sends mail once at most**, whatever other tasks do in between. -/
theorem mailedBy_le_one {report : Report} {moves : List CrewMove}
    (hi : c.tasks[i]? = some (.hear report :: rest))
    (hcall : Throughout (move setup) (fun v _ => v.InCall i rest) c moves)
    (h : c.run setup moves = some c') : (c.mailedBy setup i moves).length ≤ 1 := by
  -- What has been sent and what can still be sent is one at most.
  refine (follow_records_of (I := fun u l => l.length ≤ 1 ∧ ∀ e, u.tasks[i]? = some (e :: rest) →
    e.isReport = true ∧ l.length + e.mailAhead ≤ 1) (fun u m u' l hu hin hmove => ?_)
      ⟨Nat.zero_le 1, fun e he => ?_⟩ hcall h).1
  · obtain ⟨e, he⟩ := hin
    obtain ⟨hreport, hahead⟩ := hu.2 e he
    by_cases hm : m = .turn i
    · subst hm
      have hstays : e.mayCollapse = false := by cases e <;> first | rfl | cases hreport
      obtain ⟨-, htask, hmails⟩ :=
        turn_of_left (Errand.left_perform setup u.state rest hstays) he hmove
      rw [hmails, List.length_append]
      have hsent := e.mails_le_mailAhead
      refine ⟨by omega, fun x hx => ?_⟩
      have hbehind : (e.perform setup u.state).next ++ rest = [x] ++ rest :=
        Option.some.inj (htask.symm.trans hx)
      have hnext := List.append_cancel_right hbehind
      have hmem : x ∈ (e.perform setup u.state).next := hnext ▸ List.mem_singleton_self x
      have hless := Errand.mailAhead_next hmem
      exact ⟨(Errand.perform_leads setup u.state e).isReport hreport x hmem, by omega⟩
    · rw [mailed_of_other hm, List.nil_append]
      refine ⟨hu.1, fun x hx => ?_⟩
      rw [task_of_other hm hmove he] at hx
      obtain ⟨rfl, -⟩ := List.cons.inj (Option.some.inj hx)
      exact ⟨hreport, hahead⟩
  · obtain ⟨rfl, -⟩ := List.cons.inj (Option.some.inj (hi.symm.trans he))
    exact ⟨rfl, Nat.le_refl 1⟩

/-- **Outgoing mail is never sent early.** In every run, however its tasks are interleaved and
whatever calls to the store fail in it:

* whenever mail is sent, this is the next turn of a call that `MailCall` describes: it has heard a
  report on an attachment in flight, whose record was to be forwarded and belongs to the account;
  the transfer has succeeded or the record has been deleted; and when the call looked last, all
  that the store had of the message was downloaded, which is so at the moment of the mail if
  nothing came between;
* a call sends mail once at most. -/
theorem mail_not_early (setup : Setup) (w : World) (moves : List CrewMove)
    (hrun : (fresh w).run setup moves = some c) :
    (∀ m c', c.move setup m = some c' → c'.state.mails ≠ c.state.mails →
      ∃ i, ∃ call : MailCall ((fresh w).turns setup i moves),
        m = .turn i ∧ c'.state.mails = call.record.account :: c.state.mails ∧
          ∀ earlier, moves = earlier ++ [.turn i] → c.state.world = call.looked.world) ∧
      ∀ i report rest later c', c.tasks[i]? = some (.hear report :: rest) →
        Throughout (move setup) (fun v _ => v.InCall i rest) c later →
          c.run setup later = some c' → (c.mailedBy setup i later).length ≤ 1 := by
  refine ⟨fun m c' hmove hsent => ?_, fun i report rest later c' => mailedBy_le_one⟩
  obtain ⟨i, a, rest, rfl, hi, hmails⟩ := sends_of_move hmove hsent
  have htold : c.Told setup i ((fresh w).turns setup i moves) := told_run hrun
  obtain ⟨call, rfl⟩ := htold.linked.mailCall (htold.next _ _ hi).1
  refine ⟨i, call, rfl, hmails, fun earlier hearlier => ?_⟩
  subst hearlier
  rw [state_of_last hrun call.course]
  exact (Errand.perform_of_turnsLeft setup call.looked (e := .sendIfComplete call.record)
    (Nat.succ_pos 2)).1

/-- One of two attachments has come, and the forwarded one is gone: the call that deletes its record
has looked for what is missing. -/
def forwardedGone : List CrewMove :=
  bothHandedOver ++ succeeds 2 :: List.replicate 5 (.turn 2) ++
    .begin (.report ⟨10, 1, .attachmentNotFound, 0⟩) :: List.replicate 6 (.turn 3)

/-- The mail is sent for the account of the record that has been deleted. -/
theorem mail_not_early_gone :
    ∃ c c', (fresh mixedWorld).run twoAtOnce forwardedGone = some c ∧
      c.move twoAtOnce (.turn 3) = some c' ∧ c'.state.mails = [1] ∧
        ∃ i, ∃ call : MailCall ((fresh mixedWorld).turns twoAtOnce i forwardedGone),
          call.record.account = 1 := by
  obtain ⟨c, c', hrun, hmove, hbefore, hafter⟩ : ∃ c c',
      (fresh mixedWorld).run twoAtOnce forwardedGone = some c ∧
        c.move twoAtOnce (.turn 3) = some c' ∧ c.state.mails = [] ∧ c'.state.mails = [1] :=
    ⟨_, _, rfl, rfl, rfl, rfl⟩
  obtain ⟨i, call, -, hmails, -⟩ := (mail_not_early twoAtOnce mixedWorld forwardedGone hrun).1
    (.turn 3) c' hmove (by rw [hbefore, hafter]; decide)
  rw [hbefore, hafter] at hmails
  exact ⟨c, c', hrun, hmove, hafter, i, call, (List.cons.inj hmails).1.symm⟩

end Crew

end MailFetch

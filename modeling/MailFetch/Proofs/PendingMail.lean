import MailFetch.Proofs.Attendance
import MailFetch.Proofs.Crew

/-! # When the pending mail is sent

A message whose forwarded attachments had to be downloaded first is sent when the last of its
attachments is there. Whether it is looks only at the record that the successful transfer was about:
if that one is not forwarded, nothing is sent, even if others of the message were.

* `Errand.mails_perform`: mail is sent by one kind of errand, and the log says so.
* `Crew.call_records`: what the turns of a call keep of the errand in hand and of the mail that the
  call has sent, whatever other tasks do in between.
* `Crew.records_of_completes`, `Crew.records_of_closed`: what it has sent when it has made a message
  complete, and what it sends from then on. `Crew.finishes_of_closed`: that it comes to its end.
* `Crew.mail_of_completion`: what a call sends that makes a message complete.
* `Crew.not_forgets_no_mail`: a message may be complete and stay where it is. -/

namespace MailFetch

/-! ### Mail in the log -/

/-- The account whose pending mail is sent. -/
def Event.mailOf : Event → Option Int
  | mail account => some account
  | _ => none

namespace State

/-- **The accounts whose pending mail has been sent**, the latest first. -/
def mails (s : State) : List Int := s.log.filterMap fun l => l.event.mailOf

variable (s : State)

theorem mails_note (e : Event) : (s.note e).mails = e.mailOf.toList ++ s.mails := by
  unfold mails note
  rw [List.filterMap_cons]
  cases e.mailOf <;> rfl

end State

namespace Errand

/-- The mail that an errand sends. -/
def mails : Errand → List Int
  | sendMail account => [account]
  | _ => []

/-- **Mail is sent by one kind of errand**, and the log says so. -/
theorem mails_perform (setup : Setup) (s : State) (e : Errand) :
    (e.perform setup s).state.mails = e.mails ++ s.mails := by
  cases e with
  | sendMail account => exact s.mails_note (.mail account)
  | _ =>
    refine filterMap_log fun ev hev => ?_
    cases ev with
    | mail account => cases hev
    | _ => rfl

/-! ### The errands of a call -/

/-- An errand of a call about a success, up to the one that enters it into the record. -/
def OfSuccess (id : Int) : Errand → Prop
  | hear report => report.id = id ∧ report.status = .success
  | settle j status => j = id ∧ status = .success
  | conclude r status => r.id = id ∧ status = .success
  | close status _ deleted => status = .success ∧ deleted = false
  | _ => False

/-- How many turns a call has left at most once its record has been closed. -/
def turnsLeft : Errand → Nat
  | sendIfComplete _ => 3
  | sendMail _ => 2
  | ring => 1
  | _ => 0

variable {setup : Setup} {s : State} {e x : Errand} {id : Int} {a : Attachment}

theorem mails_of_success (h : e.OfSuccess id) : e.mails = [] := by
  cases e <;> first | rfl | exact h.elim

/-- **A call about a success** comes to its record, and then to what is left afterwards. -/
theorem next_of_success (hfiled : s.scheduler.flights.Filed) (h : e.OfSuccess id)
    (hx : x ∈ (e.perform setup s).next) : x.OfSuccess id ∨ 0 < x.turnsLeft := by
  cases e with
  | hear report =>
    obtain ⟨hid, hstatus⟩ := h
    unfold perform doHear at hx
    dsimp only at hx
    split at hx
    · cases hx
    · rw [if_pos (by rw [hstatus]; rfl)] at hx
      rw [List.mem_singleton.mp hx]
      exact .inl ⟨hid, hstatus⟩
  | settle j status =>
    obtain ⟨rfl, rfl⟩ := h
    unfold perform doSettle at hx
    dsimp only at hx
    split at hx
    · cases hx
    next r hr =>
      rw [if_neg (by decide)] at hx
      rw [List.mem_singleton.mp hx]
      exact .inl ⟨hfiled j r hr, rfl⟩
  | conclude r status =>
    obtain ⟨rfl, rfl⟩ := h
    unfold perform doConclude at hx
    dsimp only at hx
    split at hx
    · cases hx
    · rw [if_neg (by decide), if_neg (by simp)] at hx
      rw [List.mem_singleton.mp hx]
      exact .inl ⟨rfl, rfl⟩
  | close status record deleted =>
    have hleads := perform_leads setup s (close status record deleted)
    rcases hleads with hnil | hring | ⟨b, hlook⟩
    · rw [hnil] at hx
      cases hx
    · rw [hring] at hx
      rw [List.mem_singleton.mp hx]
      exact .inr (by simp [turnsLeft])
    · rw [hlook] at hx
      rw [List.mem_singleton.mp hx]
      exact .inr (by simp [turnsLeft])
  | _ => exact h.elim

/-- Once its record has been closed, a call never has to wait. -/
theorem isHeldUp_of_turnsLeft (s : State) (h : 0 < e.turnsLeft) : e.isHeldUp s = false := by
  cases e <;> first | rfl | cases h

/-- **Once its record has been closed**, a call changes no record and comes to its end. -/
theorem perform_of_turnsLeft (setup : Setup) (s : State) (h : 0 < e.turnsLeft) :
    (e.perform setup s).state.world = s.world ∧
      ((e.perform setup s).next = [] ∨
        ∃ x, (e.perform setup s).next = [x] ∧ 0 < x.turnsLeft ∧ x.turnsLeft < e.turnsLeft) := by
  cases e with
  | sendIfComplete b =>
    rw [perform, doSendIfComplete]
    split
    · exact ⟨rfl, .inr ⟨sendMail b.account, rfl, by simp [turnsLeft], by simp [turnsLeft]⟩⟩
    · exact ⟨rfl, .inr ⟨ring, rfl, by simp [turnsLeft], by simp [turnsLeft]⟩⟩
  | sendMail account => exact ⟨rfl, .inr ⟨ring, rfl, by simp [turnsLeft], by simp [turnsLeft]⟩⟩
  | ring => exact ⟨rfl, .inl rfl⟩
  | _ => cases h

theorem turnsLeft_of_next (h : 0 < e.turnsLeft) (hx : x ∈ (e.perform setup s).next) :
    0 < x.turnsLeft := by
  rcases (perform_of_turnsLeft setup s h).2 with hnil | ⟨y, hy, hleft, -⟩
  · rw [hnil] at hx
    cases hx
  · rw [hy] at hx
    rw [List.mem_singleton.mp hx]
    exact hleft

/-- The look-up of a record that is there. -/
theorem next_conclude (hup : s.world.StoreUp) {r : Request}
    (ha : s.world.records.attachments.get? r.id = some a) :
    ((conclude r .success).perform setup s).next = [close .success (some a) false] := by
  have hlook : s.world.attachment r.id = .ok (some a) := by
    rw [hup.attachment, ha]
  rw [perform, doConclude, hlook]
  rfl

/-- When the record has been closed, only a forwarded one makes the call look further. -/
theorem next_close :
    ((close .success (some a) false).perform setup s).next =
      if a.isForwarded then [sendIfComplete a] else [ring] := by
  cases ha : a.isForwarded <;> simp [perform, doClose, ha]

/-- The look at a complete message. -/
theorem perform_sendIfComplete (hup : s.world.StoreUp)
    (hnone : s.world.records.hasUnloaded a.message = false) :
    (sendIfComplete a).perform setup s = { state := s, next := [sendMail a.account] } := by
  have hlook : s.world.hasUnloaded a.message = .ok false := by
    rw [hup.hasUnloaded, hnone]
  rw [perform, doSendIfComplete, hlook]

end Errand

/-- The mail that is due when a record makes its message complete. -/
def Attachment.mailDue (a : Attachment) : List Int := if a.isForwarded then [a.account] else []

namespace Crew

variable {setup : Setup} {c c' : Crew} {i : Nat} {e : Errand} {rest : List Errand}

/-! ### The moves of a call -/

/-- **A call is under way** in a task, which has other errands to do after it. -/
def InCall (i : Nat) (rest : List Errand) (c : Crew) : Prop :=
  ∃ e, c.tasks[i]? = some (e :: rest)

/-- Whether some attachment of a message is not downloaded yet. -/
def lacks (c : Crew) (message : Int) : Bool := c.state.world.records.hasUnloaded message

/-- The accounts whose pending mail is sent by a move of a task, the latest first. -/
def mailed (setup : Setup) (i : Nat) (c : Crew) (m : CrewMove) : List Int :=
  if m = .turn i then
    match c.move setup m with
    | some c' => c'.state.mails.take (c'.state.mails.length - c.state.mails.length)
    | none => []
  else []

/-- **The accounts whose pending mail a task sends** in a run, the latest first. -/
def mailedBy (setup : Setup) (i : Nat) : Crew → List CrewMove → List Int :=
  recorded (move setup) (mailed setup i)

/-- What a turn of a task leads to that goes on. -/
theorem turn_of_left
    (hleft : (e.perform setup c.state).left rest = (e.perform setup c.state).next ++ rest)
    (hi : c.tasks[i]? = some (e :: rest)) (h : c.move setup (.turn i) = some c') :
    c'.state = (e.perform setup c.state).state ∧
      c'.tasks[i]? = some ((e.perform setup c.state).next ++ rest) ∧
      c.mailed setup i (.turn i) = e.mails := by
  obtain ⟨hstate, htask⟩ := task_of_self hi h
  refine ⟨hstate, by rw [htask, hleft], ?_⟩
  · simp only [mailed, h, if_true]
    rw [hstate, Errand.mails_perform, List.length_append, Nat.add_sub_cancel, List.take_left]

/-- What a turn of a call leads to. -/
theorem turn_of_call (hup : c.state.world.StoreUp) (hi : c.tasks[i]? = some (e :: rest))
    (h : c.move setup (.turn i) = some c') :
    c'.state = (e.perform setup c.state).state ∧
      c'.tasks[i]? = some ((e.perform setup c.state).next ++ rest) ∧
      c.mailed setup i (.turn i) = e.mails :=
  turn_of_left (if_neg (by rw [Errand.collapses_eq_false hup]; exact Bool.false_ne_true)) hi h

theorem mailed_of_other {m : CrewMove} (hm : m ≠ .turn i) : c.mailed setup i m = [] := if_neg hm

/-- **What a call keeps** of the errand in hand and the mail that it has sent: what all moves keep
of it while the errand waits, and its turns. What its last turn leaves holds when the call is
over. -/
theorem call_records {G : Crew → Errand → List Int → Prop} {E : List Int → Prop}
    {Q : Crew → CrewMove → Prop}
    (hwait : ∀ v m v' e l, G v e l → v.move setup m = some v' → G v' e l)
    (hturn : ∀ v v' e l, G v e l → v.tasks[i]? = some (e :: rest) → v.state.world.StoreUp →
      Q v (.turn i) → v.move setup (.turn i) = some v' →
        (∀ e', (e.perform setup v.state).next = [e'] → G v' e' (e.mails ++ l)) ∧
          ((e.perform setup v.state).next = [] → E (e.mails ++ l)))
    {moves : List CrewMove} (hi : c.tasks[i]? = some (e :: rest)) (hstart : G c e [])
    (hlasts : Throughout (move setup)
      (fun v m => (v.InCall i rest ∧ v.state.world.StoreUp) ∧ Q v m) c moves)
    (h : c.run setup moves = some c') :
    (∀ e', c'.tasks[i]? = some (e' :: rest) → G c' e' (c.mailedBy setup i moves)) ∧
      (c'.tasks[i]? = some rest → E (c.mailedBy setup i moves)) := by
  refine follow_records_of (I := fun v l => (∀ e', v.tasks[i]? = some (e' :: rest) → G v e' l) ∧
    (v.tasks[i]? = some rest → E l)) (fun v m v' l hl hm hmove => ?_) ⟨?_, ?_⟩ hlasts h
  · obtain ⟨⟨⟨x, hx⟩, hup⟩, hq⟩ := hm
    have hG := hl.1 x hx
    by_cases hturn' : m = .turn i
    · subst hturn'
      obtain ⟨-, htask, hmails⟩ := turn_of_call hup hx hmove
      obtain ⟨hnext, hover⟩ := hturn v v' x l hG hx hup hq hmove
      rw [hmails]
      refine ⟨fun e' he' => hnext e' ?_, fun hrest => hover ?_⟩
      · have hleft : _ ++ rest = [e'] ++ rest := Option.some.inj (htask.symm.trans he')
        exact List.append_cancel_right hleft
      · exact List.append_left_eq_self.mp (Option.some.inj (htask.symm.trans hrest))
    · have htask := task_of_other hturn' hmove hx
      rw [mailed_of_other hturn', List.nil_append]
      refine ⟨fun e' he' => ?_, fun hrest => ?_⟩
      · obtain ⟨rfl, -⟩ := List.cons.inj (Option.some.inj (htask.symm.trans he'))
        exact hwait v m v' x l hG hmove
      · exact absurd (Option.some.inj (htask.symm.trans hrest)) (by simp)
  · intro e' he'
    obtain ⟨rfl, -⟩ := List.cons.inj (Option.some.inj (hi.symm.trans he'))
    exact hstart
  · intro hrest
    exact absurd (Option.some.inj (hi.symm.trans hrest)) (by simp)

/-! ### A store that answers -/

/-- No move brings a fault of the store about, unless the world changes. -/
theorem storeUp_run {moves : List CrewMove} (hc : c.state.world.StoreUp)
    (hup : ∀ w, .world w ∈ moves → w.StoreUp) (h : c.run setup moves = some c') :
    c'.state.world.StoreUp := by
  refine follow_keeps_of (P := fun v : Crew => v.state.world.StoreUp)
    (Q := fun _ m => ∀ w, m = .world w → w.StoreUp) (fun v m v' hv hm hmove => ?_) hc
    (fun earlier m later _ hmoves _ w hw => hup w ?_) h
  · rcases move_cases hmove with ⟨w, rfl, rfl⟩ | ⟨op, rfl, rfl⟩ | ⟨rfl, rfl⟩ | ⟨i, rfl⟩
    · exact hm w rfl
    · rw [Operation.state_world]
      exact hv
    · exact hv
    · obtain ⟨before, e, rest, after, -, -, -, rfl⟩ := move_turn hmove
      rw [World.StoreUp, Errand.perform_faults]
      exact hv
  · rw [hmoves, hw]
    exact List.mem_append_right _ List.mem_cons_self

theorem storeUp_throughout (setup : Setup) {moves : List CrewMove} (hc : c.state.world.StoreUp)
    (hup : ∀ w, .world w ∈ moves → w.StoreUp) :
    Throughout (move setup) (fun v _ => v.state.world.StoreUp) c moves := by
  intro earlier m later v hmoves hv
  refine storeUp_run hc (fun w hw => hup w ?_) hv
  rw [hmoves]
  exact List.mem_append_left _ hw

/-! ### A call that completes a message -/

/-- The moves of a run up to the turn of a call that enters a success into its record, with the
turn that looks the record up. -/
def callOf (i : Nat) (before between : List CrewMove) : List CrewMove :=
  before ++ .turn i :: between ++ [.turn i]

/-- **A call completes a message.** The task takes the report of a success, finds the record `a`
under its number, and the turn after `between` makes the message of `a` complete. Other tasks may do
their errands between the turns of the call. -/
structure Completes (setup : Setup) (i : Nat) (report : Report) (rest : List Errand)
    (a : Attachment) (c c' : Crew) (before between : List CrewMove) : Prop where
  takes : c.tasks[i]? = some (.hear report :: rest)
  status : report.status = .success
  lasts : Throughout (move setup) (fun v _ => v.InCall i rest) c (callOf i before between)
  finds : ∃ v r, c.run setup before = some v ∧
    v.tasks[i]? = some (.conclude r .success :: rest) ∧
    v.state.world.records.attachments.get? report.id = some a
  turns : ∃ u, c.run setup (before ++ .turn i :: between) = some u ∧ u.lacks a.message = true ∧
    u.move setup (.turn i) = some c' ∧ c'.lacks a.message = false

/-- **A call goes on to its end.** Other tasks may do their errands between its turns, but if it
looks whether anything of the message of `a` is missing, nothing is. -/
structure Finishes (setup : Setup) (i : Nat) (rest : List Errand) (a : Attachment) (c c' : Crew)
    (after : List CrewMove) : Prop where
  runs : c.run setup after = some c'
  lasts : Throughout (move setup) (fun v _ => v.InCall i rest) c after
  looks : Throughout (move setup) (fun v m => m = .turn i →
    v.tasks[i]? = some (.sendIfComplete a :: rest) → v.lacks a.message = false) c after
  ends : c'.tasks[i]? = some rest

/-- What a call has come to up to its look-up: its record is not closed, and no mail is sent. -/
theorem records_of_success {report : Report} {moves : List CrewMove} (hc : c.Legible)
    (hi : c.tasks[i]? = some (.hear report :: rest)) (hsuccess : report.status = .success)
    (hlasts : Throughout (move setup)
      (fun v _ => v.InCall i rest ∧ v.state.world.StoreUp) c moves)
    (h : c.run setup moves = some c') (he : c'.tasks[i]? = some (e :: rest))
    (hearly : e.turnsLeft = 0) :
    e.OfSuccess report.id ∧ c.mailedBy setup i moves = [] := by
  have hrecords := call_records
    (G := fun v x l => v.Legible ∧ (x.OfSuccess report.id ∧ l = [] ∨ 0 < x.turnsLeft))
    (E := fun _ => True) (Q := fun _ _ => True)
    (fun v m v' x l hG hmove => ⟨legible_move hG.1 hmove, hG.2⟩)
    (fun v v' x l hG _ _ _ hmove => ?_) hi ⟨hc, .inl ⟨⟨rfl, hsuccess⟩, rfl⟩⟩
    (fun earlier m later v hmoves hv => ⟨hlasts earlier m later v hmoves hv, trivial⟩) h
  · exact (hrecords.1 e he).2.resolve_right (Nat.not_lt.mpr (Nat.le_of_eq hearly))
  · refine ⟨fun y hy => ⟨legible_move hG.1 hmove, ?_⟩, fun _ => trivial⟩
    have hmem : y ∈ (x.perform setup v.state).next := by rw [hy]; exact List.mem_cons_self
    rcases hG.2 with ⟨hof, rfl⟩ | hafter
    · rw [Errand.mails_of_success hof]
      exact (Errand.next_of_success hG.1.filed hof hmem).imp_left fun hof' => ⟨hof', rfl⟩
    · exact .inr (Errand.turnsLeft_of_next hafter hmem)

/-- What a call comes to after its look-up: it closes the record that it has found. -/
theorem records_of_found {a : Attachment} {moves : List CrewMove}
    (hi : c.tasks[i]? = some (.close .success (some a) false :: rest))
    (hlasts : Throughout (move setup)
      (fun v _ => v.InCall i rest ∧ v.state.world.StoreUp) c moves)
    (h : c.run setup moves = some c') (he : c'.tasks[i]? = some (e :: rest)) :
    e = .close .success (some a) false ∧ c.mailedBy setup i moves = [] ∨ 0 < e.turnsLeft := by
  have hrecords := call_records
    (G := fun _ x l => x = .close .success (some a) false ∧ l = [] ∨ 0 < x.turnsLeft)
    (E := fun _ => True) (Q := fun _ _ => True) (fun v m v' x l hG _ => hG)
    (fun v v' x l hG _ _ _ _ => ?_) hi (.inl ⟨rfl, rfl⟩)
    (fun earlier m later v hmoves hv => ⟨hlasts earlier m later v hmoves hv, trivial⟩) h
  · exact hrecords.1 e he
  · refine ⟨fun y hy => .inr ?_, fun _ => trivial⟩
    rcases hG with ⟨rfl, -⟩ | hafter
    · rw [Errand.next_close] at hy
      split_ifs at hy
      · obtain ⟨rfl, -⟩ := List.cons.inj hy
        simp [Errand.turnsLeft]
      · obtain ⟨rfl, -⟩ := List.cons.inj hy
        simp [Errand.turnsLeft]
    · have hmem : y ∈ (x.perform setup v.state).next := by rw [hy]; exact List.mem_cons_self
      exact Errand.turnsLeft_of_next hafter hmem

/-- **What a call sends after it has closed a record**, if the message is complete when it looks:
the mail that is due. -/
theorem records_of_closed {a : Attachment} {moves : List CrewMove}
    (hi : c.tasks[i]? = some ((if a.isForwarded then [.sendIfComplete a] else [.ring]) ++ rest))
    (hstore : Throughout (move setup) (fun v _ => v.state.world.StoreUp) c moves)
    (h : Finishes setup i rest a c c' moves) : c.mailedBy setup i moves = a.mailDue := by
  obtain ⟨e, he, hfirst⟩ : ∃ e, c.tasks[i]? = some (e :: rest) ∧
      (e = .sendIfComplete a ∧ a.isForwarded = true ∨ e = .ring ∧ a.mailDue = []) := by
    cases ha : a.isForwarded with
    | true =>
      rw [ha] at hi
      exact ⟨_, hi, .inl ⟨rfl, rfl⟩⟩
    | false =>
      rw [ha] at hi
      exact ⟨_, hi, .inr ⟨rfl, by simp [Attachment.mailDue, ha]⟩⟩
  refine (call_records
    (G := fun _ x l => x = .sendIfComplete a ∧ a.isForwarded = true ∧ l = [] ∨
      x = .sendMail a.account ∧ a.isForwarded = true ∧ l = [] ∨ x = .ring ∧ l = a.mailDue)
    (E := fun l => l = a.mailDue) (fun v m v' x l hG _ => hG)
    (fun v v' x l hG hx hup hlook _ => ?_) he ?_ (fun earlier m later v hmoves hv =>
      ⟨⟨h.lasts earlier m later v hmoves hv, hstore earlier m later v hmoves hv⟩,
        h.looks earlier m later v hmoves hv⟩) h.runs).2 h.ends
  · rcases hG with ⟨rfl, ha, rfl⟩ | ⟨rfl, ha, rfl⟩ | ⟨rfl, rfl⟩
    · rw [Errand.perform_sendIfComplete hup (hlook rfl hx)]
      refine ⟨fun y hy => .inr (.inl ?_), fun hnil => ?_⟩
      · obtain ⟨rfl, -⟩ := List.cons.inj hy
        exact ⟨rfl, ha, rfl⟩
      · cases hnil
    · refine ⟨fun y hy => .inr (.inr ?_), fun hnil => ?_⟩
      · obtain ⟨rfl, -⟩ := List.cons.inj hy
        exact ⟨rfl, by simp [Attachment.mailDue, ha, Errand.mails]⟩
      · cases hnil
    · refine ⟨fun y hy => ?_, fun _ => rfl⟩
      cases hy
  · rcases hfirst with ⟨rfl, ha⟩ | ⟨rfl, ha⟩
    · exact .inl ⟨rfl, ha, rfl⟩
    · exact .inr (.inr ⟨rfl, ha.symm⟩)

/-- **A call that has closed its record comes to its end** by turns of its own. -/
theorem finishes_of_closed {a : Attachment} (n : Nat) (hi : c.tasks[i]? = some (e :: rest))
    (hleft : 0 < e.turnsLeft) (hn : e.turnsLeft ≤ n) (hup : c.state.world.StoreUp)
    (hcomplete : c.lacks a.message = false) :
    ∃ k c', Finishes setup i rest a c c' (List.replicate k (.turn i)) := by
  induction n generalizing c e with
  | zero => omega
  | succ n ih =>
    obtain ⟨c₁, hmove⟩ := turn_of_free setup hi (Errand.isHeldUp_of_turnsLeft c.state hleft)
    obtain ⟨hstate, htask, -⟩ := turn_of_call hup hi hmove
    obtain ⟨hworld, hnext⟩ := Errand.perform_of_turnsLeft setup c.state hleft
    rw [← hstate] at hworld
    rcases hnext with hnil | ⟨x, hx, hleft', hlt⟩
    · rw [hnil] at htask
      refine ⟨1, c₁, ⟨?_, ?_, ?_, htask⟩⟩
      · exact (follow_cons hmove).trans rfl
      · exact throughout_cons_of ⟨e, hi⟩ hmove (throughout_nil c₁)
      · exact throughout_cons_of (fun _ _ => hcomplete) hmove (throughout_nil c₁)
    · rw [hx] at htask
      obtain ⟨k, c', hfinishes⟩ := ih htask hleft' (by omega) (by rw [hworld]; exact hup)
        (by rw [lacks, hworld]; exact hcomplete)
      refine ⟨k + 1, c', ⟨(follow_cons hmove).trans hfinishes.runs, ?_, ?_, hfinishes.ends⟩⟩
      · exact throughout_cons_of ⟨e, hi⟩ hmove hfinishes.lasts
      · exact throughout_cons_of (fun _ _ => hcomplete) hmove hfinishes.looks

/-- What a call has come to when it has completed a message: no mail is sent, and the look whether
the message is complete comes next if the record that it found is forwarded. -/
theorem records_of_completes {report : Report} {a : Attachment} {before between : List CrewMove}
    (hc : c.Legible)
    (hstore : Throughout (move setup) (fun v _ => v.state.world.StoreUp) c
      (callOf i before between))
    (h : Completes setup i report rest a c c' before between) :
    c.run setup (callOf i before between) = some c' ∧
      c.mailedBy setup i (callOf i before between) = [] ∧
      c'.tasks[i]? =
        some ((if a.isForwarded then [.sendIfComplete a] else [.ring]) ++ rest) := by
  obtain ⟨v, r, hbefore, hlook, hfound⟩ := h.finds
  obtain ⟨u, hbetween, hlacked, hclose, hcomplete⟩ := h.turns
  have hlasts : Throughout (move setup) (fun v _ => v.InCall i rest ∧ v.state.world.StoreUp) c
      (callOf i before between) := fun earlier m later x hmoves hx =>
    ⟨h.lasts earlier m later x hmoves hx, hstore earlier m later x hmoves hx⟩
  have hrun : c.run setup (callOf i before between) = some c' := by
    rw [run, callOf, follow_append hbetween, follow_cons hclose]
    rfl
  obtain ⟨hlasts₁, hlasts₃⟩ := throughout_append hbetween hlasts
  obtain ⟨hlasts₀, hlasts₁⟩ := throughout_append hbefore hlasts₁
  -- up to the look-up nothing is sent, and the look-up is that of the record reported on
  obtain ⟨⟨hid, -⟩, hmails₀⟩ := records_of_success hc h.takes h.status hlasts₀ hbefore hlook rfl
  -- the look-up leads to the closing of that record
  rw [run, follow_append hbefore] at hbetween
  obtain ⟨v', hturn, hbetween'⟩ := follow_cons_eq_some hbetween
  obtain ⟨⟨-, hup₁⟩, hlasts₂⟩ := throughout_cons hturn hlasts₁
  obtain ⟨-, htask, hmails₁⟩ := turn_of_call hup₁ hlook hturn
  rw [Errand.next_conclude hup₁ (by rw [hid]; exact hfound)] at htask
  -- and it is this closing that completes the message: nothing after it changes a record
  obtain ⟨⟨⟨x, hx⟩, hup₂⟩, -⟩ := throughout_cons hclose hlasts₃
  obtain ⟨hstate, htask', hmails₃⟩ := turn_of_call hup₂ hx hclose
  obtain ⟨rfl, hmails₂⟩ :
      x = .close .success (some a) false ∧ v'.mailedBy setup i between = [] := by
    refine (records_of_found htask hlasts₂ hbetween' hx).resolve_right fun hlate => ?_
    have hworld := (Errand.perform_of_turnsLeft setup u.state hlate).1
    rw [lacks, hstate, hworld] at hcomplete
    exact Bool.false_ne_true (hcomplete.symm.trans hlacked)
  rw [Errand.next_close] at htask'
  refine ⟨hrun, ?_, htask'⟩
  have hall : c.mailedBy setup i (callOf i before between) =
      u.mailed setup i (.turn i) ++ (v'.mailedBy setup i between ++
        (v.mailed setup i (.turn i) ++ c.mailedBy setup i before)) := by
    unfold mailedBy callOf
    rw [List.append_assoc, recorded_append hbefore, List.cons_append, recorded_cons hturn,
      recorded_append hbetween', recorded_cons hclose]
    simp only [List.append_assoc]
    rfl
  rw [hall, hmails₀, hmails₁, hmails₂, hmails₃]
  rfl

/-- **What a call sends that makes a message complete.** The call comes to its end by turns of its
own, and whenever it does, in any interleaving with other tasks, it has sent the mail of the account
if the record that it found is forwarded, and nothing otherwise, whatever was forwarded before. The
store answers all the time. -/
theorem mail_of_completion (setup : Setup) (w : World) (moves before between : List CrewMove)
    (c c' : Crew) (i : Nat) (report : Report) (rest : List Errand) (a : Attachment)
    (hw : w.StoreUp) (hup : ∀ w', .world w' ∈ moves ++ callOf i before between → w'.StoreUp)
    (h : (fresh w).run setup moves = some c)
    (hcall : Completes setup i report rest a c c' before between) :
    (∃ n c'', Finishes setup i rest a c' c'' (List.replicate n (.turn i))) ∧
      ∀ after c'', (∀ w', .world w' ∈ after → w'.StoreUp) →
        Finishes setup i rest a c' c'' after →
          c.mailedBy setup i (callOf i before between ++ after) = a.mailDue := by
  have hstart : c.state.world.StoreUp :=
    storeUp_run (c := fresh w) hw (fun w' hw' => hup w' (List.mem_append_left _ hw')) h
  have hcallUp : ∀ w', .world w' ∈ callOf i before between → w'.StoreUp :=
    fun w' hw' => hup w' (List.mem_append_right _ hw')
  obtain ⟨hrun, hnone, htask⟩ := records_of_completes (legible_run h)
    (storeUp_throughout setup hstart hcallUp) hcall
  have hstore : c'.state.world.StoreUp := storeUp_run hstart hcallUp hrun
  obtain ⟨u, -, -, -, hcomplete⟩ := hcall.turns
  refine ⟨?_, fun after c'' hafter hfinishes => ?_⟩
  · cases ha : a.isForwarded with
    | true =>
      rw [ha] at htask
      exact finishes_of_closed 3 htask (Nat.zero_lt_succ 2) (Nat.le_refl 3) hstore hcomplete
    | false =>
      rw [ha] at htask
      exact finishes_of_closed 1 htask Nat.one_pos (Nat.le_refl 1) hstore hcomplete
  · have hmails := records_of_closed htask (storeUp_throughout setup hstore hafter) hfinishes
    have hall : c.mailedBy setup i (callOf i before between ++ after) =
        c'.mailedBy setup i after ++ c.mailedBy setup i (callOf i before between) :=
      recorded_append hrun
    rw [hall, hnone, hmails, List.append_nil]

/-- A world with two attachments of one message, one forwarded and one asked for. -/
def mixedWorld : World where
  records := .ofSeed
    { attachments :=
        [{ id := 1, message := 10, account := 1, flags := .forward },
          { id := 2, message := 10, account := 1, flags := .requested }] }

/-- Settings under which an account has two transfers at once. -/
def twoAtOnce : Setup where
  settings := { maxPerAccount := 2 }

/-- Both attachments are handed over. -/
def bothHandedOver : List CrewMove :=
  .begin .rescan :: List.replicate 4 (.turn 0) ++ .begin .round :: List.replicate 13 (.turn 1)

/-- The transfer of one of the attachments reports its success. -/
def succeeds (id : Int) : CrewMove := .begin (.report ⟨10, id, .success, 100⟩)

/-- The forwarded attachment comes last, and the message is sent. -/
theorem mail_of_completion_forwarded :
    ∃ c n, (fresh mixedWorld).run twoAtOnce
        (bothHandedOver ++ succeeds 2 :: List.replicate 5 (.turn 2) ++ [succeeds 1]) = some c ∧
      c.mailedBy twoAtOnce 3
        (callOf 3 [.turn 3, .turn 3] [] ++ List.replicate n (.turn 3)) = [1] := by
  obtain ⟨⟨n, c'', hfinishes⟩, hmails⟩ := mail_of_completion twoAtOnce mixedWorld
    (bothHandedOver ++ succeeds 2 :: List.replicate 5 (.turn 2) ++ [succeeds 1])
    [.turn 3, .turn 3] [] _ _ 3 ⟨10, 1, .success, 100⟩ [] _ (List.forall_mem_nil _)
    (by simp [bothHandedOver, succeeds, callOf]) rfl
    ⟨rfl, rfl, throughout_cons_of ⟨_, rfl⟩ rfl (throughout_cons_of ⟨_, rfl⟩ rfl
      (throughout_cons_of ⟨_, rfl⟩ rfl (throughout_cons_of ⟨_, rfl⟩ rfl (throughout_nil _)))),
      ⟨_, _, rfl, rfl, rfl⟩, ⟨_, rfl, rfl, rfl, rfl⟩⟩
  exact ⟨_, n, rfl, hmails _ c'' (by simp) hfinishes⟩

/-! ### A message that stays where it is -/

/-- **Mail is due for a message** since an earlier call entered a success into a forwarded record of
it: none has been sent for the account since. -/
def Owes (setup : Setup) (w : World) (moves : List CrewMove) (c : Crew) (message account : Int) :
    Prop :=
  ∃ earlier j later v v' b rest, moves = earlier ++ .turn j :: later ∧
    (fresh w).run setup earlier = some v ∧
    v.tasks[j]? = some (.close .success (some b) false :: rest) ∧
    v.move setup (.turn j) = some v' ∧ b.isForwarded = true ∧ b.message = message ∧
    c.state.mails.count account = v'.state.mails.count account

/-- **Outgoing mail is never forgotten**: a call that makes a message complete sends it if the
record that it found is forwarded, or if an earlier one was and no mail has been sent since. -/
def ForgetsNoMail (setup : Setup) (w : World) : Prop :=
  ∀ moves before between after c c' c'' i report rest a, w.StoreUp →
    (∀ w', .world w' ∈ moves ++ (callOf i before between ++ after) → w'.StoreUp) →
      (fresh w).run setup moves = some c →
        Completes setup i report rest a c c' before between →
          Finishes setup i rest a c' c'' after →
            a.isForwarded = true ∨ Owes setup w moves c a.message a.account →
              a.account ∈ c.mailedBy setup i (callOf i before between ++ after)

/-- **A message may be complete and stay where it is.** The forwarded attachment comes first, when
the other one is still missing; and that one, which comes last, was not forwarded. -/
theorem not_forgets_no_mail : ¬ ForgetsNoMail twoAtOnce mixedWorld := by
  intro hsends
  obtain ⟨c, hrun, hmails⟩ : ∃ c, (fresh mixedWorld).run twoAtOnce
      (bothHandedOver ++ succeeds 1 :: List.replicate 6 (.turn 2) ++ [succeeds 2]) = some c ∧
      c.mailedBy twoAtOnce 3 (callOf 3 [.turn 3, .turn 3] [] ++ [.turn 3]) = [] := ⟨_, rfl, rfl⟩
  have hmail : (1 : Int) ∈
      c.mailedBy twoAtOnce 3 (callOf 3 [.turn 3, .turn 3] [] ++ [.turn 3]) := by
    obtain rfl := Option.some.inj hrun
    refine hsends (bothHandedOver ++ succeeds 1 :: List.replicate 6 (.turn 2) ++ [succeeds 2])
      [.turn 3, .turn 3] [] [.turn 3] _ _ _ 3 ⟨10, 2, .success, 100⟩ [] _ (List.forall_mem_nil _)
      (by simp [bothHandedOver, succeeds, callOf]) rfl
      ⟨rfl, rfl, ?_, ⟨_, _, rfl, rfl, rfl⟩, ⟨_, rfl, rfl, rfl, rfl⟩⟩ ⟨rfl, ?_, ?_, rfl⟩ (.inr ?_)
    · exact throughout_cons_of ⟨_, rfl⟩ rfl (throughout_cons_of ⟨_, rfl⟩ rfl
        (throughout_cons_of ⟨_, rfl⟩ rfl (throughout_cons_of ⟨_, rfl⟩ rfl (throughout_nil _))))
    · exact throughout_cons_of ⟨_, rfl⟩ rfl (throughout_nil _)
    · exact throughout_cons_of (fun _ _ => rfl) rfl (throughout_nil _)
    · exact ⟨bothHandedOver ++ succeeds 1 :: List.replicate 3 (.turn 2), 2,
        [.turn 2, .turn 2, succeeds 2], _, _, _, [], rfl, rfl, rfl, rfl, rfl, rfl, rfl⟩
  rw [hmails] at hmail
  cases hmail

end Crew

end MailFetch

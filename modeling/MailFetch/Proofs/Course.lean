import MailFetch.Scheduler.Perform
import Mathlib.Tactic.Common

/-! # The course of a task

What a task does next depends on answers of the world, but only few courses are possible.
`Errand.Leads` lists them for every errand, whatever the state is, and `Errand.perform_leads` says
that there are no others. So what is said of all errands that a task can come to is shown along the
course, and looks at no answer.

`InLine` says that the errand whose turn it is has a property of the state, and that the errands
after it will have it in any state from then on. -/

namespace MailFetch

/-- The errands of a task after a turn of its first. -/
def Turn.left (t : Turn) (rest : List Errand) : List Errand :=
  if t.collapses then [] else t.next ++ rest

theorem Turn.mem_left {t : Turn} {rest : List Errand} {e : Errand} (h : e ∈ t.left rest) :
    e ∈ t.next ∨ e ∈ rest := by
  unfold Turn.left at h
  split_ifs at h
  · cases h
  · exact List.mem_append.mp h

namespace Errand

/-! ### Where an errand leads -/

/-- What the answer about a budget can lead to. -/
def LeadsOn (l : List Errand) (asker : Asker) : Prop :=
  (asker = .caller ∧ ∃ yes, l = [answer (.mayFetch yes)]) ∨
    ∃ a rest, asker = .round a rest ∧ (l = [claim a rest] ∨ l = [consider rest])

theorem leadsOn_afterBudget (yes : Bool) (asker : Asker) :
    LeadsOn (afterBudget yes asker) asker := by
  cases asker with
  | caller => exact .inl ⟨rfl, yes, rfl⟩
  | round a rest =>
    cases yes with
    | true => exact .inr ⟨a, rest, rfl, .inl rfl⟩
    | false => exact .inr ⟨a, rest, rfl, .inr rfl⟩

/-- **What an errand can lead to**: the lists of errands that its task may have to do next. -/
def Leads (l : List Errand) : Errand → Prop
  | review a => l = [] ∨ l = [refuse a]
  | refuse _ => l = [ring]
  | sweep =>
    (∃ e, l = [answer (.notSwept e)]) ∨
      ∃ found : List Attachment, l = found.map review ++ [answer (.swept found.length)]
  | applyNotice _ _ => l = [] ∨ ∃ a, l = [review a]
  | beginRound => l = [takeNext []]
  | takeNext aside =>
    l = [putBack aside] ∨ ∃ r, l = [screen r aside] ∨ l = [takeNext (aside ++ [r])]
  | screen r aside =>
    l = [takeNext aside] ∨ l = [takeNext (aside ++ [r])] ∨ l = [putBack (aside ++ [r])] ∨
      ∃ now, l = [handOver (r.dispatch now) (.queue aside)]
  | handOver r onward =>
    ∃ accepted,
      l = [landed r accepted onward] ∨ ∃ report, l = [hear report, landed r accepted onward]
  | landed _ _ onward =>
    onward = .done ∧ l = [] ∨
      ∃ aside, onward = .queue aside ∧ (l = [takeNext aside] ∨ l = [putBack aside])
  | putBack _ => l = [endRound] ∨ l = [lookAhead, endRound]
  | lookAhead => l = [] ∨ l = [browse]
  | browse => l = [] ∨ ∃ found, l = [consider found]
  | consider candidates => l = [] ∨ ∃ a rest, candidates = a :: rest ∧ l = [vet a rest]
  | vet a rest =>
    l = [discard a.id, consider rest] ∨ l = [consider rest] ∨ l = [claim a rest] ∨
      ∃ account, l = [budget account (.round a rest)]
  | budget account asker => LeadsOn l asker ∨ ∃ total, l = [share account total asker]
  | share _ _ asker => LeadsOn l asker
  | claim a rest =>
    l = [consider rest] ∨ ∃ now, l = [handOver ((a.request .background now).dispatch now) .done]
  | hear r =>
    l = [] ∨ l = [settle r.id r.status] ∨ l = [recordProgress r.id r.percent]
  | recordProgress id percent => l = [] ∨ ∃ size, l = [write id (.progress size percent)]
  | settle _ status => l = [] ∨ ∃ r, l = [conclude r status]
  | conclude r status =>
    l = [] ∨ ∃ record, l = [askParent r record] ∨ l = [expunge r.id status record] ∨
      l = [close status record false]
  | askParent r record =>
    l = [] ∨ l = [expunge r.id .messageNotFound record] ∨ l = [close .messageNotFound record false]
  | expunge _ status record => ∃ deleted, l = [close status record deleted]
  | close _ _ _ => l = [] ∨ l = [ring] ∨ ∃ a, l = [sendIfComplete a]
  | sendIfComplete a => l = [ring] ∨ l = [sendMail a.account]
  | sendMail _ => l = [ring]
  | tick timeout => l = [] ∨ l = [rearm timeout] ∨ l = [beginRound, rearm timeout]
  | loop => l = [] ∨ l = [beginRound, pause] ∨ l = [loop] ∨ l = [awaitNetwork]
  | awaitNetwork => l = [loop] ∨ l = [beginRound, pause]
  | pause => l = [] ∨ l = [loop] ∨ ∃ deadline, l = [idle deadline]
  | idle _ => l = [loop] ∨ l = [sweep, loop]
  | listen => l = [] ∨ l = [listen] ∨ ∃ id flags, l = [applyNotice id flags, listen]
  | fetch _ => ∃ reports : List Report, l = reports.map hear
  | discard _ | endRound | write _ _ | ring | rearm _ | answer _ => l = []

section Perform

variable (setup : Setup) (s : State)

theorem leads_takeNext (aside : List Request) :
    (takeNext aside).Leads (doTakeNext setup s aside).next := by
  unfold doTakeNext
  split_ifs
  · exact .inl rfl
  · split
    · exact .inl rfl
    next r _ _ =>
      dsimp only
      split_ifs
      · exact .inr ⟨r, .inl rfl⟩
      · exact .inr ⟨r, .inr rfl⟩

theorem leads_screen (r : Request) (aside : List Request) :
    (screen r aside).Leads (doScreen setup s r aside).next := by
  unfold doScreen
  split
  · exact .inl rfl
  · exact .inr (.inl rfl)
  · dsimp only
    split_ifs
    · exact .inr (.inl rfl)
    · exact .inr (.inr (.inl rfl))
    · exact .inr (.inr (.inr ⟨_, rfl⟩))

theorem leads_handOver (r : Request) (onward : Onward) :
    (handOver r onward).Leads (doHandOver s r onward).next := by
  unfold doHandOver
  split
  · dsimp only
    split
    · split_ifs
      · exact ⟨_, .inr ⟨_, rfl⟩⟩
      · exact ⟨_, .inl rfl⟩
    · exact ⟨_, .inl rfl⟩
  · split <;> exact ⟨_, .inl rfl⟩

theorem leads_landed (r : Request) (accepted : Bool) (onward : Onward) :
    (landed r accepted onward).Leads (doLanded setup s r accepted onward).next := by
  unfold doLanded
  cases onward with
  | queue aside =>
    split_ifs
    · exact .inr ⟨aside, rfl, .inl rfl⟩
    · exact .inr ⟨aside, rfl, .inr rfl⟩
  | done =>
    split_ifs <;> exact .inl ⟨rfl, rfl⟩

theorem leads_vet (a : Attachment) (rest : List Attachment) :
    (vet a rest).Leads (doVet setup s a rest).next := by
  unfold doVet
  split
  · exact .inl rfl
  · exact .inr (.inl rfl)
  · split_ifs
    · exact .inr (.inl rfl)
    · exact .inr (.inr (.inl rfl))
    · exact .inr (.inr (.inr ⟨_, rfl⟩))

theorem leads_budget (account : Account) (asker : Asker) :
    (budget account asker).Leads (doBudget setup s account asker).next := by
  unfold doBudget
  split_ifs
  · exact .inl (leadsOn_afterBudget _ _)
  · split
    · exact .inl (leadsOn_afterBudget _ _)
    · split_ifs
      · exact .inl (leadsOn_afterBudget _ _)
      · exact .inr ⟨_, rfl⟩

theorem leads_share (account : Account) (total : Nat) (asker : Asker) :
    (share account total asker).Leads (doShare setup s account total asker).next := by
  unfold doShare
  split
  · exact leadsOn_afterBudget _ _
  · dsimp only
    split
    · exact leadsOn_afterBudget _ _
    · split <;> exact leadsOn_afterBudget _ _

theorem leads_settle (id : Int) (status : Status) :
    (settle id status).Leads (doSettle setup s id status).next := by
  unfold doSettle
  split
  · exact .inl rfl
  · dsimp only
    split_ifs
    · split <;> exact .inl rfl
    · exact .inr ⟨_, rfl⟩

theorem leads_conclude (r : Request) (status : Status) :
    (conclude r status).Leads (doConclude s r status).next := by
  unfold doConclude
  split
  · exact .inl rfl
  · split_ifs
    · exact .inr ⟨_, .inl rfl⟩
    · exact .inr ⟨_, .inr (.inl rfl)⟩
    · exact .inr ⟨_, .inr (.inr rfl)⟩

theorem leads_askParent (r : Request) (record : Option Attachment) :
    (askParent r record).Leads (doAskParent setup s r record).next := by
  unfold doAskParent
  split
  · exact .inl rfl
  · exact .inr (.inl rfl)
  · exact .inr (.inr rfl)

theorem leads_close (status : Status) (record : Option Attachment) (deleted : Bool) :
    (close status record deleted).Leads (doClose s status record deleted).next := by
  unfold doClose
  split
  · exact .inl rfl
  · dsimp only
    split_ifs
    · exact .inr (.inr ⟨_, rfl⟩)
    · exact .inr (.inl rfl)

theorem leads_tick (timeout : Nat) : (tick timeout).Leads (doTick setup s timeout).next := by
  unfold doTick
  split_ifs
  · exact .inl rfl
  · dsimp only
    split_ifs
    · exact .inr (.inr rfl)
    · exact .inr (.inl rfl)

end Perform

/-- **An errand leads to nothing else.** -/
theorem perform_leads (setup : Setup) (s : State) (e : Errand) :
    e.Leads (e.perform setup s).next := by
  cases e with
  | review a =>
    unfold perform doReview
    dsimp only
    split
    · exact .inl rfl
    · exact .inl rfl
    · exact .inr rfl
    · exact .inl rfl
  | sweep =>
    unfold perform doSweep
    dsimp only
    split
    · exact .inl ⟨_, rfl⟩
    · exact .inr ⟨_, rfl⟩
  | applyNotice id flags =>
    unfold perform doApplyNotice
    dsimp only
    split_ifs
    · exact .inl rfl
    · split
      · exact .inr ⟨_, rfl⟩
      · exact .inl rfl
  | takeNext aside => exact leads_takeNext setup s aside
  | screen r aside => exact leads_screen setup s r aside
  | handOver r onward => exact leads_handOver s r onward
  | landed r accepted onward => exact leads_landed setup s r accepted onward
  | putBack aside =>
    unfold perform doPutBack
    dsimp only
    split_ifs
    · exact .inl rfl
    · exact .inr rfl
  | lookAhead =>
    unfold perform doLookAhead
    dsimp only
    split_ifs
    · exact .inl rfl
    · exact .inl rfl
    · exact .inr rfl
  | browse =>
    unfold perform doBrowse
    dsimp only
    split
    · exact .inl rfl
    · exact .inr ⟨_, rfl⟩
  | consider candidates =>
    unfold perform doConsider
    dsimp only
    split
    · exact .inl rfl
    · split_ifs
      · exact .inl rfl
      · exact .inr ⟨_, _, rfl, rfl⟩
  | vet a rest => exact leads_vet setup s a rest
  | budget account asker => exact leads_budget setup s account asker
  | share account total asker => exact leads_share setup s account total asker
  | claim a rest =>
    unfold perform doClaim
    dsimp only
    split_ifs
    · exact .inl rfl
    · exact .inr ⟨_, rfl⟩
  | hear report =>
    unfold perform doHear
    dsimp only
    split
    · exact .inl rfl
    · dsimp only
      split_ifs
      · exact .inr (.inl rfl)
      · exact .inr (.inr rfl)
      · exact .inl rfl
  | recordProgress id percent =>
    unfold perform doRecordProgress
    dsimp only
    split
    · exact .inr ⟨_, rfl⟩
    · exact .inl rfl
  | settle id status => exact leads_settle setup s id status
  | conclude r status => exact leads_conclude s r status
  | askParent r record => exact leads_askParent setup s r record
  | expunge id status record => exact ⟨_, rfl⟩
  | close status record deleted => exact leads_close s status record deleted
  | sendIfComplete a =>
    unfold perform doSendIfComplete
    dsimp only
    split
    · exact .inr rfl
    · exact .inl rfl
  | tick timeout => exact leads_tick setup s timeout
  | rearm timeout =>
    unfold perform doRearm
    dsimp only
    split_ifs <;> rfl
  | loop =>
    unfold perform doLoop listenFor
    dsimp only
    split_ifs
    · exact .inl rfl
    · exact .inr (.inl rfl)
    · exact .inr (.inr (.inl rfl))
    · exact .inr (.inr (.inr rfl))
  | awaitNetwork =>
    unfold perform endWait
    dsimp only
    split_ifs
    · exact .inl rfl
    · exact .inr rfl
  | pause =>
    unfold perform doPause listenFor
    dsimp only
    split_ifs
    · exact .inl rfl
    · exact .inr (.inl rfl)
    · exact .inr (.inr ⟨_, rfl⟩)
  | idle deadline =>
    unfold perform endWait
    dsimp only
    split_ifs
    · exact .inl rfl
    · exact .inr rfl
  | listen =>
    unfold perform doListen
    dsimp only
    split
    · exact .inr (.inl rfl)
    · split
      · exact .inr (.inr ⟨_, _, rfl⟩)
      · exact .inl rfl
  | fetch job =>
    unfold perform doFetch
    dsimp only
    split
    · exact ⟨[], rfl⟩
    · exact ⟨_, rfl⟩
  | refuse _ | beginRound | discard _ | endRound | write _ _ | sendMail _ | ring | answer _ =>
    exact rfl

/-- A request is handed over right after it has been screened or claimed. -/
theorem Leads.of_handOver {e : Errand} {l : List Errand} (hl : e.Leads l) {r : Request}
    {onward : Onward} (h : handOver r onward ∈ l) :
    (∃ r₀ aside now, e = screen r₀ aside ∧ r = Request.dispatch r₀ now) ∨
      ∃ a rest now, e = claim a rest ∧ r = (a.request .background now).dispatch now := by
  cases e <;> grind [Leads, LeadsOn]

/-- Ticks come from outside. -/
theorem Leads.not_tick {e : Errand} {l : List Errand} (hl : e.Leads l) {timeout : Nat} :
    tick timeout ∉ l := by
  cases e <;> grind [Leads, LeadsOn]

/-- The alarm is set again after a tick. -/
theorem Leads.of_rearm {e : Errand} {l : List Errand} (hl : e.Leads l) {timeout : Nat}
    (h : rearm timeout ∈ l) : e = tick timeout := by
  cases e <;> grind [Leads, LeadsOn]

/-- Notices are taken up by the worker. -/
theorem Leads.of_notice {e x : Errand} {l : List Errand} (hl : e.Leads l) (h : x ∈ l)
    (hx : x = listen ∨ ∃ id flags, x = applyNotice id flags) : e = listen := by
  cases e <;> grind [Leads, LeadsOn]

/-- The only tasks that an errand starts beside it are transfers over the web. -/
theorem perform_started (setup : Setup) (s : State) (e : Errand) :
    ∀ task ∈ (e.perform setup s).started, ∃ job, task = [fetch job] := by
  cases e with
  | handOver r onward =>
    unfold perform doHandOver
    dsimp only
    split
    · exact List.forall_mem_nil _
    · split
      · exact List.forall_mem_nil _
      next job _ => exact fun task htask => ⟨job, List.mem_singleton.mp htask⟩
  | _ =>
    simp only [perform, doReview, doRefuse, doSweep, doApplyNotice, doBeginRound, doTakeNext,
      doScreen, doLanded, doPutBack, doLookAhead, doBrowse, doConsider, doVet, doDiscard, doBudget,
      doShare, doClaim, doEndRound, doHear, doRecordProgress, doSettle, doConclude, doAskParent,
      doExpunge, doClose, doSendIfComplete, doSendMail, doTick, doRearm, doLoop, listenFor, endWait,
      doPause, doListen, doFetch]
    repeat' split
    all_goals exact List.forall_mem_nil _

/-- Only a look-up of a reported change brings its task down. -/
theorem perform_collapses {setup : Setup} {s : State} {e : Errand}
    (h : (e.perform setup s).collapses = true) :
    (∃ id flags, e = applyNotice id flags) ∧ (e.perform setup s).next = [] := by
  revert h
  cases e with
  | applyNotice id flags =>
    unfold perform doApplyNotice
    dsimp only
    split_ifs
    · exact fun _ => ⟨⟨id, flags, rfl⟩, rfl⟩
    · split
      · intro h
        cases h
      · intro h
        cases h
  | _ =>
    simp only [perform, doReview, doRefuse, doSweep, doBeginRound, doTakeNext, doScreen, doHandOver,
      doLanded, doPutBack, doLookAhead, doBrowse, doConsider, doVet, doDiscard, doBudget, doShare,
      doClaim, doEndRound, doHear, doRecordProgress, doSettle, doConclude, doAskParent, doExpunge,
      doClose, doSendIfComplete, doSendMail, doTick, doRearm, doLoop, listenFor, endWait, doPause,
      doListen, doFetch]
    repeat' split
    all_goals
      intro h
      cases h

/-- Whether an errand may bring its task down. -/
def mayCollapse : Errand → Bool
  | applyNotice _ _ => true
  | _ => false

/-- After any other errand, its task goes on with what the errand leads to. -/
theorem left_perform (setup : Setup) (s : State) {e : Errand} (rest : List Errand)
    (he : e.mayCollapse = false) :
    (e.perform setup s).left rest = (e.perform setup s).next ++ rest := by
  refine if_neg fun hcollapses => ?_
  obtain ⟨⟨id, flags, rfl⟩, -⟩ := perform_collapses hcollapses
  cases he

/-! ### The errand whose turn it is, and those after it -/

/-- The first errand of a list has a property in the state at hand, and the others have it in
any state, though not at an earlier time. -/
def InLine (P : State → Errand → Prop) (s : State) : List Errand → Prop
  | [] => True
  | e :: rest => P s e ∧ ∀ x ∈ rest, ∀ t, s.world.now ≤ t.world.now → P t x

section InLine

variable {P : State → Errand → Prop} {s t : State} {l rest : List Errand}

theorem InLine.append (h : InLine P s l)
    (hrest : ∀ x ∈ rest, ∀ t, s.world.now ≤ t.world.now → P t x) : InLine P s (l ++ rest) := by
  cases l with
  | cons e l =>
    refine ⟨h.1, fun x hx => ?_⟩
    rcases List.mem_append.mp hx with hx | hx
    · exact h.2 x hx
    · exact hrest x hx
  | nil =>
    cases rest with
    | nil => trivial
    | cons e rest =>
      exact ⟨hrest e List.mem_cons_self s (Nat.le_refl _), fun x hx => hrest x (.tail _ hx)⟩

theorem inLine_of_forall (h : ∀ x ∈ l, ∀ t, s.world.now ≤ t.world.now → P t x) : InLine P s l :=
  InLine.append (l := []) trivial h

theorem inLine_singleton {e : Errand} (h : P s e) : InLine P s [e] := ⟨h, List.forall_mem_nil _⟩

/-- A list stays in line as time goes on, if its first errand keeps the property. -/
theorem InLine.later (h : InLine P s l) (hle : s.world.now ≤ t.world.now)
    (hkeeps : ∀ e, P s e → P t e) : InLine P t l := by
  cases l with
  | nil => trivial
  | cons e rest => exact ⟨hkeeps e h.1, fun x hx u hu => h.2 x hx u (Nat.le_trans hle hu)⟩

/-- After a turn, what is left of the task is in line. -/
theorem InLine.left {u : Turn} (h : InLine P s u.next)
    (hrest : ∀ x ∈ rest, ∀ t, s.world.now ≤ t.world.now → P t x) : InLine P s (u.left rest) := by
  unfold Turn.left
  split_ifs
  · trivial
  · exact h.append hrest

end InLine

end Errand

end MailFetch

import Mathlib.Algebra.Ring.Nat
import MailFetch.Proofs.Aloft
import MailFetch.Proofs.Desk

/-! # What is entered into the ledgers

The ledgers are kept by errands at different times: the end of a transfer is entered when its
request is settled, its bytes when its record is closed, and an exact count when a round asks for
the share of an account. A history says what there is to enter, whatever the ledgers say: that a
transfer in flight has reported its end, that the record of a successful one was found, that stored
bytes were counted (`Errand.posting`).

* `FailureLedger.Shows`, `UsageLedger.Shows`: a ledger tells what a history amounts to.
* `Errand.perform_ledgers` and its fellows: which errands enter something, and what. -/

namespace MailFetch

/-! ### Histories -/

/-- **What the ledgers have to tell of.** -/
inductive Posting
  /-- A transfer in flight has reported its end. -/
  | ended (id : Int) (status : Status)
  /-- The record of a transfer that has succeeded was found. -/
  | loaded (id account : Int) (size : Nat)
  /-- The bytes stored for an account were counted. -/
  | counted (account : Int) (bytes : Nat)
deriving DecidableEq

namespace Posting

/-- How the transfer of an attachment has ended. -/
def endOf (id : Int) : Posting → Option Status
  | ended i status => if i = id then some status else none
  | _ => none

/-- The bytes that have come for an account. -/
def loadOf (account : Int) : Posting → Option Nat
  | loaded _ a size => if a = account then some size else none
  | _ => none

/-- The bytes that were counted for an account. -/
def countOf (account : Int) : Posting → Option Nat
  | counted a bytes => if a = account then some bytes else none
  | _ => none

end Posting

/-- The ends of transfers of an attachment since its last success, of a history that is told the
latest first. -/
def failuresIn (ps : List Posting) (id : Int) : Nat :=
  ((ps.filterMap (·.endOf id)).takeWhile (· ≠ .success)).length

/-- The bytes that have come for an account since its last count, the latest first. -/
def loadsIn (ps : List Posting) (account : Int) : List Nat :=
  (ps.takeWhile fun p => p.countOf account = none).filterMap (·.loadOf account)

/-- **The bytes that a history gives an account**: its last count, or nothing, and what has come
since, up to the largest number. Without a count nor anything that has come there is no entry. -/
def usageIn (ps : List Posting) (account : Int) : Option Nat :=
  match ps.findSome? (·.countOf account), loadsIn ps account with
  | none, [] => none
  | count, loads =>
    some (loads.foldr (fun size total => min (total + size) maxBytes) (count.getD 0))

section Histories

variable (ps : List Posting) (id account : Int)

theorem failuresIn_ended (i : Int) (status : Status) :
    failuresIn (.ended i status :: ps) id =
      if i = id then if status = .success then 0 else failuresIn ps id + 1
      else failuresIn ps id := by
  by_cases hi : i = id
  · by_cases hs : status = .success <;> simp [failuresIn, Posting.endOf, hi, hs]
  · simp [failuresIn, Posting.endOf, hi]

/-- What tells of no end does not change the failures. -/
theorem failuresIn_other {p : Posting} (hp : ∀ i status, p ≠ .ended i status) :
    failuresIn (p :: ps) id = failuresIn ps id := by
  cases p with
  | ended i status => exact absurd rfl (hp i status)
  | _ => rfl

theorem usageIn_counted (a : Int) (bytes : Nat) :
    usageIn (.counted a bytes :: ps) account =
      if a = account then some bytes else usageIn ps account := by
  by_cases ha : a = account <;> simp [usageIn, loadsIn, Posting.countOf, Posting.loadOf, ha]

theorem usageIn_loaded (i a : Int) (size : Nat) :
    usageIn (.loaded i a size :: ps) account =
      if a = account then some (min ((usageIn ps account).getD 0 + size) maxBytes)
      else usageIn ps account := by
  by_cases ha : a = account
  · have hloads : loadsIn (.loaded i a size :: ps) account = size :: loadsIn ps account := by
      simp [loadsIn, Posting.countOf, Posting.loadOf, ha]
    have hcount : (Posting.loaded i a size :: ps).findSome? (·.countOf account) =
        ps.findSome? (·.countOf account) := rfl
    rw [if_pos ha, usageIn, hloads, hcount, usageIn]
    cases ps.findSome? (·.countOf account) <;> cases loadsIn ps account <;> rfl
  · simp [usageIn, loadsIn, Posting.countOf, Posting.loadOf, ha]

theorem usageIn_ended (i : Int) (status : Status) :
    usageIn (.ended i status :: ps) account = usageIn ps account := by
  simp [usageIn, loadsIn, Posting.countOf, Posting.loadOf]

end Histories

/-! ### Ledgers and histories -/

/-- **The failure ledger tells the failures in a row**, in four bytes, and has no entry where there
are none. -/
def FailureLedger.Shows (l : FailureLedger) (ps : List Posting) : Prop :=
  ∀ id, (l.get? id).map UInt32.toNat =
    if failuresIn ps id = 0 then none else some (failuresIn ps id % 2 ^ 32)

/-- **The usage ledger tells the bytes of each account.** -/
def UsageLedger.Shows (l : UsageLedger) (ps : List Posting) : Prop :=
  ∀ account, l.get? account = usageIn ps account

namespace FailureLedger.Shows

variable {l : FailureLedger} {ps : List Posting}

theorem empty : FailureLedger.Shows {} [] := fun _ => rfl

/-- One more failure is counted on from the history, within four bytes. -/
theorem toNat_countAfter (h : l.Shows ps) (id : Int) :
    (l.countAfter id false).toNat = (failuresIn ps id + 1) % 2 ^ 32 := by
  have hid := h id
  unfold FailureLedger.countAfter
  cases hc : l.get? id with
  | none =>
    rw [hc] at hid
    split_ifs at hid with hn
    · simp [hn]
    · cases hid
  | some c =>
    rw [hc] at hid
    split_ifs at hid with hn
    · cases hid
    · have hval : c.toNat = failuresIn ps id % 2 ^ 32 := Option.some.inj hid
      have hsum : (c + 1).toNat = (c.toNat + 1) % 2 ^ 32 := by simp [UInt32.toNat_add]
      rw [Option.getD_some, if_neg (by decide), hsum, hval]
      omega

/-- The end of a transfer is entered. -/
theorem settle (h : l.Shows ps) (id : Int) (status : Status) :
    (l.settle id (status == Status.success)).Shows (.ended id status :: ps) := by
  intro i
  have hi := h i
  rw [failuresIn_ended]
  by_cases hs : status = .success
  · by_cases hid : id = i
    · simp [FailureLedger.settle, FailureLedger.get?, hs, hid]
    · simpa [FailureLedger.settle, FailureLedger.get?, hs, hid, Ne.symm hid] using hi
  · by_cases hid : id = i
    · have hfailed : (status == Status.success) = false := by simpa using hs
      subst hid
      simp [FailureLedger.settle, FailureLedger.get?, hs, hfailed, h.toNat_countAfter]
    · simpa [FailureLedger.settle, FailureLedger.get?, hs, hid, Ne.symm hid] using hi

theorem other (h : l.Shows ps) {p : Posting} (hp : ∀ i status, p ≠ .ended i status) :
    l.Shows (p :: ps) := by
  intro i
  rw [failuresIn_other ps i hp]
  exact h i

end FailureLedger.Shows

namespace UsageLedger.Shows

variable {l : UsageLedger} {ps : List Posting}

theorem empty : UsageLedger.Shows {} [] := fun _ => rfl

theorem add (h : l.Shows ps) (id account : Int) (size : Nat) :
    (l.add account size).Shows (.loaded id account size :: ps) := by
  intro a
  rw [usageIn_loaded, ← h a]
  by_cases ha : account = a
  · simp [UsageLedger.add, UsageLedger.totalWith, UsageLedger.get?, ha]
  · simp [UsageLedger.add, UsageLedger.get?, ha, Ne.symm ha]

theorem set (h : l.Shows ps) (account : Int) (bytes : Nat) :
    (l.set account bytes).Shows (.counted account bytes :: ps) := by
  intro a
  rw [usageIn_counted, ← h a]
  by_cases ha : account = a
  · simp [UsageLedger.set, UsageLedger.get?, ha]
  · simp [UsageLedger.set, UsageLedger.get?, ha, Ne.symm ha]

theorem ended (h : l.Shows ps) (id : Int) (status : Status) :
    l.Shows (.ended id status :: ps) := by
  intro a
  rw [usageIn_ended]
  exact h a

end UsageLedger.Shows

/-! ### What an errand does to the ledgers -/

/-- Both ledgers. -/
def Scheduler.ledgers (s : Scheduler) : UsageLedger × FailureLedger := (s.usage, s.failures)

/-- **Both ledgers tell what a history amounts to.** -/
def LedgersShow (l : UsageLedger × FailureLedger) (ps : List Posting) : Prop :=
  l.1.Shows ps ∧ l.2.Shows ps

namespace Errand

variable {setup : Setup} {s : State} {e : Errand} {ps : List Posting}

/-- **What an errand puts on record.** A report is put on record if it ends a transfer that is in
flight, a look-up after a success if it finds the record, and a look at a share if it comes to a
count. -/
def posting (setup : Setup) (s : State) : Errand → Option Posting
  | hear report =>
    if report.status.isTerminal && s.scheduler.flights.contains report.id then
      some (.ended report.id report.status)
    else none
  | conclude r .success =>
    match s.world.attachment r.id with
    | .ok (some a) => some (.loaded r.id a.account a.size)
    | _ => none
  | share account total asker =>
    if (doShare setup s account total asker).state.log = s.log then none
    else (s.world.count account.id).map (.counted account.id)
  | _ => none

theorem posting_hear (report : Report) :
    (hear report).posting setup s =
      if report.status.isTerminal && s.scheduler.flights.contains report.id then
        some (.ended report.id report.status)
      else none := rfl

/-- The ledgers with what an errand is about to enter. -/
def entering (l : UsageLedger × FailureLedger) : Errand → UsageLedger × FailureLedger
  | settle id status => (l.1, l.2.settle id (status == Status.success))
  | close .success (some a) false => (l.1.add a.account a.size, l.2)
  | _ => l

/-- Whether an errand may change the ledgers. -/
def touchesLedgers : Errand → Bool
  | settle _ _ | close _ _ _ | share _ _ _ => true
  | _ => false

/-- **The ledgers are changed by three errands only.** -/
theorem perform_ledgers (setup : Setup) (s : State) (h : e.touchesLedgers = false) :
    (e.perform setup s).state.scheduler.ledgers = s.scheduler.ledgers := by
  cases e with
  | settle _ _ | close _ _ _ | share _ _ _ => cases h
  | review a =>
    unfold perform doReview
    dsimp only
    split <;> rfl
  | landed r accepted onward =>
    unfold perform doLanded
    dsimp only
    split_ifs
    · rfl
    · simp only [State.arm, Scheduler.arm, State.breakOff_scheduler]
      rw [Scheduler.breakOff_eq]
      rfl
  | askParent r record =>
    unfold perform doAskParent
    dsimp only
    split
    · simp only [State.ring, Scheduler.ring, State.requeue_scheduler]
      rw [Scheduler.requeue_eq]
      rfl
    · rfl
    · rfl
  | tick timeout =>
    have hother := Scheduler.breakOffAll_eq
    unfold perform doTick
    dsimp only
    split_ifs
    · rfl
    all_goals
      simp only [State.ring, Scheduler.ring, State.abandon_scheduler]
      rw [hother]
      rfl
  | _ =>
    simp only [perform, doRefuse, doSweep, doApplyNotice, doBeginRound, doTakeNext, doScreen,
      doHandOver, doPutBack, doLookAhead, doBrowse, doConsider, doVet, doDiscard, doBudget, doClaim,
      doEndRound, doHear, doRecordProgress, doConclude, doExpunge, doSendIfComplete, doSendMail,
      doRearm, doLoop, listenFor, endWait, doPause, doListen, doFetch]
    repeat' split
    all_goals rfl

/-- The end of a transfer that is settled is entered if it was in flight. -/
theorem ledgers_settle (setup : Setup) (s : State) (id : Int) (status : Status) :
    ((settle id status).perform setup s).state.scheduler.ledgers =
      if s.scheduler.flights.contains id then (settle id status).entering s.scheduler.ledgers
      else s.scheduler.ledgers := by
  change (doSettle setup s id status).state.scheduler.ledgers = _
  unfold doSettle
  cases hr : s.scheduler.flights.get? id with
  | none =>
    rw [if_neg (by rw [Flights.contains_eq_false_iff.mpr hr]; decide)]
  | some r =>
    rw [if_pos (Flights.contains_iff.mpr ⟨r, hr⟩)]
    dsimp only
    split_ifs
    · have hother := Scheduler.retryAfterError_eq
      split <;>
      · simp only [State.ring, Scheduler.ring, State.arm, Scheduler.arm, State.abandon_scheduler,
          Scheduler.ledgers]
        rw [hother]
        rfl
    · rfl

/-- The size of a saved record is entered when it is closed. -/
theorem ledgers_close (setup : Setup) (s : State) (status : Status) (record : Option Attachment)
    (deleted : Bool) :
    ((close status record deleted).perform setup s).state.scheduler.ledgers =
      (close status record deleted).entering s.scheduler.ledgers := by
  cases record with
  | none => cases status <;> rfl
  | some a => cases status <;> cases deleted <;> rfl

/-- **What a look at a share comes to**: nothing, where the ledger is trusted or nobody could be
asked, or a count, which is entered if it comes off. -/
theorem share_cases (setup : Setup) (s : State) (account : Account) (total : Nat) (asker : Asker) :
    (doShare setup s account total asker).state = s ∨
      s.world.count account.id = none ∧
        (doShare setup s account total asker).state = s.note (.scan account.id) ∨
      ∃ bytes, s.world.count account.id = some bytes ∧
        (doShare setup s account total asker).state = { s.note (.scan account.id) with
          scheduler := { s.scheduler with
            usage := s.scheduler.usage.set account.id bytes } } := by
  unfold doShare
  split
  · exact .inl rfl
  · dsimp only
    split
    · exact .inl rfl
    · split
      next hcount => exact .inr (.inl ⟨hcount, rfl⟩)
      next bytes hcount => exact .inr (.inr ⟨bytes, hcount, rfl⟩)

/-- A count that is put on record is entered. -/
theorem ledgers_share (setup : Setup) (s : State) (account : Account) (total : Nat)
    (asker : Asker) :
    (share account total asker).posting setup s = none ∧
        ((share account total asker).perform setup s).state.scheduler.ledgers =
          s.scheduler.ledgers ∨
      ∃ bytes, (share account total asker).posting setup s = some (.counted account.id bytes) ∧
        ((share account total asker).perform setup s).state.scheduler.ledgers =
          (s.scheduler.usage.set account.id bytes, s.scheduler.failures) := by
  unfold posting perform
  dsimp only
  rcases share_cases setup s account total asker with
    hsame | ⟨hcount, hscan⟩ | ⟨bytes, hcount, hscan⟩
  · exact .inl (by simp [hsame])
  · exact .inl (by simp [hscan, hcount])
  · exact .inr ⟨bytes, by simp [hscan, hcount, State.note], by rw [hscan]; rfl⟩

end Errand

/-- Nothing is entered when an operation begins. -/
theorem Operation.state_ledgers (s : State) (op : Operation) :
    (op.state s).scheduler.ledgers = s.scheduler.ledgers := by
  cases op with
  | notify id flags =>
    unfold state Scheduler.notify State.withScheduler
    split_ifs <;> rfl
  | _ => rfl

namespace LedgersShow

variable {l : UsageLedger × FailureLedger} {ps : List Posting}

/-- A reported end is to be entered into the failure ledger only. -/
theorem ended (h : LedgersShow l ps) (id : Int) (status : Status) :
    LedgersShow ((Errand.settle id status).entering l) (.ended id status :: ps) :=
  ⟨h.1.ended id status, h.2.settle id status⟩

/-- A found record is to be entered into the usage ledger only. -/
theorem loaded (h : LedgersShow l ps) (id : Int) (a : Attachment) :
    LedgersShow ((Errand.close .success (some a) false).entering l)
      (.loaded id a.account a.size :: ps) :=
  ⟨h.1.add id a.account a.size, h.2.other fun _ _ => nofun⟩

theorem counted (h : LedgersShow l ps) (account : Int) (bytes : Nat) :
    LedgersShow (l.1.set account bytes, l.2) (.counted account bytes :: ps) :=
  ⟨h.1.set account bytes, h.2.other fun _ _ => nofun⟩

end LedgersShow

end MailFetch

import Mathlib.Algebra.Ring.Nat
import MailFetch.Proofs.Crew
import MailFetch.Proofs.LedgerEntries

/-! # How far the usage ledger is a worst case

The usage ledger is meant to be a worst case: it grows with every download, and deletions are not
seen. It is one from the first exact count of an account on, as long as no bytes come that are not
entered. But an account that has not been counted yet gets its entry from its first download, and
then the entry knows nothing of the bytes that were there before.

* `Crew.worst_case_iff`: what an entry is worth, in any interleaving of the tasks and whatever
  becomes of the stored bytes: the bytes that have come since the last count, and without one those
  from the start, are to be made up for by the bytes entered and those that have gone.
* `Crew.not_worst_case`: an entry may fall short of the bytes that are really stored, and stay
  so. -/

namespace MailFetch

/-- **The bytes really stored for an account**, which a count finds if it comes off. -/
def World.bytesStored (w : World) (account : Int) : Nat :=
  match w.carrier with
  | .noting _ _ => (w.stored.get? account).getD 0
  | .web files cache => files.usage 0 (accountDir cache account)

theorem World.count_eq (w : World) (account : Int) :
    w.count account =
      if w.fails .accountUsage account then none else some (w.bytesStored account) := by
  unfold count bytesStored
  cases w.carrier <;> rfl

theorem World.eq_bytesStored_of_count {w : World} {account : Int} {bytes : Nat}
    (h : w.count account = some bytes) : bytes = w.bytesStored account := by
  rw [count_eq] at h
  split_ifs at h
  exact (Option.some.inj h).symm

/-- What the ledger says of an account, nothing being no bytes. -/
def UsageLedger.bytes (l : UsageLedger) (account : Int) : Nat := (l.get? account).getD 0

namespace UsageLedger

variable (l : UsageLedger) (account : Int)

theorem bytes_add (a : Int) (n : Nat) :
    (l.add a n).bytes account =
      if a = account then min (l.bytes account + n) maxBytes else l.bytes account := by
  by_cases ha : a = account
  · simp [bytes, get?, add, totalWith, ha]
  · simp [bytes, get?, add, ha, Ne.symm ha]

theorem bytes_set (a : Int) (n : Nat) :
    (l.set a n).bytes account = if a = account then n else l.bytes account := by
  by_cases ha : a = account
  · simp [bytes, get?, set, ha]
  · simp [bytes, get?, set, ha, Ne.symm ha]

end UsageLedger

namespace Errand

variable {setup : Setup} {s : State} {e : Errand} {account : Int}

/-- The bytes that an errand adds to the entry of an account. -/
def enters (account : Int) : Errand → Nat
  | close .success (some a) false => if a.account = account then a.size else 0
  | _ => 0

/-- **An errand counts the bytes of an account**: it is about the share of the account, asks for a
count and gets an answer. -/
def Counts (setup : Setup) (s : State) (account : Int) (e : Errand) : Prop :=
  ∃ owner total asker, e = share owner total asker ∧ owner.id = account ∧
    (e.perform setup s).state.log ≠ s.log ∧ s.world.count account ≠ none

/-- After a count the ledger says what is really stored. -/
theorem bytes_of_counts (h : e.Counts setup s account) :
    (e.perform setup s).state.scheduler.usage.bytes account = s.world.bytesStored account ∧
      (e.perform setup s).state.world = s.world := by
  obtain ⟨owner, total, asker, rfl, rfl, hlog, hcount⟩ := h
  change (doShare setup s owner total asker).state.log ≠ s.log at hlog
  change (doShare setup s owner total asker).state.scheduler.usage.bytes owner.id = _ ∧
    (doShare setup s owner total asker).state.world = _
  rcases share_cases setup s owner total asker with
    hsame | ⟨hnone, -⟩ | ⟨bytes, hbytes, hset⟩
  · exact absurd (by rw [hsame]) hlog
  · exact absurd hnone hcount
  · rw [hset, ← World.eq_bytesStored_of_count hbytes]
    exact ⟨(UsageLedger.bytes_set _ _ _ _).trans (if_pos rfl), rfl⟩

/-- **Without a count an entry grows by what is entered**, up to the largest number. -/
theorem le_bytes_perform_iff (h : ¬ e.Counts setup s account) {x : Nat} (hx : x ≤ maxBytes) :
    x ≤ (e.perform setup s).state.scheduler.usage.bytes account ↔
      x ≤ s.scheduler.usage.bytes account + e.enters account := by
  have hsame : (e.perform setup s).state.scheduler.ledgers.1 = s.scheduler.usage →
      e.enters account = 0 → (x ≤ (e.perform setup s).state.scheduler.usage.bytes account ↔
        x ≤ s.scheduler.usage.bytes account + e.enters account) := by
    intro husage hnone
    rw [hnone, Nat.add_zero, ← husage]
    rfl
  cases e with
  | settle id status =>
    refine hsame ?_ rfl
    rw [ledgers_settle]
    split_ifs <;> rfl
  | close status record deleted =>
    have hclose := congrArg Prod.fst (ledgers_close setup s status record deleted)
    match status, record, deleted with
    | .success, some a, false =>
      have husage : ((close .success (some a) false).perform setup s).state.scheduler.usage =
          s.scheduler.usage.add a.account a.size := hclose
      rw [husage, UsageLedger.bytes_add, enters]
      split_ifs <;> omega
    | .success, some _, true | .success, none, _ | .inProgress, _, _ | .connectionError, _, _
    | .attachmentNotFound, _, _ | .messageNotFound, _, _ | .policyViolation, _, _
    | .unsupported, _, _ | .failed, _, _ => exact hsame hclose rfl
  | share owner total asker =>
    rcases share_cases setup s owner total asker with
      hstate | ⟨-, hstate⟩ | ⟨bytes, hcount, hstate⟩
    · exact hsame (by rw [perform, hstate]; rfl) rfl
    · exact hsame (by rw [perform, hstate]; rfl) rfl
    · have howner : owner.id ≠ account := by
        rintro rfl
        refine h ⟨owner, total, asker, rfl, rfl, ?_, by simp [hcount]⟩
        rw [perform, hstate]
        simp [State.note]
      rw [perform, hstate, UsageLedger.bytes_set, if_neg howner]
      rfl
  | _ => exact hsame (congrArg Prod.fst (perform_ledgers setup s rfl)) rfl

end Errand

/-- **What a move means for the bytes of an account**: how many come, how many go, and how many are
entered into the ledger. -/
structure Flow where
  stored : Nat
  removed : Nat
  entered : Nat

namespace Crew

variable {setup : Setup} {c c' : Crew} {account : Int}

/-- The bytes really stored for an account. -/
def bytesStored (c : Crew) (account : Int) : Nat := c.state.world.bytesStored account

/-- The bytes that a move adds to the entry of an account. -/
def enters (account : Int) (c : Crew) : CrewMove → Nat
  | .turn i =>
    match c.tasks[i]? with
    | some (e :: _) => e.enters account
    | _ => 0
  | _ => 0

/-- **A move counts the bytes of an account.** -/
def Counts (setup : Setup) (account : Int) (c : Crew) (m : CrewMove) : Prop :=
  ∃ i e rest, m = .turn i ∧ c.tasks[i]? = some (e :: rest) ∧ e.Counts setup c.state account

/-- What a move means for the bytes of an account. -/
def flow (setup : Setup) (account : Int) (c : Crew) (m : CrewMove) : List Flow :=
  match c.move setup m with
  | some c' =>
    [⟨c'.bytesStored account - c.bytesStored account,
      c.bytesStored account - c'.bytesStored account, c.enters account m⟩]
  | none => []

/-- What the moves of a run mean for the bytes of an account. -/
def flows (setup : Setup) (account : Int) : Crew → List CrewMove → List Flow :=
  recorded (move setup) (flow setup account)

/-- The bytes that come for an account in a run. -/
def arrived (setup : Setup) (account : Int) (c : Crew) (moves : List CrewMove) : Nat :=
  ((c.flows setup account moves).map Flow.stored).sum

/-- The bytes that go from an account in a run. -/
def departed (setup : Setup) (account : Int) (c : Crew) (moves : List CrewMove) : Nat :=
  ((c.flows setup account moves).map Flow.removed).sum

/-- The bytes that are entered into the ledger for an account in a run. -/
def entered (setup : Setup) (account : Int) (c : Crew) (moves : List CrewMove) : Nat :=
  ((c.flows setup account moves).map Flow.entered).sum

/-- What has been stored and entered from a moment on, without a count: the bytes stored then and
those that have come are the bytes stored now and those that have gone, and the entry has grown by
what was entered, up to the largest number. -/
structure Since (account : Int) (stored₀ entry₀ : Nat) (c : Crew) (l : List Flow) : Prop where
  stored : c.bytesStored account + (l.map Flow.removed).sum =
    stored₀ + (l.map Flow.stored).sum
  entry : ∀ x ≤ maxBytes, x ≤ c.state.scheduler.usage.bytes account ↔
    x ≤ entry₀ + (l.map Flow.entered).sum

theorem since_start (c : Crew) (account : Int) :
    c.Since account (c.bytesStored account) (c.state.scheduler.usage.bytes account) [] :=
  ⟨rfl, fun _ _ => Iff.rfl⟩

/-- **A move without a count keeps the sums.** -/
theorem since_move {m : CrewMove} {stored₀ entry₀ : Nat} {l : List Flow}
    (hl : c.Since account stored₀ entry₀ l) (hm : ¬ c.Counts setup account m)
    (h : c.move setup m = some c') :
    c'.Since account stored₀ entry₀ (c.flow setup account m ++ l) := by
  have hstored := hl.stored
  have hflow : c.flow setup account m = [⟨c'.bytesStored account - c.bytesStored account,
      c.bytesStored account - c'.bytesStored account, c.enters account m⟩] := by
    simp only [flow, h]
  have hentry : ∀ x ≤ maxBytes, x ≤ c'.state.scheduler.usage.bytes account ↔
      x ≤ c.state.scheduler.usage.bytes account + c.enters account m := by
    intro x hx
    rcases move_cases h with ⟨w, rfl, rfl⟩ | ⟨op, rfl, rfl⟩ | ⟨rfl, rfl⟩ | ⟨i, rfl⟩
    · exact Iff.rfl
    · have husage : (op.state c.state).scheduler.usage = c.state.scheduler.usage :=
        congrArg Prod.fst (Operation.state_ledgers c.state op)
      rw [husage]
      exact Iff.rfl
    · exact Iff.rfl
    · obtain ⟨before, e, rest, after, hi, -, -, rfl⟩ := move_turn h
      have henters : c.enters account (.turn i) = e.enters account := by
        simp only [enters, hi]
      rw [henters]
      exact Errand.le_bytes_perform_iff (fun he => hm ⟨i, e, rest, rfl, hi, he⟩) hx
  rw [hflow]
  refine ⟨?_, fun x hx => ?_⟩
  · simp only [List.cons_append, List.nil_append, List.map_cons, List.sum_cons]
    omega
  · have hrest := hl.entry (x - c.enters account m) (by omega)
    rw [hentry x hx]
    simp only [List.cons_append, List.nil_append, List.map_cons, List.sum_cons]
    omega

/-- **A run without a count keeps the sums.** -/
theorem since_run {moves : List CrewMove}
    (hnone : Throughout (move setup) (fun u m => ¬ u.Counts setup account m) c moves)
    (h : c.run setup moves = some c') :
    c'.Since account (c.bytesStored account) (c.state.scheduler.usage.bytes account)
      (c.flows setup account moves) :=
  follow_records_of (fun _ _ _ _ hl hm hmove => since_move hl hm hmove) (since_start c account)
    hnone h

/-- After a count the ledger says what is really stored. -/
theorem bytes_of_counts {m : CrewMove} (hm : c.Counts setup account m)
    (h : c.move setup m = some c') :
    c'.state.scheduler.usage.bytes account = c'.bytesStored account := by
  obtain ⟨i, e, rest, rfl, hi, he⟩ := hm
  obtain ⟨before, e', rest', after, hi', -, -, rfl⟩ := move_turn h
  obtain ⟨rfl, rfl⟩ := List.cons.inj (Option.some.inj (hi.symm.trans hi'))
  obtain ⟨hbytes, hworld⟩ := Errand.bytes_of_counts he
  rw [bytesStored, hworld]
  exact hbytes

end Crew

/-- **When the ledger is a worst case.** Let a ledger have an entry for an account, at any moment of
any interleaving of tasks and whatever becomes of the stored bytes meanwhile, these being a number
that the ledger can hold. If the account has never been counted, the entry is at least as much as
the bytes really stored exactly if the bytes stored at the start, and those that have come since,
are made up for by the bytes that were entered and those that have gone. If it has been counted, the
same holds of the bytes that have come since the last count, without those stored then. -/
theorem worst_case_iff (setup : Setup) (w : World) (moves : List CrewMove) (c : Crew)
    (account : Int) (v : Nat) (h : (Crew.fresh w).run setup moves = some c)
    (hv : c.state.scheduler.usage.get? account = some v)
    (hbytes : c.bytesStored account ≤ maxBytes) :
    (Throughout (Crew.move setup) (fun u m => ¬ u.Counts setup account m) (Crew.fresh w) moves ∧
        (c.bytesStored account ≤ v ↔
          w.bytesStored account + (Crew.fresh w).arrived setup account moves ≤
            (Crew.fresh w).entered setup account moves +
              (Crew.fresh w).departed setup account moves)) ∨
      ∃ earlier m later u u', moves = earlier ++ m :: later ∧
        (Crew.fresh w).run setup earlier = some u ∧ u.Counts setup account m ∧
        u.move setup m = some u' ∧
        Throughout (Crew.move setup) (fun u m => ¬ u.Counts setup account m) u' later ∧
        (c.bytesStored account ≤ v ↔
          u'.arrived setup account later ≤
            u'.entered setup account later + u'.departed setup account later) := by
  have hentry : c.state.scheduler.usage.bytes account = v := by
    rw [UsageLedger.bytes, hv]
    rfl
  rcases last_or_throughout (fun u m => Crew.Counts setup account u m) h with
    hnone | ⟨earlier, m, later, u, u', hmoves, hu, hm, hmove, hnone⟩
  · left
    have hsince := Crew.since_run hnone h
    have hle := hsince.entry _ hbytes
    have hstored := hsince.stored
    have hstart : (Crew.fresh w).state.scheduler.usage.bytes account = 0 := rfl
    have hold : (Crew.fresh w).bytesStored account = w.bytesStored account := rfl
    rw [hentry, hstart] at hle
    rw [hold] at hstored
    unfold Crew.arrived Crew.entered Crew.departed
    exact ⟨hnone, by omega⟩
  · right
    have hlater : u'.run setup later = some c := by
      rw [hmoves, Crew.run, follow_append hu, follow_cons hmove] at h
      exact h
    have hsince := Crew.since_run hnone hlater
    have hle := hsince.entry _ hbytes
    have hstored := hsince.stored
    rw [hentry, Crew.bytes_of_counts hm hmove] at hle
    unfold Crew.arrived Crew.entered Crew.departed
    exact ⟨earlier, m, later, u, u', hmoves, hu, hm, hmove, hnone, by omega⟩

/-- A world with nine hundred bytes stored for an account, and an attachment of a hundred that is
wanted. -/
def Crew.filledWorld : World where
  records := .ofSeed
    { accounts := [{ id := 1, background := true }]
      attachments := [{ id := 1, message := 10, account := 1, size := 100, flags := .forward }] }
  stored := Table.empty.insert 1 900
  capacity := ⟨1000, 1000⟩

/-- The caller asks for the budget of the account, which is counted for it. -/
def Crew.askedBudget : List CrewMove :=
  [.begin (.askBudget { id := 1, background := true }), .turn 0, .turn 0]

theorem worst_case_iff_counted :
    ∃ c earlier m later u u', (Crew.fresh Crew.filledWorld).run {} Crew.askedBudget = some c ∧
      c.state.scheduler.usage.get? 1 = some 900 ∧ Crew.askedBudget = earlier ++ m :: later ∧
      (Crew.fresh Crew.filledWorld).run {} earlier = some u ∧ u.Counts {} 1 m ∧
      u.move {} m = some u' ∧
      (c.bytesStored 1 ≤ 900 ↔
        u'.arrived {} 1 later ≤ u'.entered {} 1 later + u'.departed {} 1 later) := by
  obtain ⟨c, hrun, hentry, hbytes⟩ :
      ∃ c, (Crew.fresh Crew.filledWorld).run {} Crew.askedBudget = some c ∧
        c.state.scheduler.usage.get? 1 = some 900 ∧ c.bytesStored 1 = 900 := ⟨_, rfl, rfl, rfl⟩
  rcases worst_case_iff {} Crew.filledWorld Crew.askedBudget c 1 900 hrun hentry
      (by rw [hbytes]; decide) with
    ⟨hnone, -⟩ | ⟨earlier, m, later, u, u', hmoves, hu, hm, hmove, -, hiff⟩
  · exact absurd ⟨0, _, _, rfl, rfl, _, _, _, rfl, rfl, by decide, by decide⟩
      (hnone [.begin (.askBudget { id := 1, background := true }), .turn 0] (.turn 0) [] _ rfl rfl)
  · exact ⟨c, earlier, m, later, u, u', hrun, hentry, hmoves, hu, hm, hmove, hiff⟩

/-! ### Bytes that were there before -/

namespace Crew

/-- **Bytes come with successes**: whenever the world changes and some account has more bytes
afterwards, a transfer in flight of that account reports its success next, and the bytes are as many
as its record says; and every success of a transfer in flight has brought its bytes so. -/
def BytesComeWithSuccess (setup : Setup) (w : World) (moves : List CrewMove) : Prop :=
  (∀ earlier w' later u account, moves = earlier ++ .world w' :: later →
      (fresh w).run setup earlier = some u →
        w'.bytesStored account ≤ u.bytesStored account ∨
          ∃ message id percent more a,
            later = .begin (.report ⟨message, id, .success, percent⟩) :: more ∧
            u.state.scheduler.flights.contains id = true ∧
            u.state.world.records.attachments.get? id = some a ∧ a.account = account ∧
            w'.bytesStored account = u.bytesStored account + a.size) ∧
    ∀ earlier message id percent later u a,
      moves = earlier ++ .begin (.report ⟨message, id, .success, percent⟩) :: later →
        (fresh w).run setup earlier = some u → u.state.scheduler.flights.contains id = true →
          u.state.world.records.attachments.get? id = some a →
            ∃ before w' v, earlier = before ++ [.world w'] ∧
              (fresh w).run setup before = some v ∧
              w'.bytesStored a.account = v.bytesStored a.account + a.size

/-- **The ledger is a worst case**: if bytes come with successes only, an entry is at least as much
as the bytes really stored, up to the largest number, whenever no task is under way. -/
def IsWorstCase (setup : Setup) (w : World) : Prop :=
  ∀ moves c account v, (fresh w).run setup moves = some c → (∀ task ∈ c.tasks, task = []) →
    BytesComeWithSuccess setup w moves → c.state.scheduler.usage.get? account = some v →
      min (c.bytesStored account) maxBytes ≤ v

/-- The attachment is handed over. -/
def fetched : List CrewMove :=
  [.begin (.change { id := 1, message := 10, account := 1, size := 100, flags := .forward }),
    .turn 0, .begin .round] ++ List.replicate 9 (.turn 1)

/-- The same with its hundred bytes. -/
def fullerWorld : World := { filledWorld with stored := Table.empty.insert 1 1000 }

/-- The report of the success, and what follows from it. -/
def reportedThen : List CrewMove :=
  .begin (.report ⟨10, 1, .success, 100⟩) :: List.replicate 7 (.turn 2)

/-- The bytes come in between, with the success. -/
theorem bytesCome_fetched :
    BytesComeWithSuccess {} filledWorld (fetched ++ .world fullerWorld :: reportedThen) := by
  constructor
  · intro earlier w' later u account hmoves hu
    obtain ⟨rfl, hw, rfl⟩ := (List.append_cons_inj_of_notMem (by simp [fetched])
      (by simp [reportedThen])).mp hmoves
    obtain rfl : fullerWorld = w' := by simpa using hw
    by_cases haccount : account = 1
    · subst haccount
      obtain rfl := Option.some.inj hu
      exact .inr ⟨10, 1, 100, _, _, rfl, rfl, rfl, rfl, rfl⟩
    · refine .inl ?_
      simp [World.bytesStored, fullerWorld, filledWorld, haccount]
  · intro earlier message id percent later u a hmoves hu hflying ha
    have hsplit : fetched ++ .world fullerWorld :: reportedThen =
        (fetched ++ [.world fullerWorld]) ++ .begin (.report ⟨10, 1, .success, 100⟩) ::
          List.replicate 7 (.turn 2) := by simp [reportedThen]
    rw [hsplit] at hmoves
    obtain ⟨rfl, hreport, rfl⟩ := (List.append_cons_inj_of_notMem (by simp [fetched])
      (by simp)).mp hmoves
    cases hreport
    obtain rfl := Option.some.inj hu
    obtain rfl := Option.some.inj ha
    exact ⟨fetched, fullerWorld, _, rfl, rfl, rfl⟩

/-- **The ledger is no worst case.** The entry has a hundred bytes when a thousand are stored. -/
theorem not_worst_case : ¬ IsWorstCase {} filledWorld := by
  intro hworst
  obtain ⟨c, hrun, hrest, hentry, hstored⟩ :
      ∃ c, (fresh filledWorld).run {} (fetched ++ .world fullerWorld :: reportedThen) = some c ∧
        (∀ task ∈ c.tasks, task = []) ∧ c.state.scheduler.usage.get? 1 = some 100 ∧
        c.bytesStored 1 = 1000 :=
    ⟨_, rfl, by decide, rfl, rfl⟩
  have hle := hworst _ c 1 100 hrun hrest bytesCome_fetched hentry
  rw [hstored] at hle
  revert hle
  decide

end Crew

end MailFetch

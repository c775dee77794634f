import MailFetch.Proofs.Outcome

/-! # What a look ahead takes off

When there is room, a round looks for something to download that nobody asked for. It goes through
the newest records, deletes those without an account, and takes off the first one that may be. While
it looks, the ledger of the storage changes, because accounts are counted on the way; but an account
is only counted where its entry is not trusted, and then the count is what is believed. So every
record is judged as it would have been at the start.

* `State.budgetAllows`, `State.admits`: whether a record may be taken off, judged in one state.
  `Desk.finishes_budget`: a check of a budget comes to its end and answers this.
* `State.Scouted`: what the search does to the state on its way. `State.Scouted.budgetAllows`: it
  does not change what budgets allow.
* `Desk.finishes_consider`: the search takes off the first record that may be, by induction on the
  records.
* `State.LookedAhead`: all that a look ahead does. `Desk.look_ahead`: it does this and no more. -/

namespace MailFetch

/-! ### Calls in the log -/

/-- The transfer that the carrier was asked for, and whether it took it. -/
def Event.handover : Event → Option (Request × Bool)
  | .start r accepted => some (r, accepted)
  | _ => none

/-- The record that was to be deleted. -/
def Event.deletion : Event → Option Int
  | .delete id => some id
  | _ => none

/-- **A carrier that does not report while it is asked for a transfer.** -/
def Carrier.Quiet : Carrier → Prop
  | noting _ (some e) => e.left = 0
  | _ => True

instance (c : Carrier) : Decidable c.Quiet := by
  unfold Carrier.Quiet
  split <;> infer_instance

namespace State

/-- **The transfers that the carrier was asked for**, latest first. -/
def handovers (s : State) : List (Request × Bool) := s.log.filterMap (·.event.handover)

/-- **The records that were to be deleted**, latest first. -/
def deletions (s : State) : List Int := s.log.filterMap (·.event.deletion)

variable (s : State) (setup : Setup)

theorem handovers_note (e : Event) : (s.note e).handovers = e.handover.toList ++ s.handovers := by
  cases h : e.handover <;> simp [handovers, note, h]

theorem deletions_note (e : Event) : (s.note e).deletions = e.deletion.toList ++ s.deletions := by
  cases h : e.deletion <;> simp [deletions, note, h]

theorem calls_abandon (rs : List Request) :
    (s.abandon rs).handovers = s.handovers ∧ (s.abandon rs).deletions = s.deletions := by
  unfold abandon
  induction rs generalizing s with
  | nil => exact ⟨rfl, rfl⟩
  | cons r rest ih => exact ih (s.note (.abandoned r))

theorem calls_breakOff (id : Int) :
    (s.breakOff setup id).handovers = s.handovers ∧
      (s.breakOff setup id).deletions = s.deletions := by
  unfold breakOff
  exact calls_abandon _ _

/-! ### Who may be taken off -/

/-- The part of the storage that each account may take up. -/
def sharePerAccount (total : Nat) : Nat :=
  setup.settings.share total (max s.world.records.accounts.size 1)

/-- The bytes that the ledger has for an account, as long as they are not above a share. -/
def trusted (account : Int) (share : Nat) : Option Nat :=
  (s.scheduler.usage.get? account).filter (· ≤ share)

/-- **Whether the budget of an account allows downloads that nobody asked for**: the account wants
them, enough of the storage is free, and the account has not used up its share, by the ledger if it
is trusted and else by an exact count. -/
def budgetAllows (account : Account) : Bool :=
  match s.world.storage with
  | none => false
  | some c =>
    account.background && setup.settings.minAvailable c.total ≤ c.available &&
      ((s.trusted account.id (s.sharePerAccount setup c.total)).or
        (s.world.count account.id)).any (· < s.sharePerAccount setup c.total)

/-- Whether a record has no account. -/
def isOrphan (a : Attachment) : Bool := !s.world.records.accounts.contains a.account

/-- Whether nothing is held against a record: the policy allows it, it has not failed too often, and
it does not wait. -/
def isClear (a : Attachment) : Bool :=
  setup.policy.allows a && (s.scheduler.failures.get? a.id).all (· ≤ setup.settings.maxFailures) &&
    !s.scheduler.queue.contains a.id

theorem isClear_eq (a : Attachment) :
    (!setup.policy.allows a || Errand.hasFailedTooOften setup s.scheduler a.id ||
      s.scheduler.queue.contains a.id) = !s.isClear setup a := by
  have hfailed : Errand.hasFailedTooOften setup s.scheduler a.id =
      !(s.scheduler.failures.get? a.id).all (· ≤ setup.settings.maxFailures) := by
    unfold Errand.hasFailedTooOften
    cases s.scheduler.failures.get? a.id with
    | none => rfl
    | some n => simp [← UInt32.not_le]
  rw [hfailed, isClear, Bool.not_and, Bool.not_and, Bool.not_not]

/-- **Whether a record is fit to be taken off**: it has an account, nothing is held against it, and
it is part of a message's text or its account's budget allows it. -/
def isFit (a : Attachment) : Bool :=
  match s.world.records.accounts.get? a.account with
  | none => false
  | some account => s.isClear setup a && (a.isInline || s.budgetAllows setup account)

/-- Whether a record is not in flight and its account is not busy. -/
def hasPlace (a : Attachment) : Bool :=
  !s.scheduler.flights.contains a.id &&
    s.scheduler.flights.countFor a.account < setup.settings.maxPerAccount

/-- **Whether a record may be taken off**: it is fit, and there is a place for it. -/
def admits (a : Attachment) : Bool := s.isFit setup a && s.hasPlace setup a

theorem isOrphan_of_isFit {s : State} {setup : Setup} {a : Attachment}
    (h : s.isFit setup a = true) : s.isOrphan a = false := by
  unfold isFit at h
  cases haccount : s.world.records.accounts.get? a.account with
  | none => simp [haccount] at h
  | some account => simp [isOrphan, Table.contains, haccount]

/-- The request for a record that nobody asked for, as it is handed over. -/
def unaskedFor (a : Attachment) : Request :=
  (a.request .background s.world.now).dispatch s.world.now

/-- The state once a record has been taken off that nobody asked for. -/
def claimed (a : Attachment) : State :=
  s.withScheduler { s.scheduler with flights := s.scheduler.flights.insert (s.unaskedFor a) }

/-- **What a hand-over does** in which the carrier answers at once: it is asked for the transfer.
Either it takes the request, or the request is put back or given up. -/
structure HandsOver (s : State) (r : Request) (accepted : Bool) (s' : State) : Prop where
  handovers : s'.handovers = (r, accepted) :: s.handovers
  deletions : s'.deletions = s.deletions
  records : s'.world.records = s.world.records
  failures : s'.scheduler.failures = s.scheduler.failures
  taken : accepted = true → s'.scheduler.queue = s.scheduler.queue ∧
    s'.scheduler.flights = s.scheduler.flights
  refused : accepted = false → (s'.scheduler.flights = s.scheduler.flights.erase r.id) ∧
    ∀ id, id ≠ r.id → s'.scheduler.queue.index.get? id = s.scheduler.queue.index.get? id

/-! ### The search on its way -/

/-- **What a check of a budget may do**: count the bytes of an account for which the ledger is not
trusted, and enter the count. -/
inductive Counts (t : State) (account : Int) : State → Prop
  | nothing : Counts t account t
  | failed : Counts t account (t.note (.scan account))
  | entered {c : Capacity} {n : Nat} (hstorage : t.world.storage = some c)
      (huntrusted : t.trusted account (t.sharePerAccount setup c.total) = none)
      (hcount : t.world.count account = some n) :
      Counts t account { t.note (.scan account) with
        scheduler := { t.scheduler with usage := t.scheduler.usage.set account n } }

/-- **What the search does to the state** while it passes some records over: those without an
account are deleted, and some accounts are counted. -/
structure Scouted (s : State) (passed : List Attachment) (t : State) : Prop where
  queue : t.scheduler.queue = s.scheduler.queue
  flights : t.scheduler.flights = s.scheduler.flights
  failures : t.scheduler.failures = s.scheduler.failures
  stopped : t.scheduler.stopped = s.scheduler.stopped
  usage : ∀ account, t.scheduler.usage.get? account = s.scheduler.usage.get? account ∨
    ∃ c n, s.world.storage = some c ∧
      s.trusted account (s.sharePerAccount setup c.total) = none ∧
      s.world.count account = some n ∧ t.scheduler.usage.get? account = some n
  world : t.world = { s.world with
    records := { s.world.records with attachments := t.world.records.attachments } }
  records : ∀ id, t.world.records.attachments.get? id =
    if id ∈ (passed.filter s.isOrphan).map (·.id) then none
    else s.world.records.attachments.get? id
  handovers : t.handovers = s.handovers
  deletions : t.deletions = ((passed.filter s.isOrphan).map (·.id)).reverse ++ s.deletions

namespace Scouted

variable {s t t' : State} {setup : Setup} {passed : List Attachment} {a : Attachment}

theorem refl (setup : Setup) (s : State) : s.Scouted setup [] s where
  queue := rfl
  flights := rfl
  failures := rfl
  stopped := rfl
  usage _ := .inl rfl
  world := rfl
  records _ := rfl
  handovers := rfl
  deletions := rfl

theorem storage (h : s.Scouted setup passed t) : t.world.storage = s.world.storage := by
  rw [h.world]
  rfl

theorem count (h : s.Scouted setup passed t) (account : Int) :
    t.world.count account = s.world.count account := by
  rw [h.world]
  rfl

theorem accounts (h : s.Scouted setup passed t) :
    t.world.records.accounts = s.world.records.accounts := by
  rw [h.world]

theorem storeUp (h : s.Scouted setup passed t) (hup : s.world.StoreUp) : t.world.StoreUp := by
  rw [h.world]
  exact hup

theorem sharePerAccount (h : s.Scouted setup passed t) (total : Nat) :
    t.sharePerAccount setup total = s.sharePerAccount setup total := by
  unfold State.sharePerAccount
  rw [h.accounts]

/-- **The search does not change what a budget allows**: where the ledger has a new entry, it was
not trusted before, and the new entry is the count that was believed instead. -/
theorem budgetAllows (h : s.Scouted setup passed t) (account : Account) :
    t.budgetAllows setup account = s.budgetAllows setup account := by
  unfold State.budgetAllows
  rw [h.storage]
  cases hstorage : s.world.storage with
  | none => rfl
  | some c =>
    have hbelieved : (t.trusted account.id (s.sharePerAccount setup c.total)).or
          (s.world.count account.id) =
        (s.trusted account.id (s.sharePerAccount setup c.total)).or (s.world.count account.id) := by
      rcases h.usage account.id with hsame | ⟨c', n, hstorage', huntrusted, hcount, hentry⟩
      · rw [trusted, trusted, hsame]
      · obtain rfl : c = c' := Option.some.inj (hstorage.symm.trans hstorage')
        rw [huntrusted, hcount, trusted, hentry]
        by_cases hle : n ≤ s.sharePerAccount setup c.total <;> simp [Option.filter, hle]
    dsimp only
    rw [h.count, h.sharePerAccount, hbelieved]

theorem isClear (h : s.Scouted setup passed t) (a : Attachment) :
    t.isClear setup a = s.isClear setup a := by
  unfold State.isClear
  rw [h.failures, h.queue]

/-- A check of a budget is part of the search. -/
theorem counts {account : Int} (h : s.Scouted setup passed t)
    (hcounts : Counts setup t account t') : s.Scouted setup passed t' := by
  cases hcounts with
  | nothing => exact h
  | failed =>
    exact { h with
      handovers := (handovers_note t _).trans h.handovers
      deletions := (deletions_note t _).trans h.deletions }
  | @entered c n hstorage huntrusted hcount =>
    rw [h.storage] at hstorage
    rw [h.count] at hcount
    refine { h with
      usage := fun j => ?_
      handovers := (handovers_note t _).trans h.handovers
      deletions := (deletions_note t _).trans h.deletions }
    by_cases hj : j = account
    · subst hj
      have hentry : (t.scheduler.usage.set j n).get? j = some n := by
        simp [UsageLedger.set, UsageLedger.get?]
      refine .inr ⟨c, n, hstorage, ?_, hcount, hentry⟩
      rcases h.usage j with hsame | ⟨c', n', hstorage', huntrusted', -⟩
      · rw [h.sharePerAccount, trusted, hsame] at huntrusted
        exact huntrusted
      · rwa [Option.some.inj (hstorage.symm.trans hstorage')]
    · have hentry : (t.scheduler.usage.set account n).get? j = t.scheduler.usage.get? j := by
        simp [UsageLedger.set, UsageLedger.get?, hj]
      dsimp only
      rw [hentry]
      exact h.usage j

/-- A record with an account is passed over. -/
theorem pass (h : s.Scouted setup passed t) (ha : s.isOrphan a = false) :
    s.Scouted setup (passed ++ [a]) t := by
  have hsame : (passed ++ [a]).filter s.isOrphan = passed.filter s.isOrphan := by
    simp [List.filter_append, ha]
  exact { h with
    records := fun id => by rw [hsame]; exact h.records id
    deletions := by rw [hsame]; exact h.deletions }

/-- A record without an account is deleted. -/
theorem discard (h : s.Scouted setup passed t) (hup : s.world.StoreUp) (ha : s.isOrphan a = true) :
    s.Scouted setup (passed ++ [a]) (t.delete a.id).2 := by
  have hmore : (passed ++ [a]).filter s.isOrphan = passed.filter s.isOrphan ++ [a] := by
    simp [List.filter_append, ha]
  have hdelete : (t.delete a.id).2 = { t.note (.delete a.id) with
      world := { t.world with records := t.world.records.eraseAttachment a.id } } := by
    unfold State.delete
    rw [(h.storeUp hup).delete]
  rw [hdelete]
  refine { h with
    world := ?_
    records := fun id => ?_
    handovers := (handovers_note t _).trans h.handovers
    deletions := ?_ }
  · dsimp only [Records.eraseAttachment]
    rw [h.world]
  · dsimp only [Records.eraseAttachment]
    have hmem : id ∈ ((passed ++ [a]).filter s.isOrphan).map (·.id) ↔
        id ∈ (passed.filter s.isOrphan).map (·.id) ∨ id = a.id := by
      rw [hmore]
      simp
    rw [Table.get?_erase, h.records id]
    by_cases hid : id = a.id
    · rw [if_pos hid, if_pos (hmem.mpr (.inr hid))]
    · rw [if_neg hid]
      exact if_congr (by rw [hmem, or_iff_left hid]) rfl rfl
  · refine (deletions_note t _).trans ?_
    rw [h.deletions, hmore]
    simp [Event.deletion]

end Scouted

end State

/-! ### The search comes to its end -/

namespace Desk

open Errand (afterBudget)

variable {s t : State} {setup : Setup} {passed rest : List Attachment} {a : Attachment}

/-- **A look at the share of an account** comes to its end. -/
theorem finishes_share (hup : t.world.StoreUp) (account : Account) {c : Capacity}
    (hstorage : t.world.storage = some c) (asker : Asker) :
    ∃ t', State.Counts setup t account.id t' ∧ ∀ others d,
      Finishes setup ⟨t', afterBudget (((t.trusted account.id
        (t.sharePerAccount setup c.total)).or (t.world.count account.id)).any
          (· < t.sharePerAccount setup c.total)) asker ++ others⟩ d →
      Finishes setup ⟨t, .share account c.total asker :: others⟩ d := by
  have haccounts : t.world.accountCount = .ok t.world.records.accounts.size :=
    if_neg (by rw [hup.failsAlways rfl]; exact Bool.false_ne_true)
  cases htrusted : t.trusted account.id (t.sharePerAccount setup c.total) with
  | some used =>
    refine ⟨t, .nothing, fun others d h => finishes_turn _ rfl ?_ h⟩
    unfold State.trusted State.sharePerAccount at htrusted
    simp only [Errand.perform, Errand.doShare, haccounts, htrusted]
    rfl
  | none =>
    have htrusted' := htrusted
    unfold State.trusted State.sharePerAccount at htrusted'
    cases hcount : t.world.count account.id with
    | none =>
      refine ⟨_, .failed, fun others d h => finishes_turn _ rfl ?_ h⟩
      simp only [Errand.perform, Errand.doShare, haccounts, htrusted', hcount]
      rfl
    | some used =>
      refine ⟨_, .entered hstorage htrusted hcount, fun others d h => finishes_turn _ rfl ?_ h⟩
      simp only [Errand.perform, Errand.doShare, haccounts, htrusted', hcount]
      rfl

/-- **A check of a budget** comes to its end, and answers whether the budget allows a download. -/
theorem finishes_budget (setup : Setup) (hup : t.world.StoreUp) (account : Account)
    (asker : Asker) :
    ∃ t', State.Counts setup t account.id t' ∧ ∀ others d,
      Finishes setup ⟨t', afterBudget (t.budgetAllows setup account) asker ++ others⟩ d →
      Finishes setup ⟨t, .budget account asker :: others⟩ d := by
  unfold State.budgetAllows
  by_cases hwants : account.background = true
  · cases hstorage : t.world.storage with
    | none =>
      refine ⟨t, .nothing, fun others d h => finishes_turn _ rfl ?_ h⟩
      simp [Errand.perform, Errand.doBudget, hwants, hstorage]
    | some c =>
      by_cases hfree : c.available < setup.settings.minAvailable c.total
      · have hlow : ¬ setup.settings.minAvailable c.total ≤ c.available := Nat.not_le.mpr hfree
        refine ⟨t, .nothing, fun others d h => finishes_turn _ rfl ?_ h⟩
        simp [Errand.perform, Errand.doBudget, hwants, hstorage, hfree, hlow]
      · obtain ⟨t', hcounts, hshare⟩ := finishes_share hup account hstorage asker
        refine ⟨t', hcounts, fun others d h => finishes_turn [.share account c.total asker]
          rfl ?_ (hshare others d ?_)⟩
        · simp [Errand.perform, Errand.doBudget, hwants, hstorage, hfree]
        · have hhigh : setup.settings.minAvailable c.total ≤ c.available := Nat.not_lt.mp hfree
          simpa [hwants, hhigh] using h
  · refine ⟨t, .nothing, fun others d h => finishes_turn _ rfl ?_ h⟩
    cases t.world.storage <;> simp [Errand.perform, Errand.doBudget, hwants]

/-- **A record is vetted**: it goes on to be claimed if it is fit, and is passed over otherwise. -/
theorem finishes_vet (hup : s.world.StoreUp) (h : s.Scouted setup passed t) (a : Attachment)
    (rest : List Attachment) :
    if s.isFit setup a = true then
      ∃ t', s.Scouted setup passed t' ∧ ∀ d,
        Finishes setup ⟨t', [.claim a rest]⟩ d → Finishes setup ⟨t, [.vet a rest]⟩ d
    else
      ∃ t', s.Scouted setup (passed ++ [a]) t' ∧ ∀ d,
        Finishes setup ⟨t', [.consider rest]⟩ d → Finishes setup ⟨t, [.vet a rest]⟩ d := by
  have hlook := (h.storeUp hup).account a.account
  rw [h.accounts] at hlook
  cases haccount : s.world.records.accounts.get? a.account with
  | none =>
    -- A record without an account is deleted, and the search goes on.
    have horphan : s.isOrphan a = true := by simp [State.isOrphan, Table.contains, haccount]
    have hunfit : s.isFit setup a = false := by simp [State.isFit, haccount]
    rw [if_neg (by simp [hunfit])]
    refine ⟨_, h.discard hup horphan, fun d hd => ?_⟩
    rw [haccount] at hlook
    refine finishes_turn [.discard a.id, .consider rest] rfl ?_
      (finishes_turn [] rfl rfl hd)
    simp only [Errand.perform, Errand.doVet, hlook]
  | some account =>
    have hmine : s.isOrphan a = false := by simp [State.isOrphan, Table.contains, haccount]
    have hfit : s.isFit setup a =
        (s.isClear setup a && (a.isInline || s.budgetAllows setup account)) := by
      simp [State.isFit, haccount]
    rw [haccount] at hlook
    have hheld := t.isClear_eq setup a
    rw [h.isClear] at hheld
    rw [hfit]
    by_cases hclear : s.isClear setup a = true
    · by_cases hinline : a.isInline = true
      · rw [if_pos (by simp [hclear, hinline])]
        refine ⟨t, h, fun d hd => finishes_turn [.claim a rest] rfl ?_ hd⟩
        simp only [Errand.perform, Errand.doVet, hlook, hheld, hclear, hinline]
        rfl
      · -- What the budget allows now is what it allowed at the start.
        obtain ⟨t', hcounts, hbudget⟩ :=
          finishes_budget setup (h.storeUp hup) account (.round a rest)
        have hvet : (Errand.vet a rest).perform setup t =
            { state := t, next := [.budget account (.round a rest)] } := by
          simp only [Errand.perform, Errand.doVet, hlook, hheld, hclear, hinline]
          rfl
        rw [h.budgetAllows] at hbudget
        by_cases hallows : s.budgetAllows setup account = true
        · rw [if_pos (by simp [hclear, hallows])]
          refine ⟨t', h.counts hcounts, fun d hd => finishes_turn _ rfl hvet (hbudget [] d ?_)⟩
          rw [hallows]
          exact hd
        · rw [if_neg (by simp [hclear, hallows, hinline])]
          refine ⟨t', (h.counts hcounts).pass hmine, fun d hd =>
            finishes_turn _ rfl hvet (hbudget [] d ?_)⟩
          rw [Bool.not_eq_true] at hallows
          rw [hallows]
          exact hd
    · rw [if_neg (by simp [hclear])]
      refine ⟨t, h.pass hmine, fun d hd => finishes_turn [.consider rest] rfl ?_ hd⟩
      simp only [Errand.perform, Errand.doVet, hlook, hheld, hclear]
      rfl

/-- **The search passes a record over, or claims it.** -/
theorem finishes_candidate (hup : s.world.StoreUp) (hrunning : s.scheduler.stopped = false)
    (h : s.Scouted setup passed t) (a : Attachment) (rest : List Attachment) :
    if s.admits setup a = true then
      ∃ t', s.Scouted setup passed t' ∧ ∀ d,
        Finishes setup ⟨t'.claimed a, [.handOver (t'.unaskedFor a) .done]⟩ d →
          Finishes setup ⟨t, [.consider (a :: rest)]⟩ d
    else
      ∃ t', s.Scouted setup (passed ++ [a]) t' ∧ ∀ d,
        Finishes setup ⟨t', [.consider rest]⟩ d →
          Finishes setup ⟨t, [.consider (a :: rest)]⟩ d := by
  have hconsider : (Errand.consider (a :: rest)).perform setup t =
      { state := t, next := [.vet a rest] } := by
    rw [← h.stopped] at hrunning
    simp [Errand.perform, Errand.doConsider, hrunning]
  have hvet := finishes_vet hup h a rest
  by_cases hfit : s.isFit setup a = true
  · rw [if_pos hfit] at hvet
    obtain ⟨t', hscouted, hclaim⟩ := hvet
    have hmine := State.isOrphan_of_isFit hfit
    have hplace : (t'.scheduler.flights.contains a.id ||
        !t'.scheduler.hasRoomFor setup.settings a.account) = !s.hasPlace setup a := by
      rw [State.hasPlace, Bool.not_and, Bool.not_not, Scheduler.hasRoomFor, hscouted.flights]
    by_cases hfree : s.hasPlace setup a = true
    · have hadmits : s.admits setup a = true := by
        rw [State.admits, hfit, Bool.true_and]
        exact hfree
      rw [if_pos hadmits]
      refine ⟨t', hscouted, fun d hd => finishes_turn _ rfl hconsider
        (hclaim d (finishes_turn [.handOver (t'.unaskedFor a) .done] rfl ?_ hd))⟩
      rw [Errand.perform, Errand.doClaim, if_neg (by rw [hplace, hfree]; decide)]
      rfl
    · have hadmits : ¬ s.admits setup a = true := by
        rw [State.admits, hfit, Bool.true_and]
        exact hfree
      rw [if_neg hadmits]
      refine ⟨t', hscouted.pass hmine, fun d hd => finishes_turn _ rfl hconsider
        (hclaim d (finishes_turn [.consider rest] rfl ?_ hd))⟩
      rw [Errand.perform, Errand.doClaim, if_pos (by rw [hplace]; simpa using hfree)]
  · rw [if_neg hfit] at hvet
    have hadmits : ¬ s.admits setup a = true := by simp [State.admits, hfit]
    rw [if_neg hadmits]
    obtain ⟨t', hscouted, hskip⟩ := hvet
    exact ⟨t', hscouted, fun d hd => finishes_turn _ rfl hconsider (hskip d hd)⟩

/-- The carrier is asked, and answers at once. -/
theorem doHandOver_of_quiet (hquiet : t.world.carrier.Quiet) (r : Request) :
    ∃ accepted carrier, (Errand.doHandOver t r .done).state =
        { t.note (.start r accepted) with world := { t.world with carrier := carrier } } ∧
      (Errand.doHandOver t r .done).next = [.landed r accepted .done] := by
  unfold Errand.doHandOver
  split
  next failing early hcarrier =>
    refine ⟨_, _, rfl, ?_⟩
    rw [hcarrier] at hquiet
    cases early with
    | none => rfl
    | some e =>
      have hleft : e.left = 0 := hquiet
      simp [hleft]
  next files cache hcarrier =>
    split
    · exact ⟨false, .web files cache, by simp [State.note, ← hcarrier], rfl⟩
    next files' job hbegin => exact ⟨true, .web files' cache, rfl, rfl⟩

/-- **A hand-over comes to its end**, and does what it does. -/
theorem finishes_handOver (setup : Setup) (hquiet : t.world.carrier.Quiet) {r : Request}
    (hr : t.scheduler.flights.get? r.id = some r) :
    ∃ accepted d, Finishes setup ⟨t, [.handOver r .done]⟩ d ∧ t.HandsOver r accepted d.state := by
  obtain ⟨accepted, carrier, hstate, hnext⟩ := doHandOver_of_quiet hquiet r
  set u : State :=
    { t.note (.start r accepted) with world := { t.world with carrier := carrier } } with hu
  have hhandovers : u.handovers = (r, accepted) :: t.handovers :=
    t.handovers_note (.start r accepted)
  have hdeletions : u.deletions = t.deletions := t.deletions_note (.start r accepted)
  have hends (v : State) (hv : Errand.doLanded setup u r accepted .done = { state := v }) :
      Finishes setup ⟨t, [.handOver r .done]⟩ ⟨v, []⟩ := by
    refine finishes_cons rfl ?_
    rw [Errand.perform, hstate, hnext]
    exact finishes_turn _ rfl hv (finishes_nil setup v)
  cases accepted with
  | true =>
    refine ⟨true, _, hends _ rfl, ?_⟩
    exact
      { handovers := hhandovers
        deletions := hdeletions
        records := rfl
        failures := rfl
        taken := fun _ => ⟨rfl, rfl⟩
        refused := fun hrefused => absurd hrefused (by decide) }
  | false =>
    obtain ⟨hsameHandovers, hsameDeletions⟩ := u.calls_breakOff setup r.id
    have hbroken : (u.breakOff setup r.id).scheduler = (Scheduler.requeue
        { t.scheduler with flights := t.scheduler.flights.erase r.id } setup.settings u.world.now
          r.land).2 := by
      rw [State.breakOff_scheduler]
      exact congrArg Prod.snd (Scheduler.breakOff_of_some _ _ _ hr)
    refine ⟨false, _, hends _ rfl, ?_⟩
    exact
      { handovers := hsameHandovers.trans hhandovers
        deletions := hsameDeletions.trans hdeletions
        records := by rw [State.arm_world, State.breakOff_world]
        failures := by
          change (u.breakOff setup r.id).scheduler.failures = _
          rw [hbroken, Scheduler.requeue_eq]
        taken := fun htaken => absurd htaken (by decide)
        refused := fun _ => by
          rw [State.arm_flights, State.arm_queue, hbroken]
          exact ⟨Scheduler.flights_requeue _ _ _ _, fun id hid =>
            Scheduler.get?_requeue _ _ _ r.land hid⟩ }

/-- **The search takes off the first record that may be**, or none. The induction is on the records
that are still to be looked at. -/
theorem finishes_consider (hup : s.world.StoreUp) (hrunning : s.scheduler.stopped = false)
    (hquiet : s.world.carrier.Quiet) (h : s.Scouted setup passed t) (rest : List Attachment) :
    ∃ t' d, s.Scouted setup (passed ++ rest.takeWhile fun a => !s.admits setup a) t' ∧
      Finishes setup ⟨t, [.consider rest]⟩ d ∧
      match rest.find? (s.admits setup) with
      | none => d.state = t'
      | some a => ∃ accepted, (t'.claimed a).HandsOver (t'.unaskedFor a) accepted d.state := by
  induction rest generalizing passed t with
  | nil =>
    refine ⟨t, ⟨t, []⟩, ?_, finishes_turn [] rfl rfl (finishes_nil setup t), rfl⟩
    rw [List.takeWhile_nil, List.append_nil]
    exact h
  | cons a rest ih =>
    have hstep := finishes_candidate hup hrunning h a rest
    by_cases hadmits : s.admits setup a = true
    · rw [if_pos hadmits] at hstep
      obtain ⟨t', hscouted, hclaim⟩ := hstep
      have hcarrier : (t'.claimed a).world.carrier.Quiet := by
        have hsame : t'.world.carrier = s.world.carrier := by rw [hscouted.world]
        exact hsame ▸ hquiet
      have hflies : (t'.claimed a).scheduler.flights.get? (t'.unaskedFor a).id =
          some (t'.unaskedFor a) := (Table.get?_insert _ _ _ _).trans (if_pos rfl)
      obtain ⟨accepted, d, hends, hhands⟩ := finishes_handOver setup hcarrier hflies
      refine ⟨t', d, ?_, hclaim d hends, ?_⟩
      · rw [List.takeWhile_cons_of_neg (by simp [hadmits]), List.append_nil]
        exact hscouted
      · rw [List.find?_cons_of_pos hadmits]
        exact ⟨accepted, hhands⟩
    · rw [if_neg hadmits] at hstep
      obtain ⟨t₁, hscouted, hskip⟩ := hstep
      obtain ⟨t', d, hall, hends, hresult⟩ := ih hscouted
      refine ⟨t', d, ?_, hskip d hends, ?_⟩
      · rw [List.takeWhile_cons_of_pos (by simp [hadmits])]
        simpa [List.append_assoc] using hall
      · rw [List.find?_cons_of_neg hadmits]
        exact hresult

end Desk

/-! ### A look ahead -/

theorem Flights.erase_insert {f : Flights} {r : Request} (h : f.contains r.id = false) :
    (f.insert r).erase r.id = f := by
  refine congrArg Flights.mk (Table.ext_get? fun id => ?_)
  have hnone : f.table.get? r.id = none := Table.contains_eq_false_iff.mp h
  rw [Table.get?_erase]
  by_cases hid : id = r.id
  · rw [if_pos hid, hid, hnone]
  · rw [if_neg hid]
    exact (Table.get?_insert _ _ _ _).trans (if_neg hid)

/-- **The records that are looked at**: of those that carry no flag and are not downloaded yet, the
first few, newest first. -/
theorem Records.newest_spec {r : Records} (hfiled : r.Filed) (limit : Nat) :
    ∃ all : List Attachment, r.newest limit = all.take limit ∧
      all.Pairwise (fun a b => b.id < a.id) ∧
      ∀ a, a ∈ all ↔ r.attachments.get? a.id = some a ∧ a.isDownloaded = false ∧
        a.flags.isEmpty = true := by
  refine ⟨_, rfl, (List.pairwise_reverse.mpr hfiled.pairwise_values).filter _, fun a => ?_⟩
  rw [List.mem_filter, List.mem_reverse, hfiled.mem_values, Bool.and_eq_true,
    Bool.not_eq_true']

namespace State

/-- The records without an account before the first one that may be taken off. -/
def orphansBefore (s : State) (setup : Setup) (found : List Attachment) : List Int :=
  ((found.takeWhile fun a => !s.admits setup a).filter s.isOrphan).map (·.id)

/-- **All that a look ahead does**, when it looks at some records: it deletes the records without an
account before the first one that may be taken off, and asks the carrier once, for this one. If
there is none, it asks for none. -/
structure LookedAhead (s : State) (setup : Setup) (found : List Attachment) (s' : State) :
    Prop where
  deletions : s'.deletions = (s.orphansBefore setup found).reverse ++ s.deletions
  attachments : ∀ id, s'.world.records.attachments.get? id =
    if id ∈ s.orphansBefore setup found then none else s.world.records.attachments.get? id
  messages : s'.world.records.messages = s.world.records.messages
  accounts : s'.world.records.accounts = s.world.records.accounts
  failures : s'.scheduler.failures = s.scheduler.failures
  idle : found.find? (s.admits setup) = none →
    s'.handovers = s.handovers ∧ s'.scheduler.queue = s.scheduler.queue ∧
      s'.scheduler.flights = s.scheduler.flights
  taken : ∀ a, found.find? (s.admits setup) = some a → ∃ accepted,
    s'.handovers = (s.unaskedFor a, accepted) :: s.handovers ∧
      if accepted = true then
        s'.scheduler.flights = s.scheduler.flights.insert (s.unaskedFor a) ∧
          s'.scheduler.queue = s.scheduler.queue
      else
        s'.scheduler.flights = s.scheduler.flights ∧ ∀ id, id ≠ a.id →
          s'.scheduler.queue.index.get? id = s.scheduler.queue.index.get? id

end State

namespace Desk

variable {s t : State} {setup : Setup} {passed : List Attachment}

theorem lookedAhead_of_scouted {found : List Attachment} {s' : State}
    (h : s.Scouted setup (found.takeWhile fun a => !s.admits setup a) t)
    (hresult : match found.find? (s.admits setup) with
      | none => s' = t
      | some a => ∃ accepted, (t.claimed a).HandsOver (t.unaskedFor a) accepted s') :
    s.LookedAhead setup found s' := by
  have hmessages : t.world.records.messages = s.world.records.messages := by rw [h.world]
  cases hfirst : found.find? (s.admits setup) with
  | none =>
    rw [hfirst] at hresult
    subst hresult
    exact
      { deletions := h.deletions
        attachments := h.records
        messages := hmessages
        accounts := h.accounts
        failures := h.failures
        idle := fun _ => ⟨h.handovers, h.queue, h.flights⟩
        taken := fun a ha => by cases hfirst.symm.trans ha }
  | some a =>
    rw [hfirst] at hresult
    obtain ⟨accepted, hhands⟩ := hresult
    have hrequest : t.unaskedFor a = s.unaskedFor a := by
      have hnow : t.world.now = s.world.now := by rw [h.world]
      unfold State.unaskedFor
      rw [hnow]
    have hflies : (t.claimed a).scheduler.flights =
        s.scheduler.flights.insert (s.unaskedFor a) := by
      rw [← hrequest, ← h.flights]
      rfl
    have hground : s.scheduler.flights.contains (s.unaskedFor a).id = false := by
      have hadmits := List.find?_some hfirst
      simp only [State.admits, State.hasPlace, Bool.and_eq_true, Bool.not_eq_true'] at hadmits
      exact hadmits.2.1
    exact
      { deletions := hhands.deletions.trans h.deletions
        attachments := fun id => by rw [hhands.records]; exact h.records id
        messages := by rw [hhands.records]; exact hmessages
        accounts := by rw [hhands.records]; exact h.accounts
        failures := hhands.failures.trans h.failures
        idle := fun hnone => by cases hfirst.symm.trans hnone
        taken := fun b hb => by
          obtain rfl : a = b := Option.some.inj (hfirst.symm.trans hb)
          refine ⟨accepted, ?_, ?_⟩
          · rw [hhands.handovers, hrequest]
            exact congrArg _ h.handovers
          · cases accepted with
            | true =>
              obtain ⟨hqueue, hflights⟩ := hhands.taken rfl
              exact ⟨hflights.trans hflies, hqueue.trans h.queue⟩
            | false =>
              obtain ⟨hflights, hqueue⟩ := hhands.refused rfl
              refine ⟨?_, fun id hid => ?_⟩
              · rw [hflights, hflies, hrequest, Flights.erase_insert hground]
              · rw [hqueue id hid]
                exact congrArg (·.index.get? id) h.queue }

/-- **A look ahead** takes off the first record that may be, and no other. In every state of a
scheduler that runs, while no call to the store fails, its records are filed under their own
numbers and the carrier does not report while it is asked, a look ahead comes to its end, and

* with fewer than two free places, off an unmetered network or without background traffic it changes
  nothing;
* otherwise it looks at the newest records that carry no flag and are not downloaded yet, deletes
  those without an account before the first one that may be taken off, and asks the carrier for this
  one, and for no other. -/
theorem look_ahead (setup : Setup) (s : State) (hrunning : s.scheduler.stopped = false)
    (hup : s.world.StoreUp) (hfiled : s.world.records.Filed) (hquiet : s.world.carrier.Quiet) :
    ∃ d, Finishes setup ⟨s, [.lookAhead]⟩ d ∧
      if setup.settings.maxConcurrent - s.scheduler.flights.size < 2 ∨
          s.world.connectivity.network ≠ .unmetered ∨
          s.world.connectivity.autoSync = false then
        d.state = s
      else
        ∃ all : List Attachment, all.Pairwise (fun a b => b.id < a.id) ∧
          (∀ a, a ∈ all ↔ s.world.records.attachments.get? a.id = some a ∧
            a.isDownloaded = false ∧ a.flags.isEmpty = true) ∧
          s.LookedAhead setup (all.take setup.settings.candidates) d.state := by
  by_cases hplaces : setup.settings.maxConcurrent - s.scheduler.flights.size < 2
  · refine ⟨⟨s, []⟩, finishes_turn [] rfl ?_ (finishes_nil setup s), ?_⟩
    · rw [Errand.perform, Errand.doLookAhead, if_pos hplaces]
    · rw [if_pos (.inl hplaces)]
  by_cases hnetwork : s.world.connectivity.network ≠ .unmetered ∨
      s.world.connectivity.autoSync = false
  · refine ⟨⟨s, []⟩, finishes_turn [] rfl ?_ (finishes_nil setup s), ?_⟩
    · have hbarred : s.world.connectivity.allowsBackground = false := by
        unfold Connectivity.allowsBackground
        rcases hnetwork with hmetered | hsync
        · simp [hmetered]
        · simp [hsync]
      rw [Errand.perform, Errand.doLookAhead, if_neg hplaces, hbarred]
      rfl
    · rw [if_pos (.inr hnetwork)]
  · have hallowed : s.world.connectivity.allowsBackground = true := by
      obtain ⟨hunmetered, hsync⟩ := not_or.mp hnetwork
      unfold Connectivity.allowsBackground
      simp [not_not.mp hunmetered, hsync]
    obtain ⟨all, hnewest, hsorted, hall⟩ := s.world.records.newest_spec hfiled
      setup.settings.candidates
    obtain ⟨t, d, hscouted, hends, hresult⟩ := finishes_consider hup hrunning hquiet
      (State.Scouted.refl setup s) (all.take setup.settings.candidates)
    have hbrowse : Finishes setup ⟨s, [.browse]⟩ d := by
      refine finishes_turn [.consider (all.take setup.settings.candidates)] rfl ?_ hends
      rw [Errand.perform, Errand.doBrowse, hup.newest, hnewest]
    refine ⟨d, ?_, ?_⟩
    · refine finishes_turn [.browse] rfl ?_ hbrowse
      rw [Errand.perform, Errand.doLookAhead, if_neg hplaces, hallowed]
      rfl
    · rw [if_neg (not_or.mpr ⟨hplaces, hnetwork⟩)]
      exact ⟨all, hsorted, hall, lookedAhead_of_scouted hscouted hresult⟩

/-- Three records that nobody asked for, newest first: one without an account, one in a message's
text, and one more without an account. -/
def strayRecords : List Attachment :=
  [{ id := 3, message := 30, account := 9 },
    { id := 2, message := 20, account := 1, contentId := some "cid" },
    { id := 1, message := 10, account := 9 }]

/-- A world with these records and with one account. -/
def strayWorld : World where
  records := .ofSeed { accounts := [{ id := 1 }], attachments := strayRecords }

/-- The record without an account that is newer than the download is deleted, the older one is not,
and the carrier is asked once. -/
theorem look_ahead_stray :
    ∃ d, Finishes {} ⟨(fresh strayWorld).state, [.lookAhead]⟩ d ∧ d.state.deletions = [3] ∧
      d.state.handovers.map (·.1.id) = [2] ∧
      (d.state.world.records.attachments.get? 1).isSome = true := by
  have hfiled : strayWorld.records.Filed := Records.filed_ofSeed _
  obtain ⟨d, hends, hresult⟩ := look_ahead {} (fresh strayWorld).state rfl
    (List.forall_mem_nil _) hfiled trivial
  rw [if_neg (by decide)] at hresult
  obtain ⟨all, hsorted, hall, hlooked⟩ := hresult
  have hmem (a : Attachment) : a ∈ all ↔ a ∈ strayRecords := by
    have hbare : ∀ a ∈ strayRecords, a.isDownloaded = false ∧ a.flags.isEmpty = true := by decide
    have hvalues : strayWorld.records.attachments.values = strayRecords.reverse := by decide
    have hstored : strayWorld.records.attachments.get? a.id = some a ↔ a ∈ strayRecords := by
      rw [← hfiled.mem_values, hvalues, List.mem_reverse]
    exact (hall a).trans ⟨fun h => hstored.mp h.1, fun h => ⟨hstored.mpr h, hbare a h⟩⟩
  have hnodup : all.Nodup :=
    hsorted.imp fun {a b} h (heq : a = b) => Int.ne_of_gt h (congrArg _ heq)
  obtain rfl : all = strayRecords :=
    List.Perm.eq_of_pairwise (fun a b _ _ h₁ h₂ => absurd h₁ (Int.lt_asymm h₂)) hsorted
      (by decide) ((List.perm_ext_iff_of_nodup hnodup (by decide)).mpr hmem)
  have hfirst : strayRecords.find? ((fresh strayWorld).state.admits {}) =
      some { id := 2, message := 20, account := 1, contentId := some "cid" } := by decide
  obtain ⟨accepted, hasked, -⟩ := hlooked.taken _ hfirst
  refine ⟨d, hends, ?_, ?_, ?_⟩
  · rw [hlooked.deletions]
    decide
  · rw [hasked]
    rfl
  · rw [hlooked.attachments]
    decide

end Desk

end MailFetch

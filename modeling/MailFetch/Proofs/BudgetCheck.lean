import MailFetch.Proofs.Desk

/-! # A check of a budget and the ledger of the storage

Before something is downloaded that nobody asked for, the account is asked whether it wants this,
the storage whether enough of it is free, and the ledger whether the account is still below its
share. The ledger is believed as long as its entry is not above the share; otherwise the bytes are
counted, and the count becomes the entry. So the answer and the ledger cannot disagree: whoever
reads the entry after the check finds the number that decided.

* `State.OffersShare`: what has to hold before the ledger is looked at at all.
* `State.BudgetEnds`: the four ways in which a check can end, each with its answer and the state
  that it leaves. `Desk.answers_of_ends`: a check does end so.
* `Desk.budget_check`: the answer is read off the entry after the check; the check changes no other
  entry, and this one only to a count; an entry that is not believed is counted if it can be; and a
  second check finds what the first one left. -/

namespace MailFetch

/-- A count that is entered once more changes nothing. -/
theorem UsageLedger.set_of_get? {l : UsageLedger} {account : Int} {bytes : Nat}
    (h : l.get? account = some bytes) : l.set account bytes = l := by
  refine congrArg UsageLedger.mk (Table.ext_get? fun id => ?_)
  rw [Table.get?_insert]
  split_ifs with hid
  · exact hid ▸ h.symm
  · rfl

namespace State

variable {s t : State} {setup : Setup} {account : Account} {share share' used : Nat}

/-- **An account is offered a share of the storage**: it wants downloads that nobody asked for,
enough of the storage is free, and neither the storage nor the count of the accounts fails. -/
def OffersShare (s : State) (setup : Setup) (account : Account) (share : Nat) : Prop :=
  account.background = true ∧ ∃ c n, s.world.storage = some c ∧
    setup.settings.minAvailable c.total ≤ c.available ∧ s.world.accountCount = .ok n ∧
      share = setup.settings.share c.total (max n 1)

theorem OffersShare.unique (h : s.OffersShare setup account share)
    (h' : s.OffersShare setup account share') : share = share' := by
  obtain ⟨-, c, n, hstorage, -, haccounts, rfl⟩ := h
  obtain ⟨-, c', n', hstorage', -, haccounts', rfl⟩ := h'
  obtain rfl : c = c' := Option.some.inj (hstorage.symm.trans hstorage')
  obtain rfl : n = n' := Except.ok.inj (haccounts.symm.trans haccounts')
  rfl

/-- What is offered depends on the world and not on the ledger. -/
theorem OffersShare.of_world (hworld : t.world = s.world) (h : s.OffersShare setup account share) :
    t.OffersShare setup account share := by
  unfold OffersShare
  rw [hworld]
  exact h

/-- The bytes of an account are counted. -/
def scanned (s : State) (account : Account) : State := s.note (.scan account.id)

/-- The bytes of an account are counted, and the count is entered into the ledger. -/
def entered (s : State) (account : Account) (bytes : Nat) : State :=
  (s.scanned account).withScheduler
    { s.scheduler with usage := s.scheduler.usage.set account.id bytes }

/-- The ledger has no entry for an account, or one above its share. -/
def Distrusts (s : State) (account : Account) (share : Nat) : Prop :=
  ∀ used, s.scheduler.usage.get? account.id = some used → share < used

/-- **How a check of a budget can end**: with its answer, and the state that it leaves. -/
inductive BudgetEnds (setup : Setup) (s : State) (account : Account) : Bool → State → Prop
  /-- The account is offered no share. -/
  | barred (hoffer : ¬ ∃ share, s.OffersShare setup account share) :
      BudgetEnds setup s account false s
  /-- The entry is not above the share, and is believed. -/
  | trusted {share used : Nat} (hoffer : s.OffersShare setup account share)
      (hentry : s.scheduler.usage.get? account.id = some used) (hle : used ≤ share) :
      BudgetEnds setup s account (used < share) s
  /-- The bytes could not be counted. -/
  | uncounted {share : Nat} (hoffer : s.OffersShare setup account share)
      (hdistrusts : s.Distrusts account share) (hcount : s.world.count account.id = none) :
      BudgetEnds setup s account false (s.scanned account)
  /-- The bytes were counted, and the count decides. -/
  | counted {share used : Nat} (hoffer : s.OffersShare setup account share)
      (hdistrusts : s.Distrusts account share) (hcount : s.world.count account.id = some used) :
      BudgetEnds setup s account (used < share) (s.entered account used)

theorem get?_entered (s : State) (account : Account) (bytes : Nat) (id : Int) :
    (s.entered account bytes).scheduler.usage.get? id =
      if id = account.id then some bytes else s.scheduler.usage.get? id :=
  Table.get?_insert _ _ _ _

/-- The ledger either has an entry that is believed, or is distrusted. -/
theorem trusts_or_distrusts (s : State) (account : Account) (share : Nat) :
    (∃ used, s.scheduler.usage.get? account.id = some used ∧ used ≤ share) ∨
      s.Distrusts account share := by
  by_cases h : ∃ used, s.scheduler.usage.get? account.id = some used ∧ used ≤ share
  · exact .inl h
  · refine .inr fun used hused => ?_
    by_contra hle
    exact h ⟨used, hused, Nat.not_lt.mp hle⟩

theorem budget_ends (setup : Setup) (s : State) (account : Account) :
    ∃ yes s', s.BudgetEnds setup account yes s' := by
  by_cases hoffer : ∃ share, s.OffersShare setup account share
  · obtain ⟨share, hoffer⟩ := hoffer
    rcases s.trusts_or_distrusts account share with ⟨used, hentry, hle⟩ | hdistrusts
    · exact ⟨_, _, .trusted hoffer hentry hle⟩
    · cases hcount : s.world.count account.id with
      | none => exact ⟨_, _, .uncounted hoffer hdistrusts hcount⟩
      | some used => exact ⟨_, _, .counted hoffer hdistrusts hcount⟩
  · exact ⟨_, _, .barred hoffer⟩

namespace BudgetEnds

variable {s' : State} {yes : Bool}

/-- **The answer is read off the entry after the check.** -/
theorem answer (h : s.BudgetEnds setup account yes s') :
    yes = true ↔ ∃ share used, s.OffersShare setup account share ∧
      s'.scheduler.usage.get? account.id = some used ∧ used < share := by
  cases h with
  | barred hoffer =>
    refine ⟨fun h => absurd h Bool.false_ne_true, ?_⟩
    rintro ⟨share, _, hshare, -, -⟩
    exact absurd ⟨share, hshare⟩ hoffer
  | trusted hoffer hentry hle =>
    rw [decide_eq_true_iff]
    refine ⟨fun hlt => ⟨_, _, hoffer, hentry, hlt⟩, ?_⟩
    rintro ⟨share, used, hshare, hused, hlt⟩
    rwa [hoffer.unique hshare, Option.some.inj (hentry.symm.trans hused)]
  | uncounted hoffer hdistrusts hcount =>
    -- An entry that stayed is above the share.
    refine ⟨fun h => absurd h Bool.false_ne_true, ?_⟩
    rintro ⟨share, used, hshare, hused, hlt⟩
    obtain rfl := hoffer.unique hshare
    exact absurd (hdistrusts used hused) (Nat.lt_asymm hlt)
  | @counted share used hoffer hdistrusts hcount =>
    have hentry := (s.get?_entered account used account.id).trans (if_pos rfl)
    rw [decide_eq_true_iff]
    refine ⟨fun hlt => ⟨share, used, hoffer, hentry, hlt⟩, ?_⟩
    rintro ⟨share', used', hshare, hused, hlt⟩
    rwa [hoffer.unique hshare, Option.some.inj (hentry.symm.trans hused)]

/-- **An entry that is not above the share** is believed, also if it is just the share. -/
theorem believed (h : s.BudgetEnds setup account yes s')
    (hoffer : s.OffersShare setup account share)
    (hentry : s.scheduler.usage.get? account.id = some used) (hle : used ≤ share) : s' = s := by
  have hbelieved :
      ¬ ∃ share', s.OffersShare setup account share' ∧ s.Distrusts account share' := by
    rintro ⟨share', hoffer', hdistrusts⟩
    obtain rfl := hoffer.unique hoffer'
    have hlt := hdistrusts used hentry
    omega
  cases h with
  | barred | trusted => rfl
  | uncounted hoffer' hdistrusts => exact absurd ⟨_, hoffer', hdistrusts⟩ hbelieved
  | counted hoffer' hdistrusts => exact absurd ⟨_, hoffer', hdistrusts⟩ hbelieved

/-- **A missing entry, or one above the share**, is counted, and the count becomes the entry. -/
theorem counts (h : s.BudgetEnds setup account yes s') (hoffer : s.OffersShare setup account share)
    (hdistrusts : s.Distrusts account share) (hcount : s.world.count account.id = some used) :
    s' = s.entered account used := by
  cases h with
  | barred hnone => exact absurd ⟨share, hoffer⟩ hnone
  | @trusted _ entry hoffer' hentry hle =>
    obtain rfl := hoffer.unique hoffer'
    have hlt := hdistrusts entry hentry
    omega
  | uncounted _ _ hfails =>
    rw [hcount] at hfails
    cases hfails
  | counted _ _ hcount' => rw [Option.some.inj (hcount.symm.trans hcount')]

theorem usage_other (h : s.BudgetEnds setup account yes s') {id : Int} (hid : id ≠ account.id) :
    s'.scheduler.usage.get? id = s.scheduler.usage.get? id := by
  cases h with
  | counted => rw [get?_entered, if_neg hid]
  | _ => rfl

/-- **The entry changes only to a count**, and only where it was missing or above the share. -/
theorem usage_self (h : s.BudgetEnds setup account yes s') :
    s'.scheduler.usage.get? account.id = s.scheduler.usage.get? account.id ∨
      ∃ share used, s.OffersShare setup account share ∧ s.Distrusts account share ∧
        s.world.count account.id = some used ∧
        s'.scheduler.usage.get? account.id = some used := by
  cases h with
  | @counted share used hoffer hdistrusts hcount =>
    refine .inr ⟨share, used, hoffer, hdistrusts, hcount, ?_⟩
    rw [get?_entered, if_pos rfl]
  | _ => exact .inl rfl

theorem frame (h : s.BudgetEnds setup account yes s') :
    s'.world = s.world ∧ s'.scheduler = { s.scheduler with usage := s'.scheduler.usage } := by
  cases h <;> exact ⟨rfl, rfl⟩

/-- **A second check ends as the first one**: what it counted is either believed now, or is above
the share, is counted once more and is entered once more. -/
theorem again (h : s.BudgetEnds setup account yes s') (hworld : t.world = s'.world)
    (husage : t.scheduler.usage = s'.scheduler.usage) :
    ∃ t', t.BudgetEnds setup account yes t' ∧ t'.scheduler.usage = s'.scheduler.usage := by
  have hsame : t.world = s.world := hworld.trans h.frame.1
  cases h with
  | barred hoffer =>
    refine ⟨t, .barred ?_, husage⟩
    rintro ⟨share, hshare⟩
    exact hoffer ⟨share, hshare.of_world hsame.symm⟩
  | trusted hoffer hentry hle =>
    exact ⟨t, .trusted (hoffer.of_world hsame) (husage ▸ hentry) hle, husage⟩
  | uncounted hoffer hdistrusts hcount =>
    refine ⟨_, .uncounted (hoffer.of_world hsame) (fun used hused => ?_) (hsame ▸ hcount), husage⟩
    exact hdistrusts used (husage ▸ hused)
  | @counted share used hoffer hdistrusts hcount =>
    have hentry : t.scheduler.usage.get? account.id = some used := by
      rw [husage, get?_entered, if_pos rfl]
    by_cases hle : used ≤ share
    · exact ⟨t, .trusted (hoffer.of_world hsame) hentry hle, husage⟩
    · have hagain : t.Distrusts account share := fun used' hused' =>
        Option.some.inj (hentry.symm.trans hused') ▸ Nat.not_le.mp hle
      refine ⟨_, .counted (hoffer.of_world hsame) hagain (hsame ▸ hcount), ?_⟩
      exact (UsageLedger.set_of_get? hentry).trans husage

end BudgetEnds

end State

namespace Desk

open Errand (afterBudget)

variable {setup : Setup} {s t : State} {account : Account} {share used : Nat}

/-- **A check of a budget answers** `yes` and leaves the state `s'` behind, whoever asks and
whatever comes after it. -/
def Answers (setup : Setup) (s : State) (account : Account) (yes : Bool) (s' : State) : Prop :=
  ∀ asker others, ∃ turns,
    (⟨s, .budget account asker :: others⟩ : Desk).run setup (List.replicate turns .turn) =
      some ⟨s', afterBudget yes asker ++ others⟩

/-! ### How a check can end -/

/-- What a turn leaves, when it is known what the errand in hand does. -/
theorem move_turn_of {e : Errand} {s' : State} {next others : List Errand}
    (h : e.perform setup s = { state := s', next := next }) :
    (⟨s, e :: others⟩ : Desk).move setup .turn = some ⟨s', next ++ others⟩ := by
  change some (⟨(e.perform setup s).state, (e.perform setup s).left others⟩ : Desk) = _
  rw [h]
  rfl

/-- A check that ends before it comes to the share. -/
theorem answers_early (hbudget : ∀ asker, (Errand.budget account asker).perform setup s =
    { state := s, next := afterBudget false asker }) : Answers setup s account false s := by
  intro asker others
  exact ⟨1, follow_cons (move_turn_of (hbudget asker))⟩

/-- A check that comes to the share. -/
theorem answers_share {yes : Bool} {s' : State} {total : Nat}
    (hbudget : ∀ asker, (Errand.budget account asker).perform setup s =
      { state := s, next := [.share account total asker] })
    (hshare : ∀ asker, (Errand.share account total asker).perform setup s =
      { state := s', next := afterBudget yes asker }) : Answers setup s account yes s' := by
  intro asker others
  exact ⟨2, (follow_cons (move_turn_of (hbudget asker))).trans
    (follow_cons (move_turn_of (hshare asker)))⟩

/-- The free space is looked at before the ledger. -/
theorem budget_of_offered (h : s.OffersShare setup account share) :
    ∃ (c : Capacity) (n : Nat), s.world.accountCount = .ok n ∧
      share = setup.settings.share c.total (max n 1) ∧
        ∀ asker, (Errand.budget account asker).perform setup s =
          { state := s, next := [.share account c.total asker] } := by
  obtain ⟨hwants, c, n, hstorage, hfree, haccounts, hshare⟩ := h
  refine ⟨c, n, haccounts, hshare, fun asker => ?_⟩
  simp [Errand.perform, Errand.doBudget, hwants, hstorage, Nat.not_lt.mpr hfree]

/-- **Without an offer** the answer is no, and nothing happens. -/
theorem answers_unless_offered (h : ¬ ∃ share, s.OffersShare setup account share) :
    Answers setup s account false s := by
  by_cases hwants : account.background = true
  · cases hstorage : s.world.storage with
    | none =>
      exact answers_early fun asker => by simp [Errand.perform, Errand.doBudget, hwants, hstorage]
    | some c =>
      by_cases hfree : c.available < setup.settings.minAvailable c.total
      · exact answers_early fun asker => by
          simp [Errand.perform, Errand.doBudget, hwants, hstorage, hfree]
      · cases haccounts : s.world.accountCount with
        | error e =>
          have hbudget (asker : Asker) : (Errand.budget account asker).perform setup s =
              { state := s, next := [.share account c.total asker] } := by
            simp [Errand.perform, Errand.doBudget, hwants, hstorage, hfree]
          exact answers_share hbudget fun asker => by
            simp [Errand.perform, Errand.doShare, haccounts]
        | ok n =>
          exact absurd ⟨_, hwants, c, n, hstorage, Nat.not_lt.mp hfree, haccounts, rfl⟩ h
  · exact answers_early fun asker => by simp [Errand.perform, Errand.doBudget, hwants]

/-- **An entry not above the share** is believed. -/
theorem answers_trusted (h : s.OffersShare setup account share)
    (hentry : s.scheduler.usage.get? account.id = some used) (hle : used ≤ share) :
    Answers setup s account (used < share) s := by
  obtain ⟨c, n, haccounts, rfl, hbudget⟩ := budget_of_offered h
  refine answers_share hbudget fun asker => ?_
  simp [Errand.perform, Errand.doShare, haccounts, hentry, Option.filter, hle]

theorem filter_of_distrusts (h : s.Distrusts account share) :
    (s.scheduler.usage.get? account.id).filter (· ≤ share) = none := by
  refine Option.filter_eq_none_iff.mpr fun used hused => ?_
  simpa using h used hused

/-- **A count that fails** is answered with no, and leaves the ledger alone. -/
theorem answers_uncounted (h : s.OffersShare setup account share)
    (hdistrusts : s.Distrusts account share) (hcount : s.world.count account.id = none) :
    Answers setup s account false (s.scanned account) := by
  obtain ⟨c, n, haccounts, rfl, hbudget⟩ := budget_of_offered h
  refine answers_share hbudget fun asker => ?_
  simp only [Errand.perform, Errand.doShare, haccounts, filter_of_distrusts hdistrusts, hcount]
  rfl

/-- **A count** decides, and is entered into the ledger. -/
theorem answers_counted (h : s.OffersShare setup account share)
    (hdistrusts : s.Distrusts account share) (hcount : s.world.count account.id = some used) :
    Answers setup s account (used < share) (s.entered account used) := by
  obtain ⟨c, n, haccounts, rfl, hbudget⟩ := budget_of_offered h
  refine answers_share hbudget fun asker => ?_
  simp only [Errand.perform, Errand.doShare, haccounts, filter_of_distrusts hdistrusts, hcount]
  rfl

theorem answers_of_ends {yes : Bool} {s' : State} (h : s.BudgetEnds setup account yes s') :
    Answers setup s account yes s' := by
  cases h with
  | barred hoffer => exact answers_unless_offered hoffer
  | trusted hoffer hentry hle => exact answers_trusted hoffer hentry hle
  | uncounted hoffer hdistrusts hcount => exact answers_uncounted hoffer hdistrusts hcount
  | counted hoffer hdistrusts hcount => exact answers_counted hoffer hdistrusts hcount

/-- **The check of a budget and the ledger agree.** In every state and for every account, a check
comes to an answer, and

* the answer is yes exactly if the account is offered a share and its entry after the check exists
  and is below it;
* no other entry changes, and this one only where it was missing or above the share, and then to the
  exact count;
* where an offer is made, an entry that is at most the share is believed and nothing happens at all;
  a missing entry, or one above the share, is counted if it can be, and is the count afterwards;
* nothing else of the scheduler and nothing of the world changes;
* a second check, with the world and the ledger as the first one left them, gives the same answer
  and leaves the same ledger. -/
theorem budget_check (setup : Setup) (s : State) (account : Account) :
    ∃ yes s', Answers setup s account yes s' ∧
      (yes = true ↔ ∃ share used, s.OffersShare setup account share ∧
        s'.scheduler.usage.get? account.id = some used ∧ used < share) ∧
      (∀ id, id ≠ account.id → s'.scheduler.usage.get? id = s.scheduler.usage.get? id) ∧
      (s'.scheduler.usage.get? account.id = s.scheduler.usage.get? account.id ∨
        ∃ share used, s.OffersShare setup account share ∧ s.Distrusts account share ∧
          s.world.count account.id = some used ∧
          s'.scheduler.usage.get? account.id = some used) ∧
      (∀ share used, s.OffersShare setup account share →
        s.scheduler.usage.get? account.id = some used → used ≤ share → s' = s) ∧
      (∀ share used, s.OffersShare setup account share → s.Distrusts account share →
        s.world.count account.id = some used →
          s' = s.entered account used ∧ s'.scheduler.usage.get? account.id = some used) ∧
      s'.world = s.world ∧ s'.scheduler = { s.scheduler with usage := s'.scheduler.usage } ∧
      ∀ t, t.world = s'.world → t.scheduler.usage = s'.scheduler.usage →
        ∃ t', Answers setup t account yes t' ∧ t'.scheduler.usage = s'.scheduler.usage := by
  obtain ⟨yes, s', hends⟩ := s.budget_ends setup account
  refine ⟨yes, s', answers_of_ends hends, hends.answer, fun _ => hends.usage_other,
    hends.usage_self, fun _ _ => hends.believed,
    fun share used hoffer hdistrusts hcount => ?_, hends.frame.1, hends.frame.2,
    fun t hworld husage => ?_⟩
  · obtain rfl := hends.counts hoffer hdistrusts hcount
    exact ⟨rfl, (s.get?_entered account used account.id).trans (if_pos rfl)⟩
  · obtain ⟨t', hagain, hledger⟩ := hends.again hworld husage
    exact ⟨t', answers_of_ends hagain, hledger⟩

/-! ### At the share -/

/-- An account that wants downloads that nobody asked for. -/
def soleAccount : Account := { id := 1, background := true }

/-- The share of an account that is the only one. -/
def soleShare : Nat := ({} : Settings).share 1000 1

/-- There is just enough space free, the account is the only one, and its bytes are just its
share. -/
def soleState (usage : UsageLedger) : State where
  world :=
    { records := .ofSeed { accounts := [soleAccount] }
      capacity := ⟨1000, ({} : Settings).minAvailable 1000⟩
      stored := Table.empty.insert 1 soleShare }
  scheduler := { usage := usage }

theorem offersShare_soleState (usage : UsageLedger) :
    (soleState usage).OffersShare {} soleAccount soleShare :=
  ⟨rfl, ⟨1000, ({} : Settings).minAvailable 1000⟩, 1, rfl, Nat.le_refl _, rfl, rfl⟩

/-- **At the share** there is no room. An entry that is just the share is believed. An entry that is
one byte more is counted, and so is a missing one: the entry is the count afterwards. -/
theorem budget_check_at_share :
    Answers {} (soleState (.set {} 1 soleShare)) soleAccount false
      (soleState (.set {} 1 soleShare)) ∧
    ∀ usage ∈ [{}, UsageLedger.set {} 1 (soleShare + 1)],
      ∃ s', Answers {} (soleState usage) soleAccount false s' ∧
        s'.log = [⟨0, .scan 1⟩] ∧ s'.scheduler.usage.get? 1 = some soleShare := by
  have hfull {usage : UsageLedger} {yes : Bool} {s' : State}
      (hyes : yes = true ↔ ∃ share used, (soleState usage).OffersShare {} soleAccount share ∧
        s'.scheduler.usage.get? 1 = some used ∧ used < share)
      (hentry : s'.scheduler.usage.get? 1 = some soleShare) : yes = false := by
    refine Bool.eq_false_iff.mpr fun htrue => ?_
    obtain ⟨share, used, hoffer, hused, hlt⟩ := hyes.mp htrue
    obtain rfl := (offersShare_soleState usage).unique hoffer
    obtain rfl : soleShare = used := Option.some.inj (hentry.symm.trans hused)
    exact Nat.lt_irrefl _ hlt
  constructor
  · obtain ⟨yes, s', hanswers, hyes, -, -, hbelieved, -⟩ :=
      budget_check {} (soleState (.set {} 1 soleShare)) soleAccount
    have hentry : (soleState (.set {} 1 soleShare)).scheduler.usage.get? soleAccount.id =
        some soleShare := rfl
    obtain rfl := hbelieved soleShare soleShare (offersShare_soleState _) hentry (Nat.le_refl _)
    rwa [hfull hyes hentry] at hanswers
  · intro usage husage
    have hdistrusts : (soleState usage).Distrusts soleAccount soleShare := by
      intro used hused
      obtain rfl | rfl : usage = {} ∨ usage = .set {} 1 (soleShare + 1) := by simpa using husage
      · cases hused
      · obtain rfl : soleShare + 1 = used := Option.some.inj hused
        exact Nat.lt_succ_self _
    obtain ⟨yes, s', hanswers, hyes, -, -, -, hcounts, -⟩ :=
      budget_check {} (soleState usage) soleAccount
    obtain ⟨hleft, hentry⟩ :=
      hcounts soleShare soleShare (offersShare_soleState usage) hdistrusts rfl
    rw [hfull hyes hentry] at hanswers
    exact ⟨s', hanswers, by rw [hleft]; rfl, hentry⟩

end Desk

end MailFetch

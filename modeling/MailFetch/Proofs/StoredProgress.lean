import MailFetch.Proofs.Barred
import MailFetch.Proofs.ProgressWrites

/-! # What stored progress says of the transfer

The bytes that a record says are downloaded come from the reports on its transfers. When a transfer
is tried again, the record keeps the bytes of the attempt before, and the next request keeps the
percentage that was entered last; what the new attempt reports is not entered before it is a step
further than that. So the record says no more than the furthest attempt so far has reported, but it
may say more than the present one has.

* `Crew.percents`: what has been reported of an attachment, attempt by attempt.
* `World.StoredWithin`, `Errand.StoresWithin`: the record, and what an errand may still enter into
  it, are within a percentage of the size. `Errand.perform_storedWithin`,
  `Errand.storesWithin_next`: what an errand keeps of both.
* `Crew.stored_progress_le`: stored progress is within the furthest of what has been reported.
  `Crew.not_stores_within_present`: it may be ahead of the present attempt. -/

namespace MailFetch

/-! ### What is reported, attempt by attempt -/

/-- What happens to the transfers of an attachment. -/
inductive TransferSign
  /-- A request is taken off: a new attempt. -/
  | takenOff
  /-- The percentage of a report, which is all of it after a success. -/
  | reported (percent : Nat)
deriving DecidableEq

/-- The percentages attempt by attempt, the latest first. -/
def TransferSign.perAttempt : List TransferSign → List (List Nat)
  | [] => []
  | .takenOff :: before => [] :: perAttempt before
  | .reported percent :: before =>
    match perAttempt before with
    | [] => [[percent]]
    | present :: former => (percent :: present) :: former

theorem TransferSign.mem_perAttempt {percent : Nat} {signs : List TransferSign} :
    .reported percent ∈ signs ↔ ∃ attempt ∈ perAttempt signs, percent ∈ attempt := by
  induction signs with
  | nil => simp [perAttempt]
  | cons sign before ih =>
    cases sign with
    | takenOff => simp [perAttempt, ih]
    | reported q =>
      rw [perAttempt, List.mem_cons, ih]
      cases perAttempt before <;> simp [or_assoc]

namespace Errand

/-- The percentage that an errand reports of an attachment in flight: that of a report of progress,
and all of it if the transfer has succeeded. -/
def percentOf (id : Int) (s : State) : Errand → Option Nat
  | hear report =>
    if report.id = id ∧ s.scheduler.flights.contains id = true then
      match report.status with
      | .inProgress => some report.percent
      | .success => some 100
      | _ => none
    else none
  | _ => none

/-- What an errand does to the transfers of an attachment. -/
def signs (setup : Setup) (id : Int) (s : State) (e : Errand) : List TransferSign :=
  (if (e.perform setup s).next.any (·.asks id) then [.takenOff] else []) ++
    ((e.percentOf id s).map .reported).toList

end Errand

namespace Crew

/-- What a move does to the transfers of an attachment. -/
def signsOf (setup : Setup) (id : Int) (c : Crew) : CrewMove → List TransferSign
  | .turn i =>
    match c.tasks[i]? with
    | some (e :: _) => e.signs setup id c.state
    | _ => []
  | _ => []

/-- What happens to the transfers of an attachment in a run, the latest first. -/
def signs (setup : Setup) (id : Int) : Crew → List CrewMove → List TransferSign :=
  recorded (move setup) (signsOf setup id)

/-- **The percentages reported of an attachment** in a run while it was in flight, attempt by
attempt, the latest attempt and in it the latest report first. -/
def percents (setup : Setup) (id : Int) (c : Crew) (moves : List CrewMove) : List (List Nat) :=
  TransferSign.perAttempt (c.signs setup id moves)

end Crew

/-! ### The record -/

/-- **The record of an attachment says no more than a percentage** of `n` bytes, its size. -/
structure World.StoredWithin (w : World) (id : Int) (n percent : Nat) : Prop where
  filed : w.records.Filed
  record : ∀ a, w.records.attachments.get? id = some a →
    a.size = n ∧ a.downloadedSize ≤ Update.bytesAt n percent

namespace World.StoredWithin

variable {w : World} {id j : Int} {n percent : Nat} {u : Update}

theorem update (h : w.StoredWithin id n percent)
    (hu : j = id → ∀ bytes, u.downloadedSize = some bytes → bytes ≤ Update.bytesAt n percent) :
    (w.update j u).StoredWithin id n percent := by
  refine ⟨filed_update h.filed j u, fun a ha => ?_⟩
  rcases get?_of_update ha with hbefore | ⟨hid, a₀, ha₀, rfl⟩
  · exact h.record a hbefore
  · obtain ⟨hsize, hle⟩ := h.record a₀ ha₀
    refine ⟨hsize, ?_⟩
    cases hbytes : u.downloadedSize with
    | none =>
      simp only [Update.apply, hbytes, Option.getD_none]
      exact hle
    | some bytes =>
      simp only [Update.apply, hbytes, Option.getD_some]
      exact hu hid bytes hbytes

theorem delete (h : w.StoredWithin id n percent) : (w.delete j).2.StoredWithin id n percent :=
  ⟨filed_delete h.filed j, fun a ha => h.record a (get?_of_delete ha)⟩

end World.StoredWithin

/-! ### What is still to be entered -/

namespace Errand

variable {setup : Setup} {s : State} {e x : Errand} {id : Int} {n percent : Nat}

/-- **What an errand may still enter** into the record of an attachment is within a percentage of
`n` bytes. -/
def StoresWithin (id : Int) (n percent : Nat) : Errand → Prop
  | recordProgress j p => j = id → p ≤ percent
  | write j u => j = id → ∀ bytes, u.downloadedSize = some bytes → bytes ≤ Update.bytesAt n percent
  | settle j status => j = id → status = .success → 100 ≤ percent
  | conclude r status => r.id = id → status = .success → 100 ≤ percent
  | expunge _ status _ => status ≠ .success
  | close status (some a) _ => a.id = id → status = .success → 100 ≤ percent ∧ a.size = n
  | _ => True

/-- An errand that goes on with no report enters nothing. -/
theorem storesWithin_of_not_goesOn (h : e.goesOn = false) : e.StoresWithin id n percent := by
  cases e <;> trivial

/-- **What an errand leads to stores no more** than the errand itself, and what it reports. -/
theorem storesWithin_next (hn : n < UInt64.size) (hs : s.world.StoredWithin id n percent)
    (hfiled : s.scheduler.flights.Filed) (he : e.StoresWithin id n percent)
    (hreported : ∀ p, e.percentOf id s = some p → p ≤ percent)
    (hx : x ∈ (e.perform setup s).next) : x.StoresWithin id n percent := by
  cases x with
  | recordProgress j p =>
    rintro rfl
    obtain ⟨report, r, rfl, rfl, rfl, hflies, hgoes, -⟩ := of_recordProgress hx
    refine hreported report.percent ?_
    have hin := Flights.contains_iff.mpr ⟨r, hflies⟩
    simp only [percentOf, hin, and_self, if_true, Status.eq_inProgress hgoes]
  | write j u =>
    rintro rfl bytes hbytes
    obtain ⟨p, a, rfl, ha, rfl⟩ := of_write hx
    obtain ⟨hsize, -⟩ := hs.record a (World.get?_of_attachment ha)
    obtain rfl := Option.some.inj hbytes
    rw [hsize]
    exact Update.bytesAt_mono hn (he rfl)
  | settle j status =>
    rintro rfl rfl
    obtain ⟨report, rfl, rfl, hsuccess, hin⟩ := of_settle hx
    refine hreported 100 ?_
    simp only [percentOf, hin, and_self, if_true, hsuccess]
  | conclude r status =>
    rintro rfl rfl
    obtain ⟨j, r₀, rfl, hr₀, hid⟩ := of_conclude hx
    exact he ((hfiled j r₀ hr₀).symm.trans hid) rfl
  | expunge j status record =>
    obtain ⟨r, -, ⟨-, hfailed, -⟩ | ⟨-, rfl⟩⟩ := of_expunge hx
    · exact hfailed
    · intro hsame
      cases hsame
  | close status record deleted =>
    cases record with
    | none => trivial
    | some a =>
      rintro hid rfl
      rcases of_close hx with ⟨r, rfl, -, hfound⟩ | ⟨r, -, -, hstatus⟩ | ⟨j, rfl, -⟩
      · -- A success closes the record that has just been looked up.
        have ha := World.get?_of_attachment hfound
        have hr : r.id = id := (hs.filed r.id a ha).symm.trans hid
        exact ⟨he hr rfl, (hs.record a (hr ▸ ha)).1⟩
      · cases hstatus
      · exact absurd rfl he
  | _ => trivial

/-- What an update enters that an errand makes, but for the one that closes the record. -/
theorem StoresWithin.of_updates {u : Update} (he : e.StoresWithin id n percent)
    (hclose : ∀ status record deleted, e ≠ close status record deleted) (hu : e.Updates id u) :
    ∀ bytes, u.downloadedSize = some bytes → bytes ≤ Update.bytesAt n percent := by
  cases e with
  | refuse a =>
    obtain ⟨-, rfl⟩ := hu
    intro bytes hbytes
    cases hbytes
  | write j v =>
    obtain ⟨rfl, rfl⟩ := hu
    exact he rfl
  | close status record deleted => exact absurd rfl (hclose status record deleted)
  | _ => exact hu.elim

/-- **An errand stores no more** than it may. -/
theorem perform_storedWithin (hn : n < UInt64.size) (hs : s.world.StoredWithin id n percent)
    (he : e.StoresWithin id n percent) :
    (e.perform setup s).state.world.StoredWithin id n percent := by
  by_cases hclose : ∃ status record deleted, e = close status record deleted
  · obtain ⟨status, record, deleted, rfl⟩ := hclose
    cases record with
    | none => exact hs
    | some a =>
      rw [perform, doClose]
      dsimp only
      split_ifs with hdeleted hsuccess
      · exact hs
      · refine hs.update fun hid bytes hbytes => ?_
        obtain ⟨hall, hsize⟩ := he hid hsuccess
        obtain rfl : a.size = bytes := Option.some.inj hbytes
        rw [hsize, Update.bytesAt_of_le hn hall]
      · refine hs.update fun _ bytes hbytes => ?_
        cases hbytes
  · simp only [not_exists] at hclose
    rcases perform_world setup s e with ⟨carrier, hw⟩ | ⟨j, u, hu, hw⟩ | ⟨j, hw⟩
    · rw [hw]
      exact ⟨hs.filed, hs.record⟩
    · rw [hw]
      refine hs.update fun hid => ?_
      subst hid
      exact he.of_updates hclose hu
    · rw [hw]
      exact hs.delete

end Errand

/-! ### Runs -/

/-- **A change of the world leaves stored progress alone**: the record of the attachment, if there
is one, is of `n` bytes, and it says of them what it said before; a new record says that none is
downloaded. -/
structure World.LeavesProgress (id : Int) (n : Nat) (w w' : World) : Prop where
  filed : w'.records.Filed
  record : ∀ a, w'.records.attachments.get? id = some a → a.size = n ∧
    a.downloadedSize = ((w.records.attachments.get? id).map (·.downloadedSize)).getD 0

theorem World.LeavesProgress.storedWithin {w w' : World} {id : Int} {n percent : Nat}
    (h : w.LeavesProgress id n w') (hw : w.StoredWithin id n percent) :
    w'.StoredWithin id n percent := by
  refine ⟨h.filed, fun a ha => ?_⟩
  obtain ⟨hsize, hbytes⟩ := h.record a ha
  refine ⟨hsize, ?_⟩
  rw [hbytes]
  cases hbefore : w.records.attachments.get? id with
  | none => exact Nat.zero_le _
  | some b => exact (hw.record b hbefore).2

namespace Crew

variable {setup : Setup} {c c' : Crew} {w : World} {moves : List CrewMove} {id : Int}
  {n percent : Nat}

/-- **The record and all that may still be entered into it** are within a percentage of the size. -/
def StoredWithin (id : Int) (n percent : Nat) (s : State) (es : List Errand) : Prop :=
  s.world.StoredWithin id n percent ∧ ∀ e ∈ es, e.StoresWithin id n percent

/-- Only the program enters progress: the world leaves it alone. -/
def LeftToProgram (id : Int) (n : Nat) (c : Crew) (m : CrewMove) : Prop :=
  ∀ w, m = .world w → c.state.world.LeavesProgress id n w

/-- **A move stores no more** than what it reports, and what was reported before. -/
theorem storedWithin_move {m : CrewMove} (hn : n < UInt64.size) (hc : c.Legible)
    (hworld : c.LeftToProgram id n m) (h : c.move setup m = some c')
    (hreported : ∀ p, TransferSign.reported p ∈ c.signsOf setup id m → p ≤ percent)
    (hs : StoredWithin id n percent c.state c.tasks.flatten) :
    StoredWithin id n percent c'.state c'.tasks.flatten := by
  refine keeps_of_turn (Q := StoredWithin id n percent) (fun hs hsub => ⟨hs.1, fun e he => ?_⟩) h hs
    (fun w hw => ⟨(hworld w hw).storedWithin hs.1, hs.2⟩) (fun op _ => ⟨?_, fun e he => ?_⟩)
    fun i e rest others hm hi hbefore => ?_
  · rcases hsub e he with he | hstart
    · exact hs.2 e he
    · exact Errand.storesWithin_of_not_goesOn (Errand.goesOn_of_isStart hstart)
  · rw [Operation.state_world]
    exact hs.1
  · rcases List.mem_append.mp he with he | he
    · exact hs.2 e he
    · exact Errand.storesWithin_of_not_goesOn
        (Errand.goesOn_of_isFirst (Operation.isFirst_of_mem_errands he))
  · obtain ⟨hstored, herrands⟩ := hbefore
    have he := herrands e List.mem_cons_self
    have hpercent : ∀ p, e.percentOf id c.state = some p → p ≤ percent := by
      intro p hp
      refine hreported p ?_
      simp only [hm, signsOf, hi, Errand.signs, hp]
      exact List.mem_append_right _ List.mem_cons_self
    refine ⟨Errand.perform_storedWithin hn hstored he, fun x hx => ?_⟩
    rcases List.mem_append.mp hx with hx | hx
    · exact Errand.storesWithin_next hn hstored hc.filed he hpercent hx
    · exact herrands x (.tail _ hx)

/-- **In every run the record says no more than the furthest report** on its transfers. -/
theorem storedWithin_run (hn : n < UInt64.size) (hw : World.LeavesProgress id n {} w)
    (hworld : Throughout (move setup) (LeftToProgram id n) (fresh w) moves)
    (hrun : (fresh w).run setup moves = some c)
    (hreported : ∀ p, TransferSign.reported p ∈ (fresh w).signs setup id moves → p ≤ percent) :
    StoredWithin id n percent c.state c.tasks.flatten := by
  have hempty : World.StoredWithin {} id n percent := by
    refine ⟨fun j a ha => ?_, fun a ha => ?_⟩ <;> cases ha
  refine (follow_records_of (I := fun u signs => u.Legible ∧
      ((∀ p, TransferSign.reported p ∈ signs → p ≤ percent) →
        StoredWithin id n percent u.state u.tasks.flatten)) (fun u m u' signs hu hm hmove => ?_)
    ⟨legible_fresh w, fun _ => ⟨hw.storedWithin hempty, fun e he => by cases he⟩⟩ hworld
      hrun).2 hreported
  refine ⟨legible_move hu.1 hmove, fun hall => ?_⟩
  exact storedWithin_move hn hu.1 hm hmove (fun p hp => hall p (List.mem_append_left _ hp))
    (hu.2 fun p hp => hall p (List.mem_append_right _ hp))

/-- **Stored progress is within the furthest of what has been reported.** In every run in which only
the program enters progress into the record of an attachment of `n` bytes, after any report in an
attempt whose percentages never go back: if the report says `p` per cent, and no attempt before has
reported more than `q`, the record says that at most `max p q` per cent of the size is downloaded,
rounded down. So while no attempt before has come further, and on the first attempt always, it says
no more than the report. -/
theorem stored_progress_le (setup : Setup) (w : World) (moves : List CrewMove) (id : Int)
    (n p q : Nat) (present : List Nat) (former : List (List Nat)) (hn : n < UInt64.size)
    (hw : World.LeavesProgress id n {} w)
    (hworld : Throughout (move setup) (LeftToProgram id n) (fresh w) moves)
    (hrun : (fresh w).run setup moves = some c)
    (hreports : (fresh w).percents setup id moves = (p :: present) :: former)
    (hforward : (p :: present).Pairwise (· ≥ ·)) (hq : ∀ attempt ∈ former, ∀ x ∈ attempt, x ≤ q) :
    ∀ a, c.state.world.records.attachments.get? id = some a →
      a.size = n ∧ a.downloadedSize ≤ n * max p q / 100 := by
  have hmost : ∀ x, TransferSign.reported x ∈ (fresh w).signs setup id moves → x ≤ max p q := by
    intro x hx
    obtain ⟨attempt, hattempt, hmem⟩ := TransferSign.mem_perAttempt.mp hx
    rw [percents] at hreports
    rw [hreports] at hattempt
    rcases List.mem_cons.mp hattempt with rfl | hattempt
    · rcases List.mem_cons.mp hmem with rfl | hmem
      · exact Nat.le_max_left x q
      · exact Nat.le_trans (List.rel_of_pairwise_cons hforward hmem) (Nat.le_max_left p q)
    · exact Nat.le_trans (hq attempt hattempt x hmem) (Nat.le_max_right p q)
  intro a ha
  obtain ⟨hsize, hle⟩ := (storedWithin_run hn hw hworld hrun hmost).1.record a ha
  rw [Update.bytesAt_eq hn] at hle
  refine ⟨hsize, hle.trans (Nat.div_le_div_right (Nat.mul_le_mul_left n ?_))⟩
  omega

/-! ### A transfer that starts again -/

/-- A transfer comes half of its way, the connection fails, the transfer is handed over again, and
now reports a fifth. -/
def startedAgain : List CrewMove :=
  takenUp ++ .begin (.report ⟨0, 1, .inProgress, 50⟩) :: List.replicate 3 (.turn 2) ++
    .begin (.report ⟨0, 1, .connectionError, 0⟩) :: List.replicate 2 (.turn 3) ++
      .begin .round :: List.replicate 9 (.turn 4) ++
        [.begin (.report ⟨0, 1, .inProgress, 20⟩), .turn 5]

theorem leavesProgress_sizedWorld : World.LeavesProgress 1 1000 {} sizedWorld where
  filed := Records.filed_ofSeed _
  record a ha := by
    obtain rfl := Option.some.inj ha
    exact ⟨rfl, rfl⟩

/-- In the run the store works, and the world is left alone. -/
theorem undisturbed_startedAgain :
    Throughout (move {}) (fun u m => u.state.world.StoreUp ∧ u.LeftToProgram 1 1000 m)
      (fresh sizedWorld) startedAgain := by
  have hcalm : ∀ m ∈ startedAgain, ∀ w, m ≠ .world w := by
    simp [startedAgain, takenUp]
  have hup : Throughout (move {}) (fun u _ => u.state.world.StoreUp) (fresh sizedWorld)
      startedAgain := by decide
  intro earlier m later u hmoves hu
  refine ⟨hup earlier m later u hmoves hu, fun w hw => ?_⟩
  exact absurd hw (hcalm m (hmoves ▸ List.mem_append_right _ List.mem_cons_self) w)

/-- Half of the attachment is stored, which is what the furthest attempt has reported. -/
theorem stored_progress_le_started_again :
    ∃ c, (fresh sizedWorld).run {} startedAgain = some c ∧
      (fresh sizedWorld).percents {} 1 startedAgain = [[20], [50]] ∧
        ∃ a, c.state.world.records.attachments.get? 1 = some a ∧ a.downloadedSize = 500 ∧
          a.downloadedSize ≤ 1000 * max 20 50 / 100 := by
  obtain ⟨c, a, hrun, hreports, ha, hhalf⟩ : ∃ c a,
      (fresh sizedWorld).run {} startedAgain = some c ∧
        (fresh sizedWorld).percents {} 1 startedAgain = [[20], [50]] ∧
          c.state.world.records.attachments.get? 1 = some a ∧ a.downloadedSize = 500 :=
    ⟨_, _, rfl, rfl, rfl, rfl⟩
  have hworld := fun earlier m later u hmoves hu =>
    (undisturbed_startedAgain earlier m later u hmoves hu).2
  obtain ⟨-, hle⟩ := stored_progress_le {} sizedWorld startedAgain 1 1000 20 50 [] [[50]]
    (by decide) leavesProgress_sizedWorld hworld hrun hreports (by simp) (by simp) a ha
  exact ⟨c, hrun, hreports, a, ha, hhalf, hle⟩

/-- **Stored progress never overstates the transfer**: while the store works and only the program
enters progress, the record says no more than the latest report, if in each attempt the reports
never go back. -/
def StoresWithinPresent (setup : Setup) (w : World) : Prop :=
  ∀ moves c id n p present former a, World.LeavesProgress id n {} w →
    Throughout (move setup) (fun u m => u.state.world.StoreUp ∧ u.LeftToProgram id n m) (fresh w)
      moves →
    (fresh w).run setup moves = some c →
    (fresh w).percents setup id moves = (p :: present) :: former →
    (∀ attempt ∈ (p :: present) :: former, attempt.Pairwise (· ≥ ·) ∧ ∀ x ∈ attempt, x ≤ 100) →
    c.state.world.records.attachments.get? id = some a → a.downloadedSize ≤ n * p / 100

/-- **Stored progress may be ahead of the present attempt**: the record still says what the attempt
before has reported. -/
theorem not_stores_within_present : ¬ StoresWithinPresent {} sizedWorld := by
  intro hwithin
  have hle := hwithin startedAgain _ 1 1000 20 [] [[50]] _ leavesProgress_sizedWorld
    undisturbed_startedAgain rfl rfl (by decide) rfl
  revert hle
  decide

end Crew

end MailFetch

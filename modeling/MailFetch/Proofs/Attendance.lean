import MailFetch.Proofs.Alarm
import MailFetch.Proofs.Whereabouts

/-! # Who sees to the waiting requests

A request that waits is seen to by a round, and a round comes from the main loop or from a tick of
the watchdog. So it is seen to as long as something is astir (`State.Astir`): the alarm is set, the
bell has rung, a transfer is in flight, or a task is on its way to a ring or a round.

* `Errand.perform_astir`: what is astir stays so, but for the errand that begins a round, and for a
  tick that misses: it finds the network down when no alarm is set, and holds no round.
* `Errand.perform_attended`: as long as no tick misses, nobody waits or is set aside without
  something being astir or a round looking at the queue. This needs room for at least one request,
  and a store whose look-ups do not fail.
* `Errand.perform_overseen`: while a transfer is in flight, the alarm is set or is about to be. -/

namespace MailFetch

/-! ### A store without faults -/

/-- Whether a call is one to the record store. -/
def Call.isStore : Call → Bool
  | attachment | message | account | accountCount | updateAttachment | deleteAttachment
  | pendingAttachments | candidates | hasUnloaded | collapse => true
  | startTransfer | sendMail | totalBytes | availableBytes | accountUsage => false

namespace World

/-- **No call to the record store fails.** -/
def StoreUp (w : World) : Prop := ∀ f ∈ w.faults, f.call.isStore = false

instance (w : World) : Decidable w.StoreUp :=
  inferInstanceAs (Decidable (∀ f ∈ w.faults, f.call.isStore = false))

theorem StoreUp.fails {w : World} (h : w.StoreUp) {call : Call} (hcall : call.isStore = true)
    (id : Int) : w.fails call id = false := by
  refine List.any_eq_false.mpr fun f hf hfault => ?_
  simp only [Bool.and_eq_true, beq_iff_eq] at hfault
  have hstore := h f hf
  rw [hfault.1, hcall] at hstore
  cases hstore

theorem StoreUp.failsAlways {w : World} (h : w.StoreUp) {call : Call}
    (hcall : call.isStore = true) : w.failsAlways call = false := by
  refine List.any_eq_false.mpr fun f hf hfault => ?_
  have hstore := h f hf
  rw [beq_iff_eq.mp hfault, hcall] at hstore
  cases hstore

section StoreUp

variable {w : World} (h : w.StoreUp)

include h

theorem StoreUp.attachment (id : Int) :
    w.attachment id = .ok (w.records.attachments.get? id) :=
  if_neg (by rw [h.fails rfl]; exact Bool.false_ne_true)

theorem StoreUp.message (id : Int) : w.message id = .ok (w.records.messages.get? id) :=
  if_neg (by rw [h.fails rfl]; exact Bool.false_ne_true)

theorem StoreUp.account (id : Int) : w.account id = .ok (w.records.accounts.get? id) :=
  if_neg (by rw [h.fails rfl]; exact Bool.false_ne_true)

theorem StoreUp.pending : w.pending = .ok w.records.pending :=
  if_neg (by rw [h.failsAlways rfl]; exact Bool.false_ne_true)

theorem StoreUp.newest (limit : Nat) : w.newest limit = .ok (w.records.newest limit) :=
  if_neg (by rw [h.failsAlways rfl]; exact Bool.false_ne_true)

theorem StoreUp.hasUnloaded (message : Int) :
    w.hasUnloaded message = .ok (w.records.hasUnloaded message) :=
  if_neg (by rw [h.fails rfl]; exact Bool.false_ne_true)

theorem StoreUp.delete (id : Int) :
    w.delete id = (true, { w with records := w.records.eraseAttachment id }) :=
  if_neg (by rw [h.fails rfl]; exact Bool.false_ne_true)

end StoreUp

@[simp] theorem update_faults (w : World) (id : Int) (u : Update) :
    (w.update id u).faults = w.faults := by
  unfold World.update
  split_ifs
  · rfl
  · split <;> rfl

@[simp] theorem delete_faults (w : World) (id : Int) : (w.delete id).2.faults = w.faults := by
  unfold World.delete
  split_ifs <;> rfl

end World

namespace Errand

variable {setup : Setup} {s : State} {e : Errand}

/-- No errand brings a fault about, or mends one. -/
theorem perform_faults (setup : Setup) (s : State) (e : Errand) :
    (e.perform setup s).state.world.faults = s.world.faults := by
  cases e <;>
    simp only [perform, doReview, doRefuse, doSweep, doApplyNotice, doBeginRound, doTakeNext,
      doScreen, doHandOver, doLanded, doPutBack, doLookAhead, doBrowse, doConsider, doVet,
      doDiscard, doBudget, doShare, doClaim, doEndRound, doHear, doRecordProgress, doSettle,
      doConclude, doAskParent, doExpunge, doClose, doSendIfComplete, doSendMail, doTick, doRearm,
      doLoop, listenFor, endWait, doPause, doListen, doFetch]
  all_goals
    repeat' split
  all_goals
    first | rfl | simp [State.update, State.delete]

/-- With a store without faults no task comes down. -/
theorem collapses_eq_false (h : s.world.StoreUp) : (e.perform setup s).collapses = false := by
  by_contra hcollapses
  rw [Bool.not_eq_false] at hcollapses
  obtain ⟨⟨id, flags, rfl⟩, -⟩ := perform_collapses hcollapses
  have hup : ¬ s.world.fails .collapse id = true := by
    rw [h.fails rfl id]
    exact Bool.false_ne_true
  rw [perform, doApplyNotice, if_neg hup] at hcollapses
  split at hcollapses <;> cases hcollapses

end Errand

/-! ### What is astir -/

/-- Whether an errand is on its way to a ring or a round. -/
def Errand.heralds : Errand → Bool
  | beginRound | conclude _ _ | askParent _ _ | expunge _ _ _ | close _ _ _ | sendIfComplete _
  | sendMail _ | ring | tick _ | loop | awaitNetwork => true
  | _ => false

/-- **Something is astir**: sooner or later a round will be held. -/
def State.Astir (s : State) (es : List Errand) : Prop :=
  s.scheduler.alarm.isSome = true ∨ 0 < s.scheduler.bell.rings ∨
    s.scheduler.flights.isEmpty = false ∨ ∃ e ∈ es, e.heralds = true

namespace State

variable {s : State} {es es' : List Errand}

theorem Astir.mono (h : s.Astir es) (hsub : ∀ e ∈ es, e ∈ es') : s.Astir es' :=
  h.imp_right fun h => h.imp_right fun h => h.imp_right fun ⟨e, he, hh⟩ => ⟨e, hsub e he, hh⟩

theorem astir_of_alarm (h : s.scheduler.alarm.isSome = true) : s.Astir es := .inl h

theorem astir_of_rings (h : 0 < s.scheduler.bell.rings) : s.Astir es := .inr (.inl h)

theorem astir_of_flights (h : s.scheduler.flights.isEmpty = false) : s.Astir es :=
  .inr (.inr (.inl h))

theorem astir_of_heralds {e : Errand} (he : e ∈ es) (hh : e.heralds = true) : s.Astir es :=
  .inr (.inr (.inr ⟨e, he, hh⟩))

/-- After a ring something is astir. -/
theorem astir_ring (s : State) (es : List Errand) : s.ring.Astir es := by
  refine astir_of_rings ?_
  show 0 < min (s.scheduler.bell.rings + 1) s.scheduler.bell.room
  unfold Bell.room
  split_ifs <;> omega

/-- With the alarm set something is astir. -/
theorem astir_arm (s : State) (setup : Setup) (delay : Nat) (es : List Errand) :
    (s.arm setup delay).Astir es := astir_of_alarm rfl

end State

theorem Flights.isEmpty_insert (f : Flights) (r : Request) : (f.insert r).isEmpty = false :=
  isEmpty_eq_false_iff.mpr ⟨r.id, r, by rw [get?_insert, if_pos rfl]⟩

namespace Errand

variable {setup : Setup} {s : State} {e : Errand} {es : List Errand}

/-- What can be astir apart from tasks is as before. -/
structure Still (s s' : State) : Prop where
  alarm : s'.scheduler.alarm = s.scheduler.alarm
  rings : s'.scheduler.bell.rings = s.scheduler.bell.rings
  flights : s'.scheduler.flights = s.scheduler.flights

theorem still_refl (s : State) : Still s s := ⟨rfl, rfl, rfl⟩

/-- **After an errand something is astir**, or the errand has changed nothing about that, and was
not on its way to a ring or a round, unless it begins the round or is a tick without a network. -/
theorem perform_astir_or_still (setup : Setup) (hstopped : s.scheduler.stopped = false) :
    (e.perform setup s).state.Astir (e.perform setup s).next ∨
      Still s (e.perform setup s).state ∧ (e.heralds = true → e = beginRound ∨
        ∃ timeout, e = tick timeout ∧ s.world.connectivity.isConnected = false) := by
  have hrunning : ¬ s.scheduler.stopped = true := by
    rw [hstopped]
    exact Bool.false_ne_true
  have hidle : ∀ {p : Prop}, false = true → p := fun h => absurd h Bool.false_ne_true
  have hherald : ∀ {t : State} {x : Errand} {l : List Errand}, x.heralds = true →
      t.Astir (x :: l) := fun hx => State.astir_of_heralds List.mem_cons_self hx
  cases e with
  | review a =>
    rw [perform, doReview]
    split
    · exact .inl (State.astir_ring ..)
    · exact .inl (State.astir_ring ..)
    · exact .inr ⟨still_refl s, hidle⟩
    · exact .inl (State.astir_ring ..)
  | beginRound => exact .inr ⟨⟨rfl, rfl, rfl⟩, fun _ => .inl rfl⟩
  | screen r aside =>
    rw [perform, doScreen]
    split
    · exact .inr ⟨still_refl s, hidle⟩
    · exact .inr ⟨still_refl s, hidle⟩
    · dsimp only
      split_ifs
      · exact .inl (State.astir_arm ..)
      · exact .inr ⟨still_refl s, hidle⟩
      · exact .inl (State.astir_of_flights (Flights.isEmpty_insert ..))
  | landed r accepted onward =>
    rw [perform]
    unfold doLanded
    split_ifs <;> exact .inl (State.astir_arm ..)
  | claim a rest =>
    rw [perform, doClaim]
    split_ifs
    · exact .inr ⟨still_refl s, hidle⟩
    · exact .inl (State.astir_of_flights (Flights.isEmpty_insert ..))
  | hear report =>
    rw [perform, doHear]
    split
    · exact .inr ⟨still_refl s, hidle⟩
    · exact .inl (State.astir_of_flights (Flights.isEmpty_insert ..))
  | settle id status =>
    rw [perform, doSettle]
    split
    · exact .inr ⟨still_refl s, hidle⟩
    · dsimp only
      split_ifs
      · split
        · exact .inl (State.astir_ring ..)
        · exact .inl (State.astir_arm ..)
        · exact .inl (State.astir_ring ..)
      · exact .inl (hherald rfl)
  | conclude r status =>
    rw [perform, doConclude]
    split
    · exact .inl (State.astir_ring ..)
    · split_ifs <;> exact .inl (hherald rfl)
  | askParent r record =>
    rw [perform, doAskParent]
    split
    · exact .inl (State.astir_ring ..)
    · exact .inl (hherald rfl)
    · exact .inl (hherald rfl)
  | expunge id status record => exact .inl (hherald rfl)
  | close status record deleted =>
    cases record with
    | none => exact .inl (State.astir_ring ..)
    | some a =>
      unfold perform doClose
      dsimp only
      split_ifs <;> exact .inl (hherald rfl)
  | sendIfComplete a =>
    rw [perform, doSendIfComplete]
    split <;> exact .inl (hherald rfl)
  | sendMail account => exact .inl (hherald rfl)
  | ring => exact .inl (State.astir_ring ..)
  | tick timeout =>
    rw [perform, doTick, if_neg hrunning]
    simp only [State.abandon_world]
    by_cases hup : s.world.connectivity.isConnected = true
    · rw [if_pos hup]
      exact .inl (hherald rfl)
    · rw [if_neg hup]
      cases s.scheduler.flights.stalled timeout s.world.now with
      | nil => exact .inr ⟨still_refl s, fun _ => .inr ⟨timeout, rfl, by simpa using hup⟩⟩
      | cons id rest => exact .inl (State.astir_ring ..)
  | rearm timeout =>
    rw [perform, doRearm]
    split_ifs
    · exact .inr ⟨still_refl s, hidle⟩
    · exact .inl (State.astir_of_alarm rfl)
  | loop =>
    rw [perform, doLoop, if_neg hrunning]
    split_ifs
    · exact .inl (hherald rfl)
    · unfold listenFor
      dsimp only
      split_ifs <;> exact .inl (hherald rfl)
  | awaitNetwork =>
    rw [perform]
    unfold endWait
    dsimp only
    split_ifs <;> exact .inl (hherald rfl)
  | pause =>
    rw [perform, doPause, if_neg hrunning]
    unfold listenFor
    dsimp only
    split_ifs
    · exact .inl (hherald rfl)
    · exact .inr ⟨⟨rfl, rfl, rfl⟩, hidle⟩
  | idle deadline =>
    rw [perform]
    unfold endWait
    dsimp only
    split_ifs
    · exact .inl (hherald rfl)
    · exact .inl (State.astir_of_heralds (.tail _ List.mem_cons_self) rfl)
  | _ =>
    refine .inr ⟨?_, hidle⟩
    simp only [perform, doRefuse, doSweep, doApplyNotice, doTakeNext, doHandOver, doPutBack,
      doLookAhead, doBrowse, doConsider, doVet, doDiscard, doBudget, doShare, doEndRound,
      doRecordProgress, doListen, doFetch]
    repeat' split
    all_goals exact ⟨rfl, rfl, rfl⟩

/-- **A tick misses**: it finds the network down, so that it holds no round, and no alarm is set. -/
def Misses (s : State) : Errand → Prop
  | tick _ => s.world.connectivity.isConnected = false ∧ s.scheduler.alarm = none
  | _ => False

/-- **What is astir stays so**, unless the errand begins a round or is a tick that misses. -/
theorem perform_astir (hstopped : s.scheduler.stopped = false) (hround : e ≠ beginRound)
    (hmisses : ¬ e.Misses s) (h : s.Astir (e :: es)) :
    (e.perform setup s).state.Astir ((e.perform setup s).next ++ es) := by
  rcases perform_astir_or_still setup hstopped with hastir | ⟨hstill, hpauses⟩
  · exact hastir.mono fun x hx => List.mem_append_left _ hx
  · rcases h with halarm | hrings | hflights | ⟨x, hx, hheralds⟩
    · exact State.astir_of_alarm (by rw [hstill.alarm]; exact halarm)
    · exact State.astir_of_rings (by rw [hstill.rings]; exact hrings)
    · exact State.astir_of_flights (by rw [hstill.flights]; exact hflights)
    · rcases List.mem_cons.mp hx with rfl | hes
      · obtain ⟨timeout, rfl, hdown⟩ := (hpauses hheralds).resolve_left hround
        refine State.astir_of_alarm ?_
        rw [hstill.alarm, Option.isSome_iff_ne_none]
        exact fun hnone => hmisses ⟨hdown, hnone⟩
      · exact State.astir_of_heralds (List.mem_append_right _ hes) hheralds

/-! ### Who is waiting with nothing astir -/

/-- Whether an errand looks at the queue, or at a request from it. -/
def looks : Errand → Bool
  | takeNext _ | screen _ _ => true
  | _ => false

/-- The requests that a round has laid by, without the one it looks at. -/
def laidBy : Errand → List Request
  | screen _ aside => aside
  | e => e.aside

end Errand

/-- **Everybody who waits is seen to**: something is astir, or nothing is laid by and, if somebody
is in the queue, a round looks at it. -/
def State.Attended (s : State) (es : List Errand) : Prop :=
  s.Astir es ∨ (∀ e ∈ es, e.laidBy = []) ∧
    (s.scheduler.queue.isEmpty = false → ∃ e ∈ es, e.looks = true)

/-- Errands that have laid nothing by may be added. -/
theorem State.Attended.of_mem {s : State} {es es' : List Errand} (h : s.Attended es)
    (hsub : ∀ e ∈ es, e ∈ es') (hback : ∀ e ∈ es', e ∈ es ∨ e.laidBy = []) : s.Attended es' := by
  rcases h with hastir | ⟨hlaid, hlooks⟩
  · exact .inl (hastir.mono hsub)
  · refine .inr ⟨fun e he => (hback e he).elim (hlaid e) id, fun hqueue => ?_⟩
    obtain ⟨e, he, hl⟩ := hlooks hqueue
    exact ⟨e, hsub e he, hl⟩

theorem Queue.isEmpty_eq_false_iff {q : Queue} :
    q.isEmpty = false ↔ ∃ id r, q.index.get? id = some r := Table.isEmpty_eq_false_iff

/-- With nothing in flight there is room for a request, if there ever is. -/
theorem Scheduler.hasRoom_of_isEmpty {s : Scheduler} {limits : Settings}
    (h : s.flights.isEmpty = true) (hmax : 0 < limits.maxConcurrent) : s.hasRoom limits = true := by
  have hnone : s.flights.table.entries = [] := List.isEmpty_iff.mp h
  simpa [hasRoom, Flights.size, Table.size, hnone] using hmax

theorem Scheduler.hasRoomFor_of_isEmpty {s : Scheduler} {limits : Settings}
    (h : s.flights.isEmpty = true) (hmax : 0 < limits.maxPerAccount) (account : Int) :
    s.hasRoomFor limits account = true := by
  have hnone : s.flights.table.entries = [] := List.isEmpty_iff.mp h
  simpa [hasRoomFor, Flights.countFor, Table.values, hnone] using hmax

namespace Errand

variable {setup : Setup} {s : State} {e : Errand} {es : List Errand}

/-- With nothing in flight, a round that finds somebody in the queue looks at the request. -/
theorem takeNext_of_isEmpty (hmax : 0 < setup.settings.maxConcurrent)
    (hacc : 0 < setup.settings.maxPerAccount) (hq : s.scheduler.queue.Matched)
    (hstopped : s.scheduler.stopped = false) (hflights : s.scheduler.flights.isEmpty = true)
    (aside : List Request) :
    (∃ r, (doTakeNext setup s aside).next = [screen r aside]) ∨
      (doTakeNext setup s aside).next = [putBack aside] ∧
        (doTakeNext setup s aside).state.scheduler.queue.isEmpty = true := by
  unfold doTakeNext
  rw [if_neg (by simp [hstopped, Scheduler.hasRoom_of_isEmpty hflights hmax])]
  rcases Queue.pop_cases hq with ⟨hpop, hnone⟩ | ⟨r, q, hpop, -⟩
  · rw [hpop]
    refine .inr ⟨rfl, ?_⟩
    by_contra hsome
    obtain ⟨id, r, hr⟩ := Queue.isEmpty_eq_false_iff.mp (by simpa using hsome)
    rw [Queue.contains_eq_false_iff.mp (hnone id)] at hr
    cases hr
  · rw [hpop]
    refine .inl ⟨r, ?_⟩
    dsimp only
    rw [if_pos (Scheduler.hasRoomFor_of_isEmpty hflights hacc r.account)]

/-- With nothing in flight and a store without faults, a request that is looked at is taken off or
waits for an alarm, or its record is gone and the round goes on. -/
theorem screen_of_isEmpty (hmax : 0 < setup.settings.maxConcurrent)
    (hacc : 0 < setup.settings.maxPerAccount) (hstore : s.world.StoreUp)
    (hflights : s.scheduler.flights.isEmpty = true) (r : Request) (aside : List Request) :
    (doScreen setup s r aside).state.Astir (doScreen setup s r aside).next ∨
      (doScreen setup s r aside).next = [takeNext aside] := by
  have hroom : ¬ (!s.scheduler.hasRoom setup.settings ||
      !s.scheduler.hasRoomFor setup.settings r.account) = true := by
    simp [Scheduler.hasRoom_of_isEmpty hflights hmax, Scheduler.hasRoomFor_of_isEmpty hflights hacc]
  unfold doScreen
  rw [hstore.attachment]
  split
  · exact .inr rfl
  next herror => cases herror
  · dsimp only
    rw [if_neg hroom]
    split_ifs
    · exact .inl (State.astir_arm ..)
    · exact .inl (State.astir_of_flights (Flights.isEmpty_insert ..))

/-- Apart from a round that looks at the queue, nobody lays a request by. -/
theorem Leads.laidBy {l : List Errand} (hl : e.Leads l) (he : e.looks = false)
    (hself : e.laidBy = []) : ∀ x ∈ l, x.laidBy = [] := by
  cases e with
  | takeNext _ | screen _ _ => cases he
  | _ => grind [Leads, LeadsOn, Errand.laidBy, Errand.aside, Onward.aside]

/-- Apart from a round that looks at the queue, whoever changes the queue while nothing is astir
sets something astir. -/
theorem queue_of_calm (he : e.looks = false) (hself : e.laidBy = [])
    (hherald : e.heralds = false)
    (hcalm : ¬ (e.perform setup s).state.Astir (e.perform setup s).next) :
    (e.perform setup s).state.scheduler.queue = s.scheduler.queue := by
  by_cases htouch : e.touchesBooks = false
  · exact (perform_frame setup s e).queue htouch
  revert hcalm
  cases e with
  | takeNext _ | screen _ _ => cases he
  | askParent _ _ | tick _ => cases hherald
  | review a =>
    rw [perform, doReview]
    split
    · exact fun hcalm => absurd (State.astir_ring ..) hcalm
    · exact fun _ => rfl
    · exact fun _ => rfl
    · exact fun hcalm => absurd (State.astir_ring ..) hcalm
  | landed r accepted onward =>
    rw [perform]
    unfold doLanded
    split_ifs <;> exact fun hcalm => absurd (State.astir_arm ..) hcalm
  | putBack aside =>
    obtain rfl : aside = [] := hself
    exact fun _ => rfl
  | claim a rest =>
    rw [perform, doClaim]
    split_ifs <;> exact fun _ => rfl
  | hear report =>
    rw [perform, doHear]
    split <;> exact fun _ => rfl
  | settle id status =>
    rw [perform, doSettle]
    split
    · exact fun _ => rfl
    · dsimp only
      split_ifs
      · split
        · exact fun hcalm => absurd (State.astir_ring ..) hcalm
        · exact fun hcalm => absurd (State.astir_arm ..) hcalm
        · exact fun hcalm => absurd (State.astir_ring ..) hcalm
      · exact fun hcalm => absurd (State.astir_of_heralds List.mem_cons_self rfl) hcalm
  | _ => exact absurd rfl htouch

/-- **An errand leaves nobody unattended**, unless it is a tick that misses. -/
theorem perform_attended (hmax : 0 < setup.settings.maxConcurrent)
    (hacc : 0 < setup.settings.maxPerAccount) (hstore : s.world.StoreUp)
    (hq : s.scheduler.queue.Matched) (hstopped : s.scheduler.stopped = false)
    (hmisses : ¬ e.Misses s) (hround : e = beginRound → ∀ x ∈ es, x.laidBy = [])
    (h : s.Attended (e :: es)) :
    (e.perform setup s).state.Attended ((e.perform setup s).next ++ es) := by
  by_cases hbegin : e = beginRound
  · subst hbegin
    refine .inr ⟨fun x hx => ?_, fun _ => ⟨takeNext [], List.mem_cons_self, rfl⟩⟩
    rcases List.mem_cons.mp hx with rfl | hx
    · rfl
    · exact hround rfl x hx
  refine or_iff_not_imp_left.mpr fun hcalm => ?_
  have hnow : ¬ (e.perform setup s).state.Astir (e.perform setup s).next := fun hastir =>
    hcalm (hastir.mono fun x hx => List.mem_append_left _ hx)
  -- Nothing is astir after the errand, so nothing was before it.
  have hbefore : ¬ s.Astir (e :: es) := fun hastir =>
    hcalm (perform_astir hstopped hbegin hmisses hastir)
  have hherald : e.heralds = false := by
    by_contra hheralds
    exact hbefore (State.astir_of_heralds List.mem_cons_self (by simpa using hheralds))
  have hflights : s.scheduler.flights.isEmpty = true := by
    by_contra hsome
    exact hbefore (State.astir_of_flights (by simpa using hsome))
  obtain ⟨hlaid, hlooks⟩ := h.resolve_left hbefore
  have hself : e.laidBy = [] := hlaid e List.mem_cons_self
  have hothers : ∀ x ∈ es, x.laidBy = [] := fun x hx => hlaid x (.tail _ hx)
  cases he : e.looks with
  | false =>
    have hleads := (perform_leads setup s e).laidBy he hself
    refine ⟨fun x hx => (List.mem_append.mp hx).elim (hleads x) (hothers x), fun hqueue => ?_⟩
    rw [queue_of_calm he hself hherald hnow] at hqueue
    obtain ⟨x, hx, hl⟩ := hlooks hqueue
    rcases List.mem_cons.mp hx with rfl | hx
    · rw [he] at hl
      cases hl
    · exact ⟨x, List.mem_append_right _ hx, hl⟩
  | true =>
    cases e with
    | takeNext aside =>
      obtain rfl : aside = [] := hself
      rcases takeNext_of_isEmpty hmax hacc hq hstopped hflights [] with
        ⟨r, hnext⟩ | ⟨hnext, hempty⟩
      · rw [perform, hnext]
        exact ⟨List.forall_mem_cons.mpr ⟨rfl, hothers⟩, fun _ => ⟨_, List.mem_cons_self, rfl⟩⟩
      · rw [perform, hnext, hempty]
        exact ⟨List.forall_mem_cons.mpr ⟨rfl, hothers⟩, fun hqueue => by cases hqueue⟩
    | screen r aside =>
      obtain rfl : aside = [] := hself
      have hnext := (screen_of_isEmpty hmax hacc hstore hflights r []).resolve_left hnow
      rw [perform, hnext]
      exact ⟨List.forall_mem_cons.mpr ⟨rfl, hothers⟩, fun _ => ⟨_, List.mem_cons_self, rfl⟩⟩
    | _ => cases he

/-! ### Who sees to those in flight -/

/-- Whether an errand is about to set the alarm, if anything is in flight. -/
def oversees : Errand → Bool
  | handOver _ _ | landed _ _ _ | tick _ | rearm _ => true
  | _ => false

end Errand

/-- **Those in flight are overseen**: the alarm is set, or is about to be. -/
def State.Overseen (s : State) (es : List Errand) : Prop :=
  s.scheduler.flights.isEmpty = false →
    s.scheduler.alarm.isSome = true ∨ ∃ e ∈ es, e.oversees = true

namespace Errand

variable {setup : Setup} {s : State} {e : Errand} {es : List Errand}

/-- An alarm that is set stays set. -/
theorem alarm_perform (h : s.scheduler.alarm.isSome = true) :
    (e.perform setup s).state.scheduler.alarm.isSome = true := by
  by_cases hrearm : ∃ timeout, e = rearm timeout
  · obtain ⟨timeout, rfl⟩ := hrearm
    rw [perform, doRearm]
    split_ifs
    · exact h
    · rfl
  · rcases perform_alarm setup s fun timeout he => absurd ⟨timeout, he⟩ hrearm with
      hkept | ⟨_, -, hset⟩
    · rw [hkept]
      exact h
    · rw [hset]
      rfl

/-- Whoever oversees those in flight sets the alarm, or leaves it to the next errand. -/
theorem overseen_of_oversees (hstopped : s.scheduler.stopped = false)
    (hflights : s.scheduler.flights.isEmpty = false) (he : e.oversees = true) :
    (e.perform setup s).state.scheduler.alarm.isSome = true ∨
      ∃ x ∈ (e.perform setup s).next, x.oversees = true := by
  cases e with
  | handOver r onward =>
    obtain ⟨accepted, hnext | ⟨report, hnext⟩⟩ := perform_leads setup s (handOver r onward)
    · exact .inr ⟨landed r accepted onward, by rw [hnext]; exact List.mem_cons_self, rfl⟩
    · exact .inr ⟨landed r accepted onward, by rw [hnext]; exact .tail _ List.mem_cons_self, rfl⟩
  | landed r accepted onward =>
    rw [perform]
    unfold doLanded
    split_ifs <;> exact .inl rfl
  | tick timeout =>
    rw [perform, doTick, if_neg (by rw [hstopped]; exact Bool.false_ne_true)]
    refine .inr ⟨rearm timeout, ?_, rfl⟩
    dsimp only
    split_ifs
    · exact .tail _ List.mem_cons_self
    · exact List.mem_cons_self
  | rearm timeout =>
    rw [perform, doRearm, if_neg (by simp [hflights, hstopped])]
    exact .inl rfl
  | _ => cases he

/-- **An errand leaves nobody in flight without oversight.** -/
theorem perform_overseen (hfiled : s.scheduler.flights.Filed)
    (hstopped : s.scheduler.stopped = false) (h : s.Overseen (e :: es)) :
    (e.perform setup s).state.Overseen ((e.perform setup s).next ++ es) := by
  intro hafter
  by_cases hbefore : s.scheduler.flights.isEmpty = false
  · rcases h hbefore with halarm | ⟨x, hx, ho⟩
    · exact .inl (alarm_perform halarm)
    · rcases List.mem_cons.mp hx with rfl | hx
      · exact (overseen_of_oversees hstopped hbefore ho).imp_right fun ⟨x, hx, hx'⟩ =>
          ⟨x, List.mem_append_left _ hx, hx'⟩
      · exact .inr ⟨x, List.mem_append_right _ hx, ho⟩
  · have hnone := Flights.isEmpty_iff.mp (by simpa using hbefore)
    obtain ⟨id, r, hr⟩ := Flights.isEmpty_eq_false_iff.mp hafter
    rcases perform_aloft hfiled hr with hfly | ⟨r₀, hfly, -⟩ | ⟨onward, hnext, -⟩
    · rw [hnone id] at hfly
      cases hfly
    · rw [hnone id] at hfly
      cases hfly
    · exact .inr ⟨handOver r onward, List.mem_append_left _ hnext, rfl⟩

end Errand

/-! ### Operations -/

namespace Operation

variable {s : State} {op : Operation} {es : List Errand}

/-- An operation begins with nothing laid by. -/
theorem laidBy_of_mem_errands {e : Errand} (h : e ∈ op.errands s) : e.laidBy = [] := by
  have hfirst := isFirst_of_mem_errands h
  cases e <;> first | rfl | cases hfirst

/-- An operation that begins leaves nobody unattended. -/
theorem attended_begin (hstop : op ≠ .stop) (h : s.Attended es) :
    (op.state s).Attended (es ++ op.errands s) := by
  have hadd : ∀ {t : State}, t.Attended es → t.Attended (es ++ op.errands s) := fun ht =>
    ht.of_mem (fun e he => List.mem_append_left _ he) fun e he =>
      (List.mem_append.mp he).imp_right laidBy_of_mem_errands
  cases op with
  | notify id flags =>
    refine hadd ?_
    unfold state Scheduler.notify State.withScheduler
    split_ifs <;> exact h
  | alarm =>
    cases ha : s.scheduler.alarm with
    | none =>
      have hsame : Operation.state s alarm = s := by
        unfold state State.withScheduler
        rw [← ha]
      rw [hsame]
      exact hadd h
    | some a =>
      refine .inl (State.astir_of_heralds (e := .tick a.timeout) (List.mem_append_right _ ?_) rfl)
      simp [errands, ha]
  | ring => exact .inl (s.astir_ring _)
  | stop => exact absurd rfl hstop
  | _ => exact hadd h

/-- An operation that begins leaves nobody in flight without oversight. -/
theorem overseen_begin (hstop : op ≠ .stop) (h : s.Overseen es) :
    (op.state s).Overseen (es ++ op.errands s) := by
  intro hflights
  rw [state_flights] at hflights
  rcases h hflights with halarm | ⟨e, he, ho⟩
  · cases op with
    | notify id flags =>
      refine .inl ?_
      unfold state Scheduler.notify State.withScheduler
      split_ifs <;> exact halarm
    | alarm =>
      obtain ⟨a, ha⟩ := Option.isSome_iff_exists.mp halarm
      exact .inr ⟨.tick a.timeout, List.mem_append_right _ (by simp [errands, ha]), rfl⟩
    | stop => exact absurd rfl hstop
    | _ => exact .inl halarm
  · exact .inr ⟨e, List.mem_append_left _ he, ho⟩

end Operation

end MailFetch

import MailFetch.Proofs.StallBound

/-! # How a look for stalled transfers is lost

An alarm that is set without delay is due at once. If it is then set once more, with a delay, before
it has gone off, it is moved back, and the look that was due is lost. There are two ways to this.

* If the time between two looks is zero and the wait before a delayed retry is not: a transfer is
  accepted, and another one is refused in the same round (`Desk.lost_in_round`).
* If it is the other way round: a transfer is refused, and then one that nobody asked for is
  accepted. Just before a look is due, this moves it back by almost the time between two looks, and
  whoever is in flight may be silent for longer than is noticed in time (`Desk.lost_in_scouting`).

Otherwise no look is lost: `Desk.stall_bound_iff`. -/

namespace MailFetch

namespace Desk

variable {setup : Setup} {d d' d'' : Desk}

/-! ### Punctual runs, piece by piece -/

/-- What a punctual run can lead to. -/
def Reaches (setup : Setup) (d d' : Desk) : Prop :=
  ∃ moves, d.run setup moves = some d' ∧ Throughout (move setup) Punctual d moves

theorem Reaches.trans (h : d.Reaches setup d') (h' : d'.Reaches setup d'') :
    d.Reaches setup d'' := by
  obtain ⟨moves, hrun, hp⟩ := h
  obtain ⟨moves', hrun', hp'⟩ := h'
  refine ⟨moves ++ moves', ?_, throughout_append_of hrun hp hp'⟩
  rw [run, follow_append hrun]
  exact hrun'

theorem reaches_of_move {m : Move} (hp : d.Punctual m) (h : d.move setup m = some d') :
    d.Reaches setup d' := by
  refine ⟨[m], ?_, throughout_cons_of hp h fun earlier n later t hnil => ?_⟩
  · rw [run, follow_cons h]
    rfl
  · cases earlier <;> cases hnil

/-- Turns are always punctual. -/
theorem reaches_of_turns (k : Nat) (h : d.run setup (List.replicate k .turn) = some d') :
    d.Reaches setup d' := by
  refine ⟨_, h, fun earlier m later t hms _ => ?_⟩
  have hm : m ∈ List.replicate k Move.turn := by
    rw [hms]
    simp
  rw [List.eq_of_mem_replicate hm]
  trivial

/-- An operation with the turns of its errands. -/
theorem reaches_of_operation (op : Operation) (k : Nat) (hp : d.Punctual (.begin op))
    (h : d.run setup (.begin op :: List.replicate k .turn) = some d') : d.Reaches setup d' := by
  obtain ⟨d₁, hbegin, hturns⟩ := follow_cons_eq_some h
  exact (reaches_of_move hp hbegin).trans (reaches_of_turns k hturns)

end Desk

/-! ### What is asked for -/

/-- The attachment of an outgoing message. -/
def forwarded (id : Int) : Attachment where
  id := id
  message := id
  account := id
  flags := .forward

/-- The request for it. -/
def forwarding (id : Int) (now : Nat) : Request := (forwarded id).request .sendMail now

/-- An attachment that nobody asks for. -/
def unasked : Attachment where
  id := 3
  message := 3
  account := 3
  contentId := some "part"

/-- The request for it, as a round makes it. -/
def scouting (now : Nat) : Request := unasked.request .background now

/-- The state once the carrier has accepted a transfer. -/
def State.accepted (s : State) (setup : Setup) (r : Request) : State :=
  (s.note (.start r true)).arm setup setup.settings.watchdogInterval

/-- The state once the carrier has refused a transfer. -/
def State.refused (s : State) (setup : Setup) (r : Request) : State :=
  ((s.note (.start r false)).breakOff setup r.id).arm setup setup.settings.retryDelay

/-- The state as a round begins or ends. -/
def State.setRound (s : State) (inRound : Bool) : State :=
  s.withScheduler { s.scheduler with inRound := inRound }

namespace State

variable (s : State) (setup : Setup) (r : Request)

theorem alarm_accepted : (s.accepted setup r).scheduler.alarm =
    some (Alarm.arm s.scheduler.alarm s.world.now setup.settings.watchdogInterval
      setup.settings.callbackTimeout) := rfl

theorem alarm_refused : (s.refused setup r).scheduler.alarm =
    some (Alarm.arm s.scheduler.alarm s.world.now setup.settings.retryDelay
      setup.settings.callbackTimeout) := by
  simp only [refused, arm, Scheduler.arm, breakOff_scheduler, breakOff_world, note_world]
  rw [Scheduler.breakOff_eq, note_scheduler]

theorem world_refused : (s.refused setup r).world = s.world := by
  simp only [refused, arm_world, breakOff_world, note_world]

theorem alarm_setRound (inRound : Bool) :
    (s.setRound inRound).scheduler.alarm = s.scheduler.alarm := rfl

theorem alarm_takeOff (now : Nat) :
    (s.withScheduler (s.scheduler.takeOff now r)).scheduler.alarm = s.scheduler.alarm := rfl

theorem world_withScheduler (c : Scheduler) : (s.withScheduler c).world = s.world := rfl

end State

namespace Desk

/-! ### Accepted, then refused -/

/-- No time between two looks, but some before a delayed retry. -/
def unhurried (n : Nat) : Setup where
  settings := { watchdogIntervalMs := 0, retryDelayMs := n + 1 }

/-- A world in which the second transfer will be refused. -/
def choosyWorld : World where
  records := .ofSeed { attachments := [forwarded 1, forwarded 2] }
  faults := [{ call := .startTransfer, id := some 2 }]

namespace InRound

variable (n : Nat)

/-- Both transfers are asked for. -/
def bothWait : State where
  world := choosyWorld
  scheduler :=
    { queue := .push (.push .empty (forwarding 1 0)) (forwarding 2 0), bell := ⟨1, false⟩ }

/-- The first one is handed over. -/
def firstOffered : State where
  world := choosyWorld
  scheduler :=
    { queue := .push .empty (forwarding 2 0)
      flights := .insert .empty ((forwarding 1 0).dispatch 0)
      bell := ⟨1, false⟩
      inRound := true }

def firstFlies : State := firstOffered.accepted (unhurried n) ((forwarding 1 0).dispatch 0)

/-- The second one is handed over. -/
def secondOffered : State :=
  (firstFlies n).withScheduler
    { (firstFlies n).scheduler with
      queue := .empty
      flights := (firstFlies n).scheduler.flights.insert ((forwarding 2 0).dispatch 0) }

def secondRefused : State := (secondOffered n).refused (unhurried n) ((forwarding 2 0).dispatch 0)

theorem reaches_firstFlies :
    Reaches (unhurried n) (fresh choosyWorld) ⟨firstFlies n, [.takeNext []]⟩ := by
  have hfirst : Reaches (unhurried n) (fresh choosyWorld) ⟨_, []⟩ :=
    reaches_of_operation (.change (forwarded 1)) 1 nofun rfl
  have hboth : Reaches (unhurried n) (fresh choosyWorld) ⟨bothWait, []⟩ :=
    hfirst.trans (reaches_of_operation (.change (forwarded 2)) 1 nofun rfl)
  have hround : Reaches (unhurried n) ⟨bothWait, []⟩
      ⟨firstOffered, [.handOver ((forwarding 1 0).dispatch 0) (.queue [])]⟩ :=
    reaches_of_operation .round 3 nofun rfl
  exact (hboth.trans hround).trans (reaches_of_turns 2 rfl)

theorem reaches_secondRefused : Reaches (unhurried n) ⟨firstFlies n, [.takeNext []]⟩
    ⟨(secondRefused n).setRound false, []⟩ := by
  have hoffered : Reaches (unhurried n) ⟨firstFlies n, [.takeNext []]⟩
      ⟨secondOffered n, [.handOver ((forwarding 2 0).dispatch 0) (.queue [])]⟩ :=
    reaches_of_turns 2 rfl
  have hrefused : Reaches (unhurried n)
      ⟨secondOffered n, [.handOver ((forwarding 2 0).dispatch 0) (.queue [])]⟩
      ⟨secondRefused n, [.putBack []]⟩ :=
    reaches_of_turns 2 rfl
  exact (hoffered.trans hrefused).trans (reaches_of_turns 3 rfl)

/-- The alarm was due at once, and now it is due after the wait before a retry. -/
theorem alarm_secondRefused : (secondRefused n).scheduler.alarm =
    some ⟨(unhurried n).settings.retryDelay, (unhurried n).settings.callbackTimeout⟩ := by
  have hnow : (secondOffered n).world.now = 0 := rfl
  have hoffered : (secondOffered n).scheduler.alarm = (firstFlies n).scheduler.alarm := rfl
  have hnone : (unhurried n).settings.watchdogInterval = 0 := Nat.zero_mul _
  rw [secondRefused, State.alarm_refused, hnow, hoffered, firstFlies, State.alarm_accepted, hnone,
    Alarm.arm_zero, Alarm.arm_of_due _ _ _ _ (Nat.le_refl 0), Nat.zero_add]

end InRound

/-- **A look is lost in a round**: a transfer is in flight, and no alarm is set for the time up to
the next look. -/
theorem lost_in_round (n : Nat) :
    ∃ d, Reaches (unhurried n) (fresh choosyWorld) d ∧ ¬ d.InTime (unhurried n) := by
  refine ⟨_, (InRound.reaches_firstFlies n).trans (InRound.reaches_secondRefused n), fun h => ?_⟩
  obtain ⟨a, ha, -, hnear⟩ := h.1 rfl rfl
  obtain rfl := Option.some.inj ((InRound.alarm_secondRefused n).symm.trans ha)
  have hnow : ((InRound.secondRefused n).setRound false).world.now = 0 := rfl
  dsimp only at hnear
  rw [hnow] at hnear
  simp only [Settings.retryDelay, Settings.watchdogInterval, unhurried, millis] at hnear
  omega

/-! ### Refused, then one that nobody asked for -/

/-- Some time between two looks, but none before a delayed retry; silence is a stall at once. -/
def impatient (n : Nat) : Setup where
  settings :=
    { watchdogIntervalMs := n + 1, retryDelayMs := 0, callbackTimeoutMs := 0, maxConcurrent := 3 }

/-- A world in which only what was asked for is downloaded. -/
def frugalWorld : World where
  records := .ofSeed { attachments := [forwarded 1] }
  connectivity := { autoSync := false }

/-- A world in which more may be downloaded, and the second transfer will be refused. -/
def generousWorld (now : Nat) : World where
  now := now
  records := .ofSeed { accounts := [{ id := 3 }], attachments := [forwarded 2, unasked] }
  faults := [{ call := .startTransfer, id := some 2 }]

namespace InScouting

variable (n t : Nat)

/-- The first transfer is asked for and handed over. -/
def firstOffered : State where
  world := frugalWorld
  scheduler :=
    { flights := .insert .empty ((forwarding 1 0).dispatch 0), bell := ⟨1, false⟩, inRound := true }

def firstFlies : State :=
  (firstOffered.accepted (impatient n) ((forwarding 1 0).dispatch 0)).setRound false

/-- Later, the second one is asked for. -/
def secondWaits : State :=
  ((firstFlies n).withWorld (generousWorld t)).withScheduler
    { (firstFlies n).scheduler with queue := .push .empty (forwarding 2 t) }

/-- The second one is handed over. -/
def secondOffered : State :=
  ((firstFlies n).withWorld (generousWorld t)).withScheduler
    { (firstFlies n).scheduler with
      flights := (firstFlies n).scheduler.flights.insert ((forwarding 2 t).dispatch t)
      inRound := true }

def secondRefused : State :=
  (secondOffered n t).refused (impatient n) ((forwarding 2 t).dispatch t)

/-- The one that nobody asked for is handed over. -/
def thirdOffered : State :=
  (secondRefused n t).withScheduler ((secondRefused n t).scheduler.takeOff t (scouting t))

def thirdFlies : State :=
  ((thirdOffered n t).accepted (impatient n) ((scouting t).dispatch t)).setRound false

theorem reaches_firstFlies : Reaches (impatient n) (fresh frugalWorld) ⟨firstFlies n, []⟩ := by
  have hwaits : Reaches (impatient n) (fresh frugalWorld) ⟨_, []⟩ :=
    reaches_of_operation (.change (forwarded 1)) 1 nofun rfl
  have hoffered : Reaches (impatient n) (fresh frugalWorld)
      ⟨firstOffered, [.handOver ((forwarding 1 0).dispatch 0) (.queue [])]⟩ :=
    hwaits.trans (reaches_of_operation .round 3 nofun rfl)
  have haccepted : Reaches (impatient n)
      ⟨firstOffered, [.handOver ((forwarding 1 0).dispatch 0) (.queue [])]⟩
      ⟨firstOffered.accepted (impatient n) ((forwarding 1 0).dispatch 0), [.takeNext []]⟩ :=
    reaches_of_turns 2 rfl
  exact (hoffered.trans haccepted).trans (reaches_of_turns 4 rfl)

/-- The alarm is set for the next look. -/
theorem alarm_firstFlies : (firstFlies n).scheduler.alarm =
    some ⟨(impatient n).settings.watchdogInterval, (impatient n).settings.callbackTimeout⟩ := by
  have halarm : (firstFlies n).scheduler.alarm = some (Alarm.arm none 0
      (impatient n).settings.watchdogInterval (impatient n).settings.callbackTimeout) := rfl
  rw [halarm, Alarm.arm, Nat.zero_add]

variable {n t} (ht : t < (impatient n).settings.watchdogInterval)
include ht

theorem reaches_secondRefused :
    Reaches (impatient n) ⟨firstFlies n, []⟩ ⟨secondRefused n t, [.putBack []]⟩ := by
  have hearly : ∀ a, (firstFlies n).scheduler.alarm = some a → t < a.deadline := by
    intro a ha
    obtain rfl := Option.some.inj ((alarm_firstFlies n).symm.trans ha)
    exact ht
  have hlate : Reaches (impatient n) ⟨firstFlies n, []⟩
      ⟨(firstFlies n).withWorld (generousWorld t), []⟩ := by
    refine reaches_of_move (m := .world (generousWorld t)) ?_ ?_
    · exact fun a ha => Nat.le_of_lt (hearly a ha)
    · simp only [move]
      exact if_pos (Nat.zero_le t)
  have hwaits : Reaches (impatient n) ⟨firstFlies n, []⟩ ⟨secondWaits n t, []⟩ :=
    hlate.trans (reaches_of_operation (.change (forwarded 2)) 1 hearly rfl)
  have hoffered : Reaches (impatient n) ⟨secondWaits n t, []⟩
      ⟨secondOffered n t, [.handOver ((forwarding 2 t).dispatch t) (.queue [])]⟩ :=
    reaches_of_operation .round 3 hearly rfl
  exact (hwaits.trans hoffered).trans (reaches_of_turns 2 rfl)

omit ht in
theorem reaches_thirdFlies :
    Reaches (impatient n) ⟨secondRefused n t, [.putBack []]⟩ ⟨thirdFlies n t, []⟩ := by
  have hscout : Reaches (impatient n) ⟨secondRefused n t, [.putBack []]⟩
      ⟨secondRefused n t, [.browse, .endRound]⟩ :=
    reaches_of_turns 2 rfl
  have hvet : Reaches (impatient n) ⟨secondRefused n t, [.browse, .endRound]⟩
      ⟨secondRefused n t, [.vet unasked [], .endRound]⟩ :=
    reaches_of_turns 2 rfl
  have hoffered : Reaches (impatient n) ⟨secondRefused n t, [.vet unasked [], .endRound]⟩
      ⟨thirdOffered n t, [.handOver ((scouting t).dispatch t) .done, .endRound]⟩ :=
    reaches_of_turns 2 rfl
  exact ((hscout.trans hvet).trans hoffered).trans (reaches_of_turns 3 rfl)

omit ht in
/-- After the refusal the alarm was due at once, and now it is due at the look after the next
one. -/
theorem alarm_thirdFlies : (thirdFlies n t).scheduler.alarm =
    some ⟨t + (impatient n).settings.watchdogInterval, (impatient n).settings.callbackTimeout⟩ := by
  have hworld : (secondRefused n t).world = generousWorld t := by
    rw [secondRefused, State.world_refused, secondOffered, State.world_withScheduler]
    rfl
  have hnone : (impatient n).settings.retryDelay = 0 := Nat.zero_mul _
  have hdue : (secondRefused n t).scheduler.alarm =
      some ⟨t, (impatient n).settings.callbackTimeout⟩ := by
    rw [secondRefused, State.alarm_refused, hnone, Alarm.arm_zero]
    rfl
  have hnow : (generousWorld t).now = t := rfl
  rw [thirdFlies, State.alarm_setRound, State.alarm_accepted, thirdOffered, State.alarm_takeOff,
    State.world_withScheduler, hworld, hdue, hnow, Alarm.arm_of_due _ _ _ _ (Nat.le_refl t)]

end InScouting

/-- **A look is lost in scouting**: a transfer is silent for longer than the silence that counts as
a stall and the time between two looks. -/
theorem lost_in_scouting (n : Nat) :
    ∃ d, Reaches (impatient n) (fresh frugalWorld) d ∧ ¬ d.InTime (impatient n) := by
  have hwatch : (impatient n).settings.watchdogInterval = (n + 1) * 1000000 := rfl
  obtain ⟨t, ht⟩ : ∃ t, t + 1 = (impatient n).settings.watchdogInterval :=
    Nat.exists_add_one_eq.mpr (by omega)
  have hflies : Reaches (impatient n) (fresh frugalWorld) ⟨InScouting.thirdFlies n t, []⟩ :=
    ((InScouting.reaches_firstFlies n).trans (InScouting.reaches_secondRefused (by omega))).trans
      InScouting.reaches_thirdFlies
  have hsilent : Reaches (impatient n) ⟨InScouting.thirdFlies n t, []⟩
      ⟨(InScouting.thirdFlies n t).withWorld (generousWorld (t + 2)), []⟩ := by
    refine reaches_of_move (m := .world (generousWorld (t + 2))) (fun a ha => ?_) ?_
    · obtain rfl := Option.some.inj (InScouting.alarm_thirdFlies.symm.trans ha)
      show t + 2 ≤ t + (impatient n).settings.watchdogInterval
      omega
    · simp only [move]
      exact if_pos (Nat.le_add_right t 2)
  refine ⟨_, hflies.trans hsilent, fun h => ?_⟩
  have hbound := h.2 1 ((forwarding 1 0).dispatch 0) rfl
  have hnow : ((InScouting.thirdFlies n t).withWorld (generousWorld (t + 2))).world.now = t + 2 :=
    rfl
  have hnone : (impatient n).settings.callbackTimeout = 0 := Nat.zero_mul _
  rw [Request.silence_of_heardAt rfl, hnow, hnone] at hbound
  omega

/-! ### When no look is lost -/

/-- **Stalls are noticed in time, whatever happens, exactly if the delays are even**: on every
punctual run, with all other settings, if and only if the time between two looks and the wait before
a delayed retry are both zero or neither is. -/
theorem stall_bound_iff (interval delay : Nat) :
    (∀ (setup : Setup) (w : World) (moves : List Move) (d : Desk),
        setup.settings.watchdogIntervalMs = interval → setup.settings.retryDelayMs = delay →
          (fresh w).run setup moves = some d →
            Throughout (move setup) Punctual (fresh w) moves → d.InTime setup) ↔
      (interval = 0 ↔ delay = 0) := by
  constructor
  · intro h
    by_contra heven
    rcases interval with _ | n <;> rcases delay with _ | k
    · exact heven Iff.rfl
    · obtain ⟨d, ⟨moves, hrun, hp⟩, hlost⟩ := lost_in_round k
      exact hlost (h (unhurried k) _ moves d rfl rfl hrun hp)
    · obtain ⟨d, ⟨moves, hrun, hp⟩, hlost⟩ := lost_in_scouting n
      exact hlost (h (impatient n) _ moves d rfl rfl hrun hp)
    · exact heven (iff_of_false n.succ_ne_zero k.succ_ne_zero)
  · rintro heven setup w moves d rfl rfl hrun hp
    refine inTime_run ?_ hrun hp
    unfold Setup.Even Settings.watchdogInterval Settings.retryDelay millis
    omega

/-- With the usual twenty seconds between two looks, and no wait before a retry, a look is lost. -/
theorem look_lost : ∃ moves d, (fresh frugalWorld).run (impatient 19999) moves = some d ∧
    Throughout (move (impatient 19999)) Punctual (fresh frugalWorld) moves ∧
    ¬ d.InTime (impatient 19999) := by
  obtain ⟨d, ⟨moves, hrun, hp⟩, hlost⟩ := lost_in_scouting 19999
  exact ⟨moves, d, hrun, hp, hlost⟩

end Desk

end MailFetch

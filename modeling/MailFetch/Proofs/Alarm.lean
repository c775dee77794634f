import MailFetch.Proofs.Errand

/-! # The watchdog's alarm

Setting the alarm never moves a pending one back, as long as it is still to come
(`Alarm.deadline_arm_le_pending`): an alarm that goes off at this very moment is no longer to come,
and is replaced. `Errand.perform_alarm` says with which delays an errand may set the alarm. -/

namespace MailFetch

namespace Alarm

variable (pending : Option Alarm) (a : Alarm) (now delay timeout : Nat)

theorem deadline_arm_le : (arm pending now delay timeout).deadline ≤ now + delay := by
  unfold arm
  split
  · split_ifs with hkept
    · exact hkept.2
    · exact Nat.le_refl _
  · exact Nat.le_refl _

theorem le_deadline_arm : now ≤ (arm pending now delay timeout).deadline := by
  unfold arm
  split
  · split_ifs with hkept
    · exact Nat.le_of_lt hkept.1
    · exact Nat.le_add_right _ _
  · exact Nat.le_add_right _ _

theorem lt_deadline_arm (h : 0 < delay) : now < (arm pending now delay timeout).deadline := by
  unfold arm
  split
  · split_ifs with hkept
    · exact hkept.1
    · exact Nat.lt_add_of_pos_right h
  · exact Nat.lt_add_of_pos_right h

/-- **An alarm still to come is not moved back.** -/
theorem deadline_arm_le_pending (h : now < a.deadline) :
    (arm (some a) now delay timeout).deadline ≤ a.deadline := by
  unfold arm
  dsimp only
  split_ifs with hkept
  · exact Nat.le_refl _
  · show now + delay ≤ a.deadline
    omega

/-- An alarm that is due is replaced. -/
theorem arm_of_due (h : a.deadline ≤ now) :
    arm (some a) now delay timeout = ⟨now + delay, timeout⟩ := by
  unfold arm
  dsimp only
  rw [if_neg fun hkept => Nat.not_lt.mpr h hkept.1]

/-- An alarm that is set without delay is due at once. -/
theorem arm_zero : arm pending now 0 timeout = ⟨now, timeout⟩ := by
  unfold arm
  split
  · rw [if_neg fun hkept => Nat.not_lt.mpr hkept.2 hkept.1, Nat.add_zero]
  · rw [Nat.add_zero]

theorem timeout_arm (h : ∀ p, pending = some p → p.timeout = timeout) :
    (arm pending now delay timeout).timeout = timeout := by
  unfold arm
  split
  next p =>
    split_ifs
    · exact h p rfl
    · rfl
  · rfl

end Alarm

/-- How the alarm may be after something has happened: as before, or set with some delay. -/
inductive AlarmSet (now timeout : Nat) (D : Nat → Prop) (before after : Option Alarm) : Prop
  | kept (h : after = before)
  | set (delay : Nat) (hdelay : D delay) (h : after = some (Alarm.arm before now delay timeout))

namespace Errand

variable {setup : Setup} {s : State} {e : Errand}

/-- **The delays with which an errand may set the alarm.** -/
inductive Delay (setup : Setup) (now : Nat) : Errand → Nat → Prop
  | watch (e : Errand) : Delay setup now e setup.settings.watchdogInterval
  | retry (e : Errand) : Delay setup now e setup.settings.retryDelay
  /-- Up to the end of a delayed retry. -/
  | deferred (r : Request) (aside : List Request) (t : Nat) (h : r.notBefore = some t)
      (hlt : now < t) : Delay setup now (screen r aside) (t - now)

/-- **What an errand may do to the alarm.** Only the errand that sets it again after a tick brings a
silence of its own. -/
theorem perform_alarm (setup : Setup) (s : State) (hrearm : ∀ timeout, e = rearm timeout →
      timeout = setup.settings.callbackTimeout) :
    AlarmSet s.world.now setup.settings.callbackTimeout (Delay setup s.world.now e)
      s.scheduler.alarm (e.perform setup s).state.scheduler.alarm := by
  by_cases htouch : e.touchesAlarm = false
  · exact .kept ((perform_frame setup s e).alarm htouch)
  cases e with
  | screen r aside =>
    unfold perform doScreen
    dsimp only
    split
    · exact .kept rfl
    · exact .kept rfl
    · split_ifs with hdeferred
      · unfold Request.isDeferred at hdeferred
        cases ht : r.notBefore with
        | none => simp [ht] at hdeferred
        | some t =>
          simp only [ht, decide_eq_true_eq] at hdeferred
          exact .set _ (.deferred r aside t ht hdeferred) rfl
      · exact .kept rfl
      · exact .kept rfl
  | landed r accepted onward =>
    unfold perform doLanded
    dsimp only
    split_ifs
    · exact .set _ (.watch _) rfl
    · refine .set _ (.retry _) ?_
      simp only [State.arm, Scheduler.arm, State.breakOff_scheduler, State.breakOff_world]
      rw [Scheduler.breakOff_eq]
  | settle id status =>
    unfold perform doSettle
    dsimp only
    split
    · exact .kept rfl
    · have hother := Scheduler.retryAfterError_eq
      split_ifs
      · split
        · refine .kept ?_
          simp only [State.ring, Scheduler.ring, State.abandon_scheduler]
          rw [hother]
        · refine .set _ (.retry _) ?_
          simp only [State.arm, Scheduler.arm]
          rw [hother]
        · refine .kept ?_
          simp only [State.ring, Scheduler.ring]
          rw [hother]
      · exact .kept rfl
  | rearm timeout =>
    obtain rfl := hrearm timeout rfl
    unfold perform doRearm
    dsimp only
    split_ifs
    · exact .kept rfl
    · exact .set _ (.watch _) rfl
  | _ => exact absurd rfl htouch

end Errand

end MailFetch

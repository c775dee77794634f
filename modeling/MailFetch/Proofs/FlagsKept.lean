import MailFetch.Proofs.Barred
import MailFetch.Proofs.Crew

/-! # What a reported change leaves of a record's flags

A report of a change carries the flags that the record had when the change was made, and it is
reviewed by these, however old they are. A review that forbids the download marks the record as
failed, and writes back the flags of the report, less the two that ask for a download. So whatever
has happened to the other flags since the report was made is undone.

* `Flags.SameMarks`: two flag words agree in every bit but the two that ask for a download.
* `State.Refuses`: the report of a change ends in such a refusal.
* `Desk.finishes_notice`: what becomes of the record.
* `Desk.notice_keeps_marks_iff`: the other flags stay as they are exactly if there is no refusal, or
  the report has the same ones as the record. `Crew.mark_lost`: a flag that is lost. -/

namespace MailFetch

namespace Flags

variable {a b : Flags}

/-- **Two flag words carry the same marks**: they agree in every bit but the two that ask for a
download. -/
def SameMarks (a b : Flags) : Prop :=
  ∀ i, pending.bits.getLsbD i = false → a.bits.getLsbD i = b.bits.getLsbD i

theorem SameMarks.refl (a : Flags) : a.SameMarks a := fun _ _ => rfl

/-- To take away the two flags leaves the marks alone. -/
theorem sameMarks_without (a : Flags) : (a.without .pending).SameMarks a := by
  intro i hi
  by_cases hlt : i < 32
  · rw [getLsbD_without _ _ hlt, hi]
    simp
  · rw [BitVec.getLsbD_of_ge _ _ (Nat.not_lt.mp hlt), BitVec.getLsbD_of_ge _ _ (Nat.not_lt.mp hlt)]

theorem sameMarks_without_iff : (a.without .pending).SameMarks b ↔ a.SameMarks b :=
  ⟨fun h i hi => (a.sameMarks_without i hi).symm.trans (h i hi),
    fun h i hi => (a.sameMarks_without i hi).trans (h i hi)⟩

/-- Marks are compared on the whole word by masking the two flags. -/
theorem sameMarks_iff : a.SameMarks b ↔ a.without .pending = b.without .pending := by
  constructor
  · intro h
    refine congrArg Flags.mk (BitVec.eq_of_getLsbD_eq fun i hi => ?_)
    have hleft := getLsbD_without a .pending hi
    have hright := getLsbD_without b .pending hi
    unfold without at hleft hright
    rw [hleft, hright]
    cases hmask : pending.bits.getLsbD i with
    | false => rw [h i hmask]
    | true => simp
  · intro h
    rw [← sameMarks_without_iff, h]
    exact b.sameMarks_without

instance (a b : Flags) : Decidable (a.SameMarks b) := decidable_of_iff _ sameMarks_iff.symm

end Flags

/-- A record as a report of a change shows it. -/
def Attachment.reportedWith (a : Attachment) (flags : Flags) : Attachment :=
  { a with flags := flags }

/-- **A reported change is refused**: the record can be looked up, the policy forbids what the
report asks for, and the record can be updated. -/
structure State.Refuses (s : State) (setup : Setup) (a : Attachment) (flags : Flags) : Prop where
  answered : s.world.fails .collapse a.id = false ∧ s.world.fails .attachment a.id = false
  forbidden : s.scheduler.verdict setup.policy (a.reportedWith flags) = .forbidden
  written : s.world.fails .updateAttachment a.id = false

namespace Desk

variable {setup : Setup} {s : State} {a : Attachment} {flags : Flags}

/-- A review that does not forbid the download changes nothing of the world. -/
theorem perform_review_of_allowed (h : s.scheduler.verdict setup.policy a ≠ .forbidden) :
    ∃ t, (Errand.review a).perform setup s = { state := t } ∧ t.world = s.world := by
  cases hverdict : s.scheduler.verdict setup.policy a with
  | forbidden => exact absurd hverdict h
  | _ =>
    simp only [Errand.perform, Errand.doReview, hverdict]
    exact ⟨_, rfl, rfl⟩

/-- **A review comes to its end**: it marks the record as failed if it forbids the download, and
leaves the world alone otherwise. -/
theorem finishes_review (setup : Setup) (s : State) (a : Attachment) :
    ∃ d, Finishes setup ⟨s, [.review a]⟩ d ∧
      (s.scheduler.verdict setup.policy a = .forbidden →
        d.state.world = s.world.update a.id (.finished a.flags .failed)) ∧
      (s.scheduler.verdict setup.policy a ≠ .forbidden → d.state.world = s.world) := by
  by_cases hverdict : s.scheduler.verdict setup.policy a = .forbidden
  · have hreview : (Errand.review a).perform setup s = { state := s, next := [.refuse a] } := by
      simp only [Errand.perform, Errand.doReview, hverdict]
    exact ⟨_, finishes_turn [.refuse a] rfl hreview (finishes_turn [.ring] rfl rfl
      (finishes_turn [] rfl rfl (finishes_nil setup _))), fun _ => rfl, fun h => absurd hverdict h⟩
  · obtain ⟨t, hreview, hworld⟩ := perform_review_of_allowed hverdict
    exact ⟨⟨t, []⟩, finishes_turn [] rfl hreview (finishes_nil setup t),
      fun h => absurd h hverdict, fun _ => hworld⟩

/-- A report that collapses, or whose record cannot be looked up, changes nothing. -/
theorem finishes_unanswered
    (h : s.world.fails .collapse a.id = true ∨ s.world.fails .attachment a.id = true) :
    Finishes setup ⟨s, [.applyNotice a.id flags]⟩ ⟨s, []⟩ := by
  refine ⟨1, ?_, rfl⟩
  by_cases hcollapse : s.world.fails .collapse a.id = true
  · simp [run, follow, move, Errand.perform, Errand.doApplyNotice, hcollapse, Turn.left]
  · have hfails := h.resolve_left hcollapse
    simp [run, follow, move, Errand.perform, Errand.doApplyNotice, hcollapse, World.attachment,
      hfails, Turn.left]

/-- A record that is looked up is reviewed as the report shows it. -/
theorem finishes_answered {d : Desk} (hstored : s.world.records.attachments.get? a.id = some a)
    (hcollapse : s.world.fails .collapse a.id = false)
    (hfails : s.world.fails .attachment a.id = false)
    (h : Finishes setup ⟨s, [.review (a.reportedWith flags)]⟩ d) :
    Finishes setup ⟨s, [.applyNotice a.id flags]⟩ d := by
  obtain ⟨turns, hrun, hdone⟩ := h
  refine ⟨turns + 1, ?_, hdone⟩
  have hturn : (⟨s, [.applyNotice a.id flags]⟩ : Desk).move setup .turn =
      some ⟨s, [.review (a.reportedWith flags)]⟩ := by
    simp [move, Errand.perform, Errand.doApplyNotice, hcollapse, World.attachment, hfails,
      hstored, Turn.left, Attachment.reportedWith]
  exact (follow_cons hturn).trans hrun

/-- **What becomes of a record when a change of it is reported**: it is marked as failed, with the
flags of the report, if the report is refused, and stays as it is otherwise. -/
theorem finishes_notice (setup : Setup) (flags : Flags)
    (hstored : s.world.records.attachments.get? a.id = some a) :
    ∃ d, Finishes setup ⟨s, [.applyNotice a.id flags]⟩ d ∧
      (s.Refuses setup a flags → d.state.world.records.attachments.get? a.id =
        some ((Update.finished flags .failed).apply a)) ∧
      (¬ s.Refuses setup a flags → d.state.world.records.attachments.get? a.id = some a) := by
  by_cases hanswered : s.world.fails .collapse a.id = false ∧ s.world.fails .attachment a.id = false
  · obtain ⟨d, hends, hforbidden, hallowed⟩ :=
      finishes_review setup s (a.reportedWith flags)
    refine ⟨d, finishes_answered hstored hanswered.1 hanswered.2 hends, fun h => ?_, fun h => ?_⟩
    · rw [hforbidden h.forbidden]
      have hwritten : s.world.fails .updateAttachment a.id = false := h.written
      simp [World.update, Records.update, Attachment.reportedWith, hwritten, hstored]
    · by_cases hverdict : s.scheduler.verdict setup.policy (a.reportedWith flags) = .forbidden
      · have hfails : s.world.fails .updateAttachment a.id = true := by
          by_contra hwritten
          exact h ⟨hanswered, hverdict, by simpa using hwritten⟩
        rw [hforbidden hverdict]
        simp [World.update, Attachment.reportedWith, hfails, hstored]
      · rw [hallowed hverdict]
        exact hstored
  · refine ⟨⟨s, []⟩, finishes_unanswered ?_, fun h => absurd h.answered hanswered,
      fun _ => hstored⟩
    simpa only [Classical.not_and_iff_not_or_not, Bool.not_eq_false] using hanswered

/-- **When a reported change keeps a record's marks**: in every state, whatever flags a report
carries and whatever the policy, the report is dealt with, the record is still there, and every flag
but the two that ask for a download is as it was exactly if the report is not refused, or carries
the same marks as the record. -/
theorem notice_keeps_marks_iff (setup : Setup) (s : State) (a : Attachment) (flags : Flags)
    (hstored : s.world.records.attachments.get? a.id = some a) :
    ∃ d b, Finishes setup ⟨s, [.applyNotice a.id flags]⟩ d ∧
      d.state.world.records.attachments.get? a.id = some b ∧
      (b.flags.SameMarks a.flags ↔ (s.Refuses setup a flags → flags.SameMarks a.flags)) := by
  obtain ⟨d, hends, hrefused, hkept⟩ := finishes_notice setup flags hstored
  by_cases hrefuses : s.Refuses setup a flags
  · refine ⟨d, _, hends, hrefused hrefuses, ?_⟩
    exact Flags.sameMarks_without_iff.trans ⟨fun h _ => h, fun h => h hrefuses⟩
  · exact ⟨d, a, hends, hkept hrefuses, fun _ h => absurd h hrefuses, fun _ => .refl _⟩

/-- A setup whose policy allows ten bytes. -/
def strictSetup : Setup := { policy := { maxBytes := some 10 } }

/-- A record of a hundred bytes that a user asks for, with one flag more. -/
def markedRecord : Attachment :=
  { id := 1, message := 10, account := 1, size := 100, flags := .ofNat 1028 }

/-- A world with this record, under some flags. -/
def markedWorld (flags : Flags) : World where
  records := .ofSeed { attachments := [{ markedRecord with flags := flags }] }

/-- A report with the flags of the record is refused, and the mark of the record stays. -/
theorem notice_keeps_marks_iff_refused :
    (fresh (markedWorld markedRecord.flags)).state.Refuses strictSetup markedRecord
        markedRecord.flags ∧
      ∃ d b, Finishes strictSetup
          ⟨(fresh (markedWorld markedRecord.flags)).state, [.applyNotice 1 markedRecord.flags]⟩ d ∧
        d.state.world.records.attachments.get? 1 = some b ∧ b.flags.SameMarks (.ofNat 1028) := by
  have hrefuses : (fresh (markedWorld markedRecord.flags)).state.Refuses strictSetup markedRecord
      markedRecord.flags := ⟨⟨rfl, rfl⟩, rfl, rfl⟩
  obtain ⟨d, b, hends, hrecord, hmarks⟩ := notice_keeps_marks_iff strictSetup
    (fresh (markedWorld markedRecord.flags)).state markedRecord markedRecord.flags rfl
  exact ⟨hrefuses, d, b, hends, hrecord, hmarks.mpr fun _ => .refl _⟩

end Desk

namespace Crew

open Desk (strictSetup markedWorld)

/-- A user asks for an attachment and this is reported. Before the report is applied, somebody else
marks the record. -/
def reportedBeforeMarked : List CrewMove :=
  [.begin (.notify 1 .requested), .world (markedWorld (.ofNat 1028)), .start]

/-- **A mark that is lost**: the report is older than the mark, and its refusal takes the mark
away. -/
theorem mark_lost :
    ∃ c c' a b, (fresh (markedWorld .requested)).run strictSetup reportedBeforeMarked = some c ∧
      c.run strictSetup (List.replicate 4 (.turn 1)) = some c' ∧
      c.state.world.records.attachments.get? 1 = some a ∧ a.flags = .ofNat 1028 ∧
      c'.state.world.records.attachments.get? 1 = some b ∧ b.flags = .none ∧
      ¬ b.flags.SameMarks a.flags :=
  ⟨_, _, _, _, rfl, rfl, rfl, rfl, rfl, rfl, by decide⟩

end Crew

end MailFetch

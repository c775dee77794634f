import MailFetch.Proofs.DueMail
import MailFetch.Proofs.Lineage
import MailFetch.Proofs.Outcome
import Mathlib.Combinatorics.Enumerative.DoubleCounting

/-! # How often progress is written

A report of progress that has reached the next step is entered for its request, and leads to one
update of the record, two turns of its task later. As every entry is a step further than the one
before it, there are ten of them at most in the lineage of a request, however many reports come and
however often the transfer is tried again.

* `World.TakesProgress`: what an entry of progress leaves in the store.
* `State.progressUpdates`: the updates by which downloads are said to be under way.
  `Errand.progressUpdates_perform`: one kind of errand makes them.
* `Crew.LeadsTo`: the moment at which a report leads to an update of the record.
* `Crew.ProgressCall`: the call that comes to update the record.
* `Crew.progress_throttled`: how often progress is written, and what the record holds then. -/

namespace MailFetch

/-! ### Progress in the store -/

namespace World

/-- **What an entry of progress leaves in the store.** -/
structure TakesProgress (w w' : World) (id : Int) (bytes : Nat) : Prop where
  /-- If the call goes through, the record says that a download is under way and how many bytes have
  come, and is otherwise as it was. No other record changes. -/
  record : w.fails .updateAttachment id = false → ∀ a, w.records.attachments.get? id = some a →
    w.Replaces w' id (some { a with phase := .downloading, downloadedSize := bytes })
  /-- A call that fails changes nothing, nor does one for a record that is not there. -/
  kept : w.fails .updateAttachment id = true ∨ w.records.attachments.get? id = none → w' = w
  /-- The rest of the world does not change. -/
  elsewhere : w' = { w with records := w'.records }

theorem takesProgress_update (w : World) (id : Int) (bytes : Nat) :
    w.TakesProgress
      (w.update id { phase := some .downloading, downloadedSize := some bytes }) id bytes where
  record hpasses a ha := by
    rw [update_of_get? hpasses _ ha]
    exact w.replaces_enter id { a with phase := .downloading, downloadedSize := bytes }
  kept hfails := by
    unfold update Records.update
    rcases hfails with hfails | hnone
    · rw [if_pos hfails]
    · rw [hnone]
      split_ifs <;> rfl
  elsewhere := by
    rcases w.update_cases id { phase := some .downloading, downloadedSize := some bytes } with
      hsame | ⟨a, -, hworld⟩
    · rw [hsame]
    · rw [hworld]
      rfl

end World

/-! ### Progress in the log -/

/-- The record and the update, if the update says that a download is under way. -/
def Event.progressOf : Event → Option (Int × Update)
  | update id u => if u.phase = some .downloading then some (id, u) else none
  | _ => none

/-- **The updates by which downloads are said to be under way**, the latest first. -/
def State.progressUpdates (s : State) : List (Int × Update) :=
  s.log.filterMap fun l => l.event.progressOf

namespace Errand

variable {e : Errand} {id : Int} {u : Update}

/-- Whatever is not a write ends a download, one way or the other. -/
theorem Updates.ends (h : e.Updates id u) (hwrite : e ≠ write id u) :
    u.phase = some .saved ∨ u.phase = some .failed := by
  cases e with
  | refuse a =>
    obtain ⟨-, rfl⟩ := h
    exact .inr rfl
  | write j v =>
    obtain ⟨rfl, rfl⟩ := h
    exact absurd rfl hwrite
  | close status record deleted =>
    cases record with
    | none => cases h
    | some a =>
      cases deleted with
      | true => cases h
      | false =>
        obtain ⟨-, rfl | rfl⟩ := h
        · exact .inl rfl
        · exact .inr rfl
  | _ => exact h.elim

/-- The progress update that an errand makes. -/
def progressUpdate : Errand → Option (Int × Update)
  | write id u => (Event.update id u).progressOf
  | _ => none

theorem progressOf_of_notes {ev : Event} (hwrite : ∀ id u, e ≠ write id u) (h : e.Notes ev) :
    ev.progressOf = none := by
  cases ev with
  | update id u =>
    have hends : u.phase = some .saved ∨ u.phase = some .failed := Updates.ends h (hwrite id u)
    exact if_neg (by rcases hends with hphase | hphase <;> simp [hphase])
  | _ => rfl

/-- **Progress is written by one kind of errand.** -/
theorem progressUpdates_perform (setup : Setup) (s : State) (e : Errand) :
    (e.perform setup s).state.progressUpdates = e.progressUpdate.toList ++ s.progressUpdates := by
  cases e with
  | write id u =>
    simp only [perform, State.progressUpdates, State.update, State.note, progressUpdate]
    rw [List.filterMap_cons]
    cases (Event.update id u).progressOf <;> rfl
  | _ => exact filterMap_log fun ev => progressOf_of_notes (by simp)

end Errand

namespace Crew

/-! ### Moments of a task -/

section Moments

variable {moves p q q' : List CrewMove} {i j : Nat}

/-- **A task has a turn at a moment of a run, and its next one at another.** -/
def NextTurn (moves : List CrewMove) (i : Nat) (p q : List CrewMove) : Prop :=
  ∃ between, q = p ++ .turn i :: between ∧ .turn i ∉ between ∧ q ++ [.turn i] <+: moves

theorem takeWhile_of_first {between later : List CrewMove} (hnot : .turn i ∉ between) :
    (between ++ .turn i :: later).takeWhile (· ≠ .turn i) = between := by
  rw [List.takeWhile_append_of_pos, List.takeWhile_cons_of_neg (by simp), List.append_nil]
  intro m hm
  simpa using fun h : m = .turn i => hnot (h ▸ hm)

theorem NextTurn.mono {moves' : List CrewMove} (h : NextTurn moves i p q)
    (hmoves : moves <+: moves') : NextTurn moves' i p q :=
  h.imp fun _ hnext => hnext.imp_right fun hlast => hlast.imp_right (·.trans hmoves)

/-- **There is one next turn at most.** -/
theorem NextTurn.unique (h : NextTurn moves i p q) (h' : NextTurn moves j p q') :
    i = j ∧ q = q' := by
  obtain ⟨between, rfl, hnot, later, hmoves⟩ := h
  obtain ⟨between', rfl, hnot', later', hmoves'⟩ := h'
  have hsame : p ++ .turn i :: (between ++ .turn i :: later) =
      p ++ .turn j :: (between' ++ .turn j :: later') := by
    simpa using hmoves.trans hmoves'.symm
  obtain ⟨hturn, hrest⟩ := List.cons.inj (List.append_cancel_left hsame)
  obtain rfl := CrewMove.turn.inj hturn
  have hbetween := congrArg (List.takeWhile (· ≠ CrewMove.turn i)) hrest
  rw [takeWhile_of_first hnot, takeWhile_of_first hnot'] at hbetween
  exact ⟨rfl, by rw [hbetween]⟩

/-- **A report leads to an update**: the task that takes it at the one moment has its next turn but
one at the other. -/
def LeadsTo (moves p q : List CrewMove) : Prop :=
  ∃ i looked, NextTurn moves i p looked ∧ NextTurn moves i looked q

theorem LeadsTo.unique (h : LeadsTo moves p q) (h' : LeadsTo moves p q') : q = q' := by
  obtain ⟨i, looked, hlooked, hq⟩ := h
  obtain ⟨j, looked', hlooked', hq'⟩ := h'
  obtain ⟨rfl, rfl⟩ := hlooked.unique hlooked'
  exact (hq.unique hq').2

/-- Every moment leads to one at most, so no more are led to than there are to lead. -/
theorem card_le_of_leadsTo {entries : List (List CrewMove)} {updates : Finset (List CrewMove)}
    (h : ∀ q ∈ updates, ∃ p ∈ entries, LeadsTo moves p q) : updates.card ≤ entries.length := by
  have hcard : updates.card ≤ entries.toFinset.card := by
    refine Finset.card_le_card_of_forall_subsingleton (fun q p => LeadsTo moves p q)
      (fun q hq => ?_) fun p _ q hq q' hq' => hq.2.unique hq'.2
    obtain ⟨p, hp, hleads⟩ := h q hq
    exact ⟨p, List.mem_toFinset.mpr hp, hleads⟩
  exact hcard.trans entries.toFinset_card_le

end Moments

/-! ### The call that writes progress -/

variable {setup : Setup} {w : World} {moves : List CrewMove} {c c' : Crew} {i : Nat}

/-- **The call that comes to update a record** for progress, in a run: it has taken a report on a
request in flight and entered it, and has found the record in its next turn. -/
structure ProgressCall (setup : Setup) (w : World) (moves : List CrewMove) where
  task : Nat
  report : Report
  /-- The request as it is after the report. -/
  request : Request
  told : List Report
  /-- When progress was entered in the lineage of the request. -/
  entries : List (List CrewMove)
  heard : List CrewMove
  looked : List CrewMove
  looking : Crew
  record : Attachment
  about : request.id = report.id
  goesOn : report.status = .inProgress
  /-- The report is the latest one that was entered. -/
  lineage : Lineage setup w (heard ++ [.turn task]) request (report :: told) (heard :: entries)
  looksAt : (fresh w).run setup looked = some looking
  found : looking.state.world.records.attachments.get? report.id = some record
  first : NextTurn (moves ++ [.turn task]) task heard looked
  second : NextTurn (moves ++ [.turn task]) task looked moves

theorem ProgressCall.leadsTo {moves' : List CrewMove} (call : ProgressCall setup w moves)
    (hmoves : moves ++ [.turn call.task] <+: moves') : LeadsTo moves' call.heard moves :=
  ⟨call.task, call.looked, call.first.mono hmoves, call.second.mono hmoves⟩

/-- **What a task has done that is about to update a record** for progress. -/
theorem progressCall {id : Int} {u : Update} {rest : List Errand}
    (hrun : (fresh w).run setup moves = some c)
    (hi : c.tasks[i]? = some (.write id u :: rest)) :
    ∃ call : ProgressCall setup w moves, call.task = i ∧ call.report.id = id ∧
      u = .progress call.record.size call.report.percent := by
  have htold : c.Told setup i ((fresh w).turns setup i moves) := told_run hrun
  -- The turn before was the look-up, and the one before that took the report.
  obtain ⟨s, e, before, hturns, hmem⟩ := (htold.next _ _ hi).1 rfl
  obtain ⟨percent, a, rfl, ha, rfl⟩ := Errand.of_write hmem
  obtain ⟨looked, between, v, _, rfl, hnot, hv, rfl, -, hlooked⟩ := last_turn hrun hturns
  have hlinked := htold.linked
  rw [hturns] at hlinked
  obtain ⟨hfollows, -, -⟩ := hlinked
  obtain ⟨s, e, earlier, rfl, hmem⟩ := hfollows rfl
  obtain ⟨report, r, rfl, rfl, rfl, hflies, hgoes, hreached⟩ := Errand.of_recordProgress hmem
  obtain ⟨heard, between', x, _, rfl, hnot', hx, rfl, hx', -⟩ := last_turn hv hlooked
  obtain ⟨x', hmove, -⟩ := follow_cons_eq_some (by
    rw [run, follow_append hx] at hv
    exact hv)
  -- The report is taken on a request with a lineage, which goes on with it.
  have hid := (legible_run hx).filed _ _ hflies
  obtain ⟨told, entries, hlineage⟩ := exists_lineage hx (.inr (.inl (hid.symm ▸ hflies)))
  have hhas : x'.Has (r.heard x.state.world.now report.status report.percent) := by
    refine .inr (.inl ?_)
    rw [(task_of_self hx' hmove).1, Errand.perform, Errand.doHear, hflies]
    exact (Flights.get?_insert ..).trans (if_pos rfl)
  have hafter := hlineage.isHeardOf hx hx' hmove hflies hhas
  rw [if_pos ⟨hgoes, hreached⟩] at hafter
  exact ⟨{
    task := i
    report := report
    request := r.heard x.state.world.now report.status report.percent
    told := told
    entries := entries
    heard := heard
    looked := heard ++ .turn i :: between'
    looking := v
    record := a
    about := by rw [Request.id_heard, hid]
    goesOn := Status.eq_inProgress hgoes
    lineage := hafter
    looksAt := hv
    found := World.get?_of_attachment ha
    first := ⟨between', rfl, hnot', _, by simp; rfl⟩
    second := ⟨between, rfl, hnot, List.prefix_rfl⟩ }, rfl, rfl, rfl⟩

/-- **Progress is written by a turn** of a task that has come to that. -/
theorem writes_of_move {m : CrewMove} (h : c.move setup m = some c')
    (hwritten : c'.state.progressUpdates ≠ c.state.progressUpdates) :
    ∃ i id u rest, m = .turn i ∧ c.tasks[i]? = some (.write id u :: rest) ∧
      u.phase = some .downloading ∧
      c'.state.progressUpdates = (id, u) :: c.state.progressUpdates ∧
        c'.state.world = c.state.world.update id u := by
  rcases move_cases h with ⟨w, rfl, rfl⟩ | ⟨op, rfl, rfl⟩ | ⟨rfl, rfl⟩ | ⟨i, rfl⟩
  · exact absurd rfl hwritten
  · rw [State.progressUpdates, Operation.state_log] at hwritten
    exact absurd rfl hwritten
  · exact absurd rfl hwritten
  · obtain ⟨-, e, rest, -, hi, -⟩ := move_turn h
    rw [(task_of_self hi h).1, Errand.progressUpdates_perform] at hwritten ⊢
    cases e with
    | write id u =>
      by_cases hphase : u.phase = some .downloading
      · have hone : (Errand.write id u).progressUpdate = some (id, u) := if_pos hphase
        rw [hone]
        exact ⟨i, id, u, rest, rfl, hi, hphase, rfl, rfl⟩
      · have hnone : (Errand.write id u).progressUpdate = none := if_neg hphase
        rw [hnone] at hwritten
        exact absurd rfl hwritten
    | _ => exact absurd rfl hwritten

/-- **Progress writes are throttled.** In every run, however its tasks are interleaved:

* of every request that is there, the last percentage is less than a step ahead of the one that was
  entered, and the request has a lineage;
* if no report of progress that was taken in a lineage says more than a hundred per cent, then over
  all attempts of the lineage at most ten calls come to update the record for an entry in it;
* whenever progress is written, this is the next turn of such a call; the record says afterwards
  that the download is under way and how many bytes have come, and is otherwise as it was, unless
  the call to the store fails or the record is gone. The bytes are no more than the size, and for a
  size of 64 bits and a percentage of a hundred at most they are exactly what this percentage is of
  the size. -/
theorem progress_throttled (setup : Setup) (w : World) (moves : List CrewMove)
    (hrun : (fresh w).run setup moves = some c) :
    (∀ r, c.Has r → r.progress < r.persisted + 10 ∧
      ∃ told entries, Lineage setup w moves r told entries) ∧
    (∀ earlier r told entries, Lineage setup w earlier r told entries →
      (∀ report ∈ told, report.status = .inProgress → report.percent ≤ 100) →
        ∀ updates : Finset (List CrewMove),
          (∀ q ∈ updates, ∃ call : ProgressCall setup w q, call.heard ∈ entries ∧
            q ++ [.turn call.task] <+: moves) → updates.card ≤ 10) ∧
    ∀ m c', c.move setup m = some c' → c'.state.progressUpdates ≠ c.state.progressUpdates →
      ∃ (call : ProgressCall setup w moves) (bytes : Nat), m = .turn call.task ∧
        c'.state.progressUpdates =
          (call.report.id, { phase := some .downloading, downloadedSize := some bytes }) ::
            c.state.progressUpdates ∧
        c.state.world.TakesProgress c'.state.world call.report.id bytes ∧
        bytes ≤ call.record.size ∧
        (call.record.size < UInt64.size → call.report.percent ≤ 100 →
          bytes = call.record.size * call.report.percent / 100) := by
  refine ⟨fun r hr => ?_, fun earlier r told entries hlineage hpercent updates hupdates => ?_,
    fun m c' hmove hwritten => ?_⟩
  · obtain ⟨told, entries, hlineage⟩ := exists_lineage hrun hr
    exact ⟨hlineage.throttled, told, entries, hlineage⟩
  · obtain ⟨hsteps, hle⟩ := hlineage.entries_le fun report hreport hgoes =>
      hpercent report hreport (Status.eq_inProgress hgoes)
    have hcard : updates.card ≤ entries.length := card_le_of_leadsTo fun q hq => by
      obtain ⟨call, hheard, hmoves⟩ := hupdates q hq
      exact ⟨call.heard, hheard, call.leadsTo hmoves⟩
    unfold progressStep at hsteps
    omega
  · obtain ⟨i, id, u, rest, rfl, hi, -, hlog, hworld⟩ := writes_of_move hmove hwritten
    obtain ⟨call, rfl, rfl, rfl⟩ := progressCall hrun hi
    have htakes := c.state.world.takesProgress_update call.report.id
      (Update.bytesAt call.record.size call.report.percent)
    refine ⟨call, _, rfl, hlog, hworld ▸ htakes, Update.progress_le _ _, fun hsize hpercent => ?_⟩
    rw [Update.bytesAt_eq hsize, Nat.min_eq_left hpercent]

/-- A world with one attachment of a thousand bytes, which is to be forwarded. -/
def sizedWorld : World where
  records := .ofSeed
    { attachments := [{ id := 1, message := 10, account := 1, size := 1000, flags := .forward }] }

/-- A round hands the transfer over. -/
def takenUp : List CrewMove :=
  [.begin (.change { id := 1, message := 10, account := 1, size := 1000, flags := .forward }),
    .turn 0] ++ .begin .round :: List.replicate 9 (.turn 1)

/-- The transfer reports on its progress, and the task that takes the report is about to write it
down. -/
def reportedProgress : List CrewMove :=
  takenUp ++ .begin (.report ⟨0, 1, .inProgress, 12⟩) :: List.replicate 2 (.turn 2)

/-- Twelve per cent of a thousand bytes are entered: the record holds them afterwards. -/
theorem progress_throttled_twelve :
    ∃ c c' a, (fresh sizedWorld).run {} reportedProgress = some c ∧
      c.move {} (.turn 2) = some c' ∧ c.state.progressUpdates = [] ∧
        c'.state.progressUpdates =
          [(1, { phase := some .downloading, downloadedSize := some 120 })] ∧
        c.state.world.records.attachments.get? 1 = some a ∧
        (a.size, a.flags, a.phase, a.downloadedSize) = (1000, .forward, .idle, 0) ∧
        c'.state.world.records.attachments.get? 1 =
          some { a with phase := .downloading, downloadedSize := 120 } ∧
        ∃ call : ProgressCall {} sizedWorld reportedProgress, call.report.id = 1 := by
  obtain ⟨c, c', a, hrun, hmove, hbefore, hafter, ha, hfields, hpasses⟩ : ∃ c c' a,
      (fresh sizedWorld).run {} reportedProgress = some c ∧ c.move {} (.turn 2) = some c' ∧
        c.state.progressUpdates = [] ∧ c'.state.progressUpdates =
          [(1, { phase := some .downloading, downloadedSize := some 120 })] ∧
        c.state.world.records.attachments.get? 1 = some a ∧
        (a.size, a.flags, a.phase, a.downloadedSize) = (1000, .forward, .idle, 0) ∧
        c.state.world.fails .updateAttachment 1 = false :=
    ⟨_, _, _, rfl, rfl, rfl, rfl, rfl, rfl, rfl⟩
  obtain ⟨call, bytes, -, hlog, htakes, -⟩ :=
    (progress_throttled {} sizedWorld reportedProgress hrun).2.2 (.turn 2) c' hmove
      (by rw [hbefore, hafter]; decide)
  rw [hbefore, hafter] at hlog
  obtain ⟨hid, hupdate⟩ := Prod.mk.inj (List.cons.inj hlog).1
  obtain rfl : 120 = bytes := Option.some.inj (congrArg Update.downloadedSize hupdate)
  rw [← hid] at htakes
  have hstored := (htakes.record hpasses a ha).self
  exact ⟨c, c', a, hrun, hmove, hbefore, hafter, ha, hfields, hstored, call, hid.symm⟩

end Crew

end MailFetch

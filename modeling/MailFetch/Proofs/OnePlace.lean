import MailFetch.Proofs.OneInstance
import MailFetch.Proofs.Whereabouts
import Mathlib.Data.List.Nodup

/-! # Every request is in one place

Beside the two books there are the requests that the task in hand carries: those that its round has
set aside, and the one into whose end it looks. With operations one after another a request is in
one place only: carried once, waiting, or in flight (`Desk.Apart`). So nobody is at home and abroad
at the same time (`Desk.Apart.not_both`).

What comes after an errand in its task carries requests only while a report is dealt with
(`Errand.Trailing`); no report makes a new request. -/

namespace MailFetch

/-- Neither of the two books has a request for the attachment. -/
def State.Unbooked (s : State) (id : Int) : Prop :=
  s.scheduler.queue.contains id = false ∧ s.scheduler.flights.contains id = false

namespace Errand

variable {setup : Setup} {s : State} {e : Errand}

/-! ### What a task carries -/

/-- The attachments of the requests that an errand carries. -/
def inHand (e : Errand) : List Int := (e.aside ++ e.settling.toList).map (·.id)

theorem inHand_of_keeps {l : List Request} (h : e.aside = l) (hs : e.settling = none) :
    e.inHand = l.map (·.id) := by
  rw [inHand, h, hs, Option.toList_none, List.append_nil]

theorem mem_inHand_of_aside {r : Request} (h : r ∈ e.aside) : r.id ∈ e.inHand :=
  List.mem_map_of_mem (List.mem_append_left _ h)

theorem mem_inHand_of_settling {r : Request} (h : e.settling = some r) : r.id ∈ e.inHand :=
  List.mem_map_of_mem (List.mem_append_right _ (by rw [h]; exact List.mem_cons_self))

theorem mem_inHand {id : Int} (h : id ∈ e.inHand) :
    ∃ r, r.id = id ∧ (r ∈ e.aside ∨ e.settling = some r) := by
  obtain ⟨r, hr, rfl⟩ := List.mem_map.mp h
  refine ⟨r, rfl, (List.mem_append.mp hr).imp_right fun hr => ?_⟩
  cases hs : e.settling with
  | none =>
    rw [hs] at hr
    cases hr
  | some x =>
    rw [hs] at hr
    rw [List.mem_singleton.mp hr]

/-- No errand both keeps requests for later and looks into the end of one. -/
theorem aside_eq_nil_of_settling {r : Request} (h : e.settling = some r) : e.aside = [] := by
  cases e <;> first | rfl | cases h

/-- Whether an errand deals with a report. -/
def isReport : Errand → Bool
  | hear _ | recordProgress _ _ | write _ _ | settle _ _ | conclude _ _ | askParent _ _
  | expunge _ _ _ | close _ _ _ | sendIfComplete _ | sendMail _ | ring => true
  | _ => false

theorem Creates.not_isReport {id : Int} (h : e.Creates setup s id) : e.isReport = false := by
  cases e with
  | review _ | claim _ _ => rfl
  | _ => exact h.elim

/-- After an errand that deals with no report, a task carries nothing. -/
def Trailing : List Errand → Prop
  | [] => True
  | e :: rest => (e.isReport = false → ∀ x ∈ rest, x.inHand = []) ∧ Trailing rest

theorem Trailing.append {l rest : List Errand} (h : Trailing l) (hrest : Trailing rest)
    (hor : (∀ x ∈ l, x.isReport = true) ∨ ∀ x ∈ rest, x.inHand = []) : Trailing (l ++ rest) := by
  induction l with
  | nil => exact hrest
  | cons e l ih =>
    refine ⟨fun he x hx => ?_, ih h.2 (hor.imp_left fun hall x hx => hall x (.tail _ hx))⟩
    rcases List.mem_append.mp hx with hx | hx
    · exact h.1 he x hx
    · rcases hor with hall | hnone
      · rw [hall e List.mem_cons_self] at he
        cases he
      · exact hnone x hx

theorem trailing_of_empty {l : List Errand} (h : ∀ x ∈ l, x.inHand = []) : Trailing l := by
  induction l with
  | nil => trivial
  | cons e l ih => exact ⟨fun _ x hx => h x (.tail _ hx), ih fun x hx => h x (.tail _ hx)⟩

/-- An errand that deals with a report leads to such errands only. -/
theorem Leads.isReport {l : List Errand} (hl : e.Leads l) (he : e.isReport = true) :
    ∀ x ∈ l, x.isReport = true := by
  cases e <;> grind [Leads, Errand.isReport]

theorem Leads.trailing {l : List Errand} (hl : e.Leads l) : Trailing l := by
  cases e with
  | handOver r onward =>
    obtain ⟨accepted, rfl | ⟨report, rfl⟩⟩ := hl
    · exact ⟨fun _ => List.forall_mem_nil _, trivial⟩
    · exact ⟨nofun, fun _ => List.forall_mem_nil _, trivial⟩
  | takeNext _ | screen _ _ | landed _ _ _ | settle _ _ | conclude _ _ | beginRound =>
    grind [Leads, Trailing]
  | _ =>
    refine trailing_of_empty fun x hx => ?_
    grind [Leads, LeadsOn, inHand, Errand.aside, Onward.aside, Errand.settling]

theorem Trailing.left {rest : List Errand} {t : Turn} (h : Trailing (e :: rest))
    (hl : e.Leads t.next) : Trailing (t.left rest) := by
  unfold Turn.left
  split_ifs
  · trivial
  · refine hl.trailing.append h.2 ?_
    cases he : e.isReport with
    | true => exact .inl (hl.isReport he)
    | false => exact .inr (h.1 he)

/-! ### What the next errands carry -/

/-- What a list of errands carries is carried once and has no entry in the books. -/
structure Carried (s : State) (l : List Errand) : Prop where
  distinct : (l.flatMap inHand).Nodup
  unbooked : ∀ id ∈ l.flatMap inHand, s.Unbooked id

theorem carried_of_empty {l : List Errand} (h : ∀ x ∈ l, x.inHand = []) : Carried s l := by
  have hnil : l.flatMap inHand = [] := List.flatMap_eq_nil_iff.mpr h
  exact ⟨by rw [hnil]; exact List.nodup_nil, by rw [hnil]; exact List.forall_mem_nil _⟩

theorem carried_singleton (hd : e.inHand.Nodup) (hu : ∀ id ∈ e.inHand, s.Unbooked id) :
    Carried s [e] := by
  have hself : [e].flatMap inHand = e.inHand := List.flatMap_singleton ..
  exact ⟨by rw [hself]; exact hd, by rw [hself]; exact hu⟩

theorem Carried.nodup (h : Carried s [e]) : e.inHand.Nodup := by
  have hd := h.distinct
  rwa [List.flatMap_singleton] at hd

theorem Carried.of_mem (h : Carried s [e]) {id : Int} (hid : id ∈ e.inHand) : s.Unbooked id :=
  h.unbooked id (by rwa [List.flatMap_singleton])

/-- Requests pass from one errand to the next, and the books stay without them. -/
theorem Carried.pass {s' : State} {x : Errand} (h : Carried s [e])
    (hsub : x.inHand.Subperm e.inHand)
    (hbooks : ∀ id ∈ x.inHand, s.Unbooked id → s'.Unbooked id) : Carried s' [x] := by
  obtain ⟨l, hperm, hl⟩ := hsub
  exact carried_singleton (hperm.nodup_iff.mp (h.nodup.sublist hl)) fun id hid =>
    hbooks id hid (h.of_mem (hl.subset (hperm.mem_iff.mpr hid)))

theorem carried_takeNext (h : s.InOrder setup) {aside : List Request}
    (hc : Carried s [takeNext aside]) :
    Carried (doTakeNext setup s aside).state (doTakeNext setup s aside).next := by
  have hkept : (takeNext aside).inHand = aside.map (·.id) := inHand_of_keeps rfl rfl
  unfold doTakeNext
  split_ifs
  · exact hc.pass (.refl _) fun _ _ hid => hid
  rcases Queue.pop_cases (Tidy.matched h) with ⟨hpop, -⟩ | ⟨r, q, hpop, -, hr, hget⟩
  · rw [hpop]
    exact hc.pass (.refl _) fun _ _ hid => hid
  rw [hpop]
  dsimp only
  obtain ⟨-, -, hq, hf⟩ := Tidy.pop h hpop
  -- Whoever leaves the queue was not yet carried.
  have hnew : r.id ∉ aside.map (·.id) := by
    intro hmem
    have hun := hc.of_mem (hkept ▸ hmem)
    rw [State.Unbooked, Queue.contains_iff.mpr ⟨r, hr⟩] at hun
    cases hun.1
  have hnodup : (r.id :: aside.map (·.id)).Nodup := List.nodup_cons.mpr ⟨hnew, hkept ▸ hc.nodup⟩
  have hbooks : ∀ id ∈ r.id :: aside.map (·.id),
      State.Unbooked { s with scheduler := { s.scheduler with queue := q } } id := by
    intro id hid
    rcases List.mem_cons.mp hid with rfl | hid
    · exact ⟨hq, hf⟩
    · have hun := hc.of_mem (hkept ▸ hid)
      refine ⟨?_, hun.2⟩
      rw [Queue.contains_eq_false_iff, hget]
      split_ifs
      · rfl
      · exact Queue.contains_eq_false_iff.mp hun.1
  split_ifs
  · have hscreen : (screen r aside).inHand = r.id :: aside.map (·.id) := inHand_of_keeps rfl rfl
    exact carried_singleton (hscreen ▸ hnodup) (hscreen ▸ hbooks)
  · have hperm : (takeNext (aside ++ [r])).inHand.Perm (r.id :: aside.map (·.id)) := by
      have hlater : (takeNext (aside ++ [r])).inHand = (aside ++ [r]).map (·.id) :=
        inHand_of_keeps rfl rfl
      rw [hlater, List.map_append]
      exact List.perm_append_singleton r.id _
    exact carried_singleton (hperm.nodup_iff.mpr hnodup) fun id hid =>
      hbooks id (hperm.mem_iff.mp hid)

theorem carried_screen {r : Request} {aside : List Request} (hc : Carried s [screen r aside]) :
    Carried (doScreen setup s r aside).state (doScreen setup s r aside).next := by
  have hscreen : (screen r aside).inHand = r.id :: aside.map (·.id) := inHand_of_keeps rfl rfl
  have hrest : ∀ x : Errand, x.aside = aside → x.settling = none →
      x.inHand.Subperm (screen r aside).inHand := by
    intro x hx hs
    rw [inHand_of_keeps hx hs, hscreen]
    exact (List.sublist_cons_self _ _).subperm
  have hall : ∀ x : Errand, x.aside = aside ++ [r] → x.settling = none →
      x.inHand.Subperm (screen r aside).inHand := by
    intro x hx hs
    rw [inHand_of_keeps hx hs, hscreen, List.map_append]
    exact (List.perm_append_singleton r.id _).subperm
  unfold doScreen
  split
  · exact hc.pass (hrest _ rfl rfl) fun _ _ hid => hid
  · exact hc.pass (hall _ rfl rfl) fun _ _ hid => hid
  · dsimp only
    split_ifs
    · exact hc.pass (hall _ rfl rfl) fun _ _ hid => hid
    · exact hc.pass (hall _ rfl rfl) fun _ _ hid => hid
    · -- The request is in flight from now on, and carried no more.
      refine hc.pass (hrest _ rfl rfl) fun id hid hun => ⟨hun.1, ?_⟩
      have hne : id ≠ r.id := by
        rintro rfl
        have hnodup := hc.nodup
        rw [hscreen, List.nodup_cons] at hnodup
        rw [inHand_of_keeps rfl rfl] at hid
        exact hnodup.1 hid
      rw [Flights.contains_eq_false_iff]
      exact (Flights.get?_insert _ _ _).trans
        ((if_neg hne).trans (Flights.contains_eq_false_iff.mp hun.2))

theorem carried_handOver {r : Request} {onward : Onward} (hc : Carried s [handOver r onward]) :
    Carried (doHandOver s r onward).state (doHandOver s r onward).next := by
  have hframe := frame_handOver s r onward
  have hpass : ∀ accepted, Carried (doHandOver s r onward).state [landed r accepted onward] := by
    intro accepted
    refine hc.pass (.refl _) fun id _ hun => ?_
    rw [State.Unbooked, hframe.queue rfl, hframe.flights rfl]
    exact hun
  obtain ⟨accepted, hnext | ⟨report, hnext⟩⟩ := leads_handOver s r onward
  · rw [hnext]
    exact hpass accepted
  · rw [hnext]
    exact ⟨(hpass accepted).1, (hpass accepted).2⟩

/-- Breaking a transfer off leaves those alone who are in neither book. -/
theorem unbooked_breakOff {id j : Int} (hfiled : s.scheduler.flights.Filed) (h : s.Unbooked j) :
    (s.breakOff setup id).Unbooked j := by
  rw [State.Unbooked, State.breakOff_scheduler]
  by_cases hj : j = id
  · have hnone : s.scheduler.flights.get? id = none := by
      rw [← hj]
      exact Flights.contains_eq_false_iff.mp h.2
    rw [Scheduler.breakOff_of_none _ _ _ hnone]
    exact h
  · constructor
    · rw [Queue.contains_eq_false_iff, Scheduler.get?_breakOff _ _ _ hfiled hj]
      exact Queue.contains_eq_false_iff.mp h.1
    · rw [Flights.contains_eq_false_iff, Option.eq_none_iff_forall_ne_some]
      intro x hx
      have hbefore := Scheduler.part_breakOff _ _ _ _ j x hx
      rw [Flights.contains_eq_false_iff.mp h.2] at hbefore
      cases hbefore

theorem carried_landed (hfiled : s.scheduler.flights.Filed) {r : Request} {accepted : Bool}
    {onward : Onward} (hc : Carried s [landed r accepted onward]) :
    Carried (doLanded setup s r accepted onward).state
      (doLanded setup s r accepted onward).next := by
  unfold doLanded
  cases onward with
  | done =>
    split_ifs
    all_goals exact carried_of_empty (List.forall_mem_nil _)
  | queue aside =>
    split_ifs
    · exact hc.pass (.refl _) fun _ _ hid => hid
    · exact hc.pass (.refl _) fun _ _ hid => unbooked_breakOff hfiled hid

theorem carried_settle (hfiled : s.scheduler.flights.Filed) (id : Int) (status : Status) :
    Carried (doSettle setup s id status).state (doSettle setup s id status).next := by
  unfold doSettle
  split
  · exact carried_of_empty (List.forall_mem_nil _)
  next r hr =>
    dsimp only
    split_ifs
    · split <;> exact carried_of_empty (List.forall_mem_nil _)
    · refine carried_singleton (List.nodup_singleton _) fun j hj => ?_
      have hj' : j = id := (List.mem_singleton.mp hj).trans (hfiled id r hr)
      constructor
      · rw [Queue.contains_eq_false_iff]
        exact (Queue.get?_drop _ id j).trans (if_pos hj')
      · rw [Flights.contains_eq_false_iff]
        exact (Flights.get?_erase _ id j).trans (if_pos hj')

theorem carried_conclude {r : Request} {status : Status} (hc : Carried s [conclude r status]) :
    Carried (doConclude s r status).state (doConclude s r status).next := by
  unfold doConclude
  split
  · exact carried_of_empty (List.forall_mem_nil _)
  · split_ifs
    · exact hc.pass (.refl _) fun _ _ hid => hid
    · exact carried_of_empty (by simp [inHand, Errand.aside, Errand.settling])
    · exact carried_of_empty (by simp [inHand, Errand.aside, Errand.settling])

/-- **What an errand leads to** carries requests once, and none that has an entry in the books, if
this was so of the errand. -/
theorem perform_carried (h : s.InOrder setup) (hc : Carried s [e]) :
    Carried (e.perform setup s).state (e.perform setup s).next := by
  have hl := perform_leads setup s e
  cases e with
  | takeNext aside => exact carried_takeNext h hc
  | screen r aside => exact carried_screen hc
  | handOver r onward => exact carried_handOver hc
  | landed r accepted onward => exact carried_landed (Tidy.filed h) hc
  | settle id status => exact carried_settle (Tidy.filed h) id status
  | conclude r status => exact carried_conclude hc
  | _ =>
    refine carried_of_empty fun x hx => ?_
    grind [Leads, LeadsOn, inHand, Errand.aside, Onward.aside, Errand.settling]

/-! ### What is carried behind -/

variable {rest : List Errand} {id : Int}

/-- What is carried behind an errand is neither at home nor abroad in the books or with the errand
itself. -/
theorem not_atHome_of_carried {r : Request} (hc : Carried s (e :: rest))
    (hr : r.id ∈ rest.flatMap inHand) : ¬ s.AtHome [e] r := by
  obtain ⟨-, -, hdisjoint⟩ := List.nodup_append'.mp (List.flatMap_cons ▸ hc.distinct)
  rintro (hwaits | ⟨x, hx, hmem⟩)
  · have hun := (hc.unbooked r.id (List.mem_append_right _ hr)).1
    rw [Queue.contains_iff.mpr ⟨r, hwaits⟩] at hun
    cases hun
  · rw [List.mem_singleton.mp hx] at hmem
    exact hdisjoint (mem_inHand_of_aside hmem) hr

theorem not_abroad_of_carried {r : Request} (hc : Carried s (e :: rest))
    (hr : r.id ∈ rest.flatMap inHand) : ¬ s.Abroad [e] r := by
  obtain ⟨-, -, hdisjoint⟩ := List.nodup_append'.mp (List.flatMap_cons ▸ hc.distinct)
  rintro (hflies | ⟨x, hx, hsettling⟩)
  · have hun := (hc.unbooked r.id (List.mem_append_right _ hr)).2
    rw [Flights.contains_iff.mpr ⟨r, hflies⟩] at hun
    cases hun
  · rw [List.mem_singleton.mp hx] at hsettling
    exact hdisjoint (mem_inHand_of_settling hsettling) hr

/-- **A turn brings nobody to a second place**: neither into the books nor into the next errands
comes whoever is carried behind. -/
theorem not_live_of_carried (h : s.InOrder setup) (hc : Carried s (e :: rest))
    (ht : Trailing (e :: rest)) {r : Request} (hr : r.id ∈ rest.flatMap inHand) :
    ¬ (e.perform setup s).state.AtHome (e.perform setup s).next r ∧
      ¬ (e.perform setup s).state.Abroad (e.perform setup s).next r := by
  have hfiled := Tidy.filed h
  have hnew : ¬ e.Creates setup s r.id := by
    intro hcreates
    have hnone := List.flatMap_eq_nil_iff.mpr (ht.1 hcreates.not_isReport)
    rw [hnone] at hr
    cases hr
  have hhome : ∀ x : Request, x.id = r.id → ¬ s.AtHome [e] x := fun x hx =>
    not_atHome_of_carried hc (hx.symm ▸ hr)
  have habroad : ∀ x : Request, x.id = r.id → ¬ s.Abroad [e] x := fun x hx =>
    not_abroad_of_carried hc (hx.symm ▸ hr)
  constructor
  · intro hafter
    rcases perform_atHome (Tidy.matched h) hfiled hafter with hbefore | hback | hcreates
    · exact hhome r rfl hbefore
    · obtain ⟨r₀, hr₀, hid, -⟩ := hback
      exact habroad r₀ hid.symm (hr₀.abroad hfiled)
    · exact hnew hcreates.1
  · intro hafter
    rcases perform_abroad hfiled hafter with ⟨r₀, hbefore, hid, -⟩ | ⟨onward, hnext⟩
    · exact habroad r₀ hid hbefore
    · rcases taken_perform hnext with ⟨r₀, hkept, hid, -⟩ | hcreates
      · exact hhome r₀ hid (.inr ⟨e, List.mem_singleton_self e, hkept⟩)
      · exact hnew hcreates.1

/-- **After a turn every request that is carried** is carried once, and has no entry in the
books. -/
theorem Carried.left (hbooks : (e.perform setup s).state.InOrder setup) (h : s.InOrder setup)
    (hc : Carried s (e :: rest)) (ht : Trailing (e :: rest)) :
    Carried (e.perform setup s).state ((e.perform setup s).left rest) := by
  obtain ⟨hself, hrest, hdisjoint⟩ := List.nodup_append'.mp (List.flatMap_cons ▸ hc.distinct)
  have hnext := perform_carried h (carried_singleton hself fun id hid =>
    hc.unbooked id (List.mem_append_left _ hid))
  have hout : ∀ id ∈ rest.flatMap inHand, ∀ x : Request, x.id = id →
      ¬ (e.perform setup s).state.AtHome (e.perform setup s).next x ∧
        ¬ (e.perform setup s).state.Abroad (e.perform setup s).next x := by
    rintro id hid x rfl
    exact not_live_of_carried h hc ht hid
  unfold Turn.left
  split_ifs
  · exact carried_of_empty (List.forall_mem_nil _)
  · constructor
    · rw [List.flatMap_append]
      refine List.nodup_append'.mpr ⟨hnext.distinct, hrest, fun id hid hid' => ?_⟩
      obtain ⟨x, hx, hmem⟩ := List.mem_flatMap.mp hid
      obtain ⟨r, hr, haside | hsettling⟩ := mem_inHand hmem
      · exact (hout id hid' r hr).1 (.inr ⟨x, hx, haside⟩)
      · exact (hout id hid' r hr).2 (.inr ⟨x, hx, hsettling⟩)
    · intro id hid
      rw [List.flatMap_append] at hid
      rcases List.mem_append.mp hid with hid | hid
      · exact hnext.unbooked id hid
      · constructor
        · by_contra hwaits
          obtain ⟨r, hr⟩ := Queue.contains_iff.mp (by simpa using hwaits)
          obtain ⟨rfl, -, -⟩ := (Tidy.matched hbooks).listed _ _ hr
          exact (hout r.id hid r rfl).1 (.inl hr)
        · by_contra hflies
          obtain ⟨r, hr⟩ := Flights.contains_iff.mp (by simpa using hflies)
          obtain rfl := Tidy.filed hbooks _ _ hr
          exact (hout r.id hid r rfl).2 (.inl hr)

end Errand

namespace Desk

variable {setup : Setup} {d d' : Desk}

/-- **Every request is in one place**: whoever is carried is so once, and has no entry in the books;
and nothing is carried behind an errand that deals with no report. -/
structure Apart (d : Desk) : Prop where
  trailing : Errand.Trailing d.task
  carried : Errand.Carried d.state d.task

theorem apart_fresh (w : World) : (fresh w).Apart :=
  ⟨trivial, Errand.carried_of_empty (List.forall_mem_nil _)⟩

theorem apart_move {m : Move} (hd : d.Sound setup ∧ d.Clear) (ha : d.Apart)
    (h : d.move setup m = some d') : d'.Apart := by
  have hd' := (sound_clear_move hd h).1
  rcases move_cases h with ⟨w, rfl, -, rfl⟩ | ⟨op, rfl, -, rfl⟩ | ⟨e, rest, rfl, ht, rfl⟩
  · exact ⟨ha.trailing, ha.carried.1, ha.carried.2⟩
  · have hempty : ∀ x ∈ op.errands d.state, x.inHand = [] := by
      intro x hx
      have hfirst := Operation.isFirst_of_mem_errands hx
      cases x <;> first | rfl | cases hfirst
    exact ⟨Errand.trailing_of_empty hempty, Errand.carried_of_empty hempty⟩
  · obtain ⟨htrailing, hcarried⟩ := ha
    rw [ht] at htrailing hcarried
    exact ⟨htrailing.left (Errand.perform_leads setup d.state e),
      hcarried.left hd'.books hd.1.books htrailing⟩

/-- **Nobody is at home and abroad.** -/
theorem Apart.not_both (ha : d.Apart) (hd : d.Sound setup) {r r' : Request} (hid : r.id = r'.id)
    (hhome : d.state.AtHome d.task r) (habroad : d.state.Abroad d.task r') : False := by
  rcases hhome with hwaits | ⟨x, hx, haside⟩
  · have hin : d.state.scheduler.queue.contains r.id = true := Queue.contains_iff.mpr ⟨r, hwaits⟩
    rcases habroad with hflies | ⟨y, hy, hsettling⟩
    · have hout := Tidy.apart hd.books r.id hin
      rw [hid, Flights.contains_iff.mpr ⟨r', hflies⟩] at hout
      cases hout
    · have hout := (ha.carried.unbooked r'.id
        (List.mem_flatMap.mpr ⟨y, hy, Errand.mem_inHand_of_settling hsettling⟩)).1
      rw [← hid, hin] at hout
      cases hout
  · have hmem := Errand.mem_inHand_of_aside haside
    rcases habroad with hflies | ⟨y, hy, hsettling⟩
    · have hout := (ha.carried.unbooked r.id (List.mem_flatMap.mpr ⟨x, hx, hmem⟩)).2
      rw [hid, Flights.contains_iff.mpr ⟨r', hflies⟩] at hout
      cases hout
    · have hne : x ≠ y := by
        rintro rfl
        rw [Errand.aside_eq_nil_of_settling hsettling] at haside
        cases haside
      have hsymm : Std.Symm (Function.onFun List.Disjoint Errand.inHand) :=
        ⟨fun _ _ h _ hy hx => h hx hy⟩
      have hdisjoint := (List.nodup_flatMap.mp ha.carried.distinct).2.forall hx hy hne
      exact hdisjoint hmem (hid ▸ Errand.mem_inHand_of_settling hsettling)

end Desk

end MailFetch

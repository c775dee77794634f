import MailFetch.Proofs.OneInstance

/-! # Reports that wait while other operations go on

A report that ends a transfer takes its request out of the air at once, and then has to look up
records. An `Office` is a desk at which such reports may be laid aside while they wait: any other
operation may begin and be done meanwhile, and a report that was laid aside is taken up again when
nothing else is in hand.

While a report waits, its attachment is neither in the queue nor in flight, and may be asked for
once more. So the report may put a request back of which another instance is in flight by now: the
errand collides.

* `Office.one_instance_iff`: an attachment is wanted at most once at a time throughout a run exactly
  if no errand of the run collides.
* `Office.two_instances`: a run on which one does. -/

namespace MailFetch

/-! ### The office -/

/-- Whether an errand belongs to a report that has nothing more to do with its request in flight. -/
def Errand.isLookUp : Errand → Bool
  | .recordProgress _ _ | .write _ _ | .conclude _ _ | .askParent _ _ | .expunge _ _ _
  | .close _ _ _ | .sendIfComplete _ | .sendMail _ | .ring => true
  | _ => false

/-- **A desk with reports laid aside**, each with the errand that is left of it. -/
structure Office where
  desk : Desk
  waiting : List Errand := []
deriving DecidableEq

/-- What happens next in an office. -/
inductive OfficeMove
  /-- A move at the desk. -/
  | desk (m : Move)
  /-- The report in hand is laid aside. -/
  | park
  /-- A report is taken up again. -/
  | resume (i : Nat)
deriving DecidableEq

namespace Office

/-- An office over a world. -/
def fresh (w : World) : Office := ⟨.fresh w, []⟩

/-- **One move of an office.** A report may be laid aside between two of its errands, and is taken
up again only when nothing else is in hand. -/
def move (setup : Setup) (o : Office) : OfficeMove → Option Office
  | .desk m => (o.desk.move setup m).map fun d => { o with desk := d }
  | .park =>
    match o.desk.task with
    | [e] => if e.isLookUp then some ⟨⟨o.desk.state, []⟩, o.waiting ++ [e]⟩ else none
    | _ => none
  | .resume i =>
    match o.desk.task, o.waiting[i]? with
    | [], some e => some ⟨⟨o.desk.state, [e]⟩, o.waiting.eraseIdx i⟩
    | _, _ => none

/-- What a run of moves leads to. -/
def run (setup : Setup) : Office → List OfficeMove → Option Office := follow (move setup)

variable {setup : Setup} {o o' : Office}

/-- **What a move of an office can be.** -/
theorem move_cases {m : OfficeMove} (h : o.move setup m = some o') :
    (∃ n d, m = .desk n ∧ o.desk.move setup n = some d ∧ o' = ⟨d, o.waiting⟩) ∨
      (∃ e, m = .park ∧ o.desk.task = [e] ∧ e.isLookUp = true ∧
        o' = ⟨⟨o.desk.state, []⟩, o.waiting ++ [e]⟩) ∨
      ∃ i e, m = .resume i ∧ o.desk.task = [] ∧ e ∈ o.waiting ∧
        o' = ⟨⟨o.desk.state, [e]⟩, o.waiting.eraseIdx i⟩ := by
  cases m with
  | desk n =>
    obtain ⟨d, hd, ho⟩ := Option.map_eq_some_iff.mp h
    exact .inl ⟨n, d, rfl, hd, ho.symm⟩
  | park =>
    unfold move at h
    dsimp only at h
    split at h
    next e ht =>
      split_ifs at h with he
      exact .inr (.inl ⟨e, rfl, ht, he, (Option.some.inj h).symm⟩)
    · cases h
  | resume i =>
    unfold move at h
    dsimp only at h
    split at h
    next e ht hi =>
      exact .inr (.inr ⟨i, e, rfl, ht, List.mem_of_getElem? hi, (Option.some.inj h).symm⟩)
    · cases h

/-! ### Runs without a collision -/

/-- The books are in order, the task in hand has what it needs, and so have the reports that
wait. -/
structure Sound (setup : Setup) (o : Office) : Prop where
  desk : o.desk.Sound setup
  waiting : ∀ e ∈ o.waiting, e.Standing setup o.desk.state

theorem sound_fresh (setup : Setup) (w : World) : (fresh w).Sound setup :=
  ⟨Desk.sound_fresh setup w, List.forall_mem_nil _⟩

/-- A report that waits needs nothing which may be lost meanwhile. -/
theorem standing_of_isLookUp {s : State} {e : Errand} (he : e.isLookUp = true)
    (h : e.Ready setup s) : e.Standing setup s := by
  intro t hle
  cases e with
  | conclude _ _ | askParent _ _ => exact ⟨h.1, h.2.later hle⟩
  | recordProgress _ _ | write _ _ | expunge _ _ _ | close _ _ _ | sendIfComplete _ | sendMail _
  | ring => trivial
  | _ => cases he

/-- A move that is not the turn of an errand which collides. -/
def Calm (setup : Setup) (o : Office) (m : OfficeMove) : Prop :=
  m = .desk .turn → ¬ o.desk.Collides setup

theorem sound_move {m : OfficeMove} (ho : o.Sound setup) (hcalm : o.Calm setup m)
    (h : o.move setup m = some o') : o'.Sound setup := by
  rcases move_cases h with ⟨n, d, rfl, hd, rfl⟩ | ⟨e, rfl, ht, he, rfl⟩ | ⟨i, e, rfl, ht, he, rfl⟩
  · refine ⟨Desk.sound_move ho.desk (fun hn => hcalm (by rw [hn])) hd, fun x hx t ht => ?_⟩
    exact ho.waiting x hx t (Nat.le_trans (Desk.now_le_of_move hd) ht)
  · have hready := ho.desk.ready
    rw [ht] at hready
    refine ⟨⟨ho.desk.books, trivial⟩, fun x hx => ?_⟩
    rcases List.mem_append.mp hx with hx | hx
    · exact ho.waiting x hx
    · rw [List.mem_singleton.mp hx]
      exact standing_of_isLookUp he hready.1
  · have hstanding := ho.waiting e he
    refine ⟨⟨ho.desk.books, Errand.inLine_singleton (hstanding _ (Nat.le_refl _))⟩, fun x hx => ?_⟩
    exact ho.waiting x (List.mem_of_mem_eraseIdx hx)

/-- Between two moves the carrier is still to be asked, or nothing of the attachment is in
flight. -/
theorem calls_or_grounded {id : Int} {m : OfficeMove} (ho : o.Sound setup)
    (h : o.move setup m = some o') (hcalls : o'.desk.Calls id) :
    o.desk.Calls id ∨ o.desk.state.scheduler.flights.contains id = false := by
  rcases move_cases h with ⟨n, d, rfl, hd, rfl⟩ | ⟨e, rfl, -, -, rfl⟩ | ⟨i, e, rfl, -, he, rfl⟩
  · exact Desk.calls_or_grounded ho.desk hd hcalls
  · obtain ⟨r, onward, rest, ht, -⟩ := hcalls
    cases ht
  · -- A request is not handed over by a report that waited.
    obtain ⟨r, onward, rest, ht, -⟩ := hcalls
    obtain ⟨rfl, -⟩ : e = .handOver r onward ∧ [] = rest := by simpa using ht
    have hflying : Flights.empty.contains r.id = true :=
      (ho.waiting _ he { o.desk.state with scheduler := {} } (Nat.le_refl _)).1
    cases hflying

theorem not_calls_of_turn {id : Int} (ho : o.Sound setup) (hcalls : o.desk.Calls id)
    (h : o.move setup (.desk .turn) = some o') : ¬ o'.desk.Calls id := by
  obtain ⟨d, hd, rfl⟩ := Option.map_eq_some_iff.mp h
  exact Desk.not_calls_of_turn ho.desk hcalls hd

/-! ### The two ways to want an attachment twice -/

/-- No attachment is both in the queue and in flight. -/
def Apart (o : Office) : Prop :=
  ∀ id, ¬ (o.desk.state.scheduler.queue.contains id = true ∧
    o.desk.state.scheduler.flights.contains id = true)

theorem Sound.apart (h : o.Sound setup) : o.Apart := by
  intro id hboth
  rw [Tidy.apart h.desk.books id hboth.1] at hboth
  cases hboth.2

theorem sound_run {w : World} {moves : List OfficeMove}
    (hcalm : Throughout (move setup) (Calm setup) (fresh w) moves)
    (h : (fresh w).run setup moves = some o) : o.Sound setup :=
  follow_keeps_of (fun _ _ _ => sound_move) (sound_fresh setup w) hcalm h

theorem turn_of_collides (hc : o.desk.Collides setup) :
    ∃ o', o.move setup (.desk .turn) = some o' := by
  obtain ⟨e, rest, ht, -⟩ := hc
  simp only [move, Desk.move, ht]
  exact ⟨_, rfl⟩

/-- **Whoever collides wants an attachment twice**: it is in the queue and in flight. -/
theorem not_apart_of_collides (hc : o.desk.Collides setup)
    (h : o.move setup (.desk .turn) = some o') : ¬ o'.Apart := by
  obtain ⟨d, hd, rfl⟩ := Option.map_eq_some_iff.mp h
  obtain ⟨e, rest, ht, rfl⟩ := Desk.move_turn hd
  obtain ⟨e', rest', ht', hcollides⟩ := hc
  obtain ⟨rfl, -⟩ : e = e' ∧ rest = rest' := by simpa using ht.symm.trans ht'
  cases e with
  | askParent r record =>
    obtain ⟨hf, hpos, hle, m, hm⟩ := hcollides
    have hstate : ((Errand.askParent r record).perform setup o.desk.state).state =
        (o.desk.state.requeue setup r).ring := by
      simp [Errand.perform, Errand.doAskParent, hm]
    intro hapart
    refine hapart r.id ⟨?_, ?_⟩
    · dsimp only
      rw [hstate, State.ring_queue, State.requeue_scheduler]
      unfold Scheduler.requeue
      dsimp only
      rw [if_neg (UInt32.not_lt.mpr hle)]
      exact (Queue.contains_push _ _ _).mpr (.inr ⟨rfl, hpos⟩)
    · dsimp only
      rw [hstate, State.ring_flights, State.requeue_scheduler, Scheduler.requeue_eq]
      exact hf
  | _ => exact hcollides.elim

/-- **Nothing is wanted twice exactly if nothing collides.** On the one side: in every state on the
way no attachment is both in the queue and in flight, and between two moments at which the carrier
is asked for a transfer of an attachment there is one at which nothing of this attachment is in
flight. On the other: no report puts back a request that has retries left while another instance of
it is in flight. -/
theorem one_instance_iff (setup : Setup) (w : World) (moves : List OfficeMove) :
    ((∀ earlier o₁, earlier <+: moves → (fresh w).run setup earlier = some o₁ → o₁.Apart) ∧
        ∀ earlier later o₀ o₁ id, earlier ++ .desk .turn :: later <+: moves →
          (fresh w).run setup earlier = some o₀ → o₀.desk.Calls id →
          (fresh w).run setup (earlier ++ .desk .turn :: later) = some o₁ → o₁.desk.Calls id →
            ∃ between o₂, between <+: later ∧
              (fresh w).run setup (earlier ++ .desk .turn :: between) = some o₂ ∧
              o₂.desk.state.scheduler.flights.contains id = false) ↔
      Throughout (move setup) (Calm setup) (fresh w) moves := by
  constructor
  · rintro ⟨hapart, -⟩ earlier m later o hmoves ho rfl hcollides
    obtain ⟨o', hturn⟩ := turn_of_collides hcollides
    refine not_apart_of_collides hcollides hturn (hapart (earlier ++ [.desk .turn]) o' ?_ ?_)
    · exact ⟨later, by rw [hmoves, List.append_assoc, List.singleton_append]⟩
    · rw [run, follow_append ho, follow_cons hturn]
      rfl
  · intro hcalm
    constructor
    · intro earlier o₁ hpre h₁
      obtain ⟨rest, rfl⟩ := hpre
      exact (sound_run (throughout_append h₁ hcalm).1 h₁).apart
    · intro earlier later o₀ o₁ id hpre h₀ hcalls₀ h₁ hcalls₁
      obtain ⟨rest, rfl⟩ := hpre
      exact passes_between (fun _ _ _ => sound_move) (fun _ _ _ => calls_or_grounded)
        (fun _ _ => not_calls_of_turn) (sound_fresh setup w) (throughout_append h₁ hcalm).1 h₀
        hcalls₀ h₁ hcalls₁

/-- The record that is asked for twice. -/
def wished : Attachment where
  id := 1
  message := 10
  account := 1
  flags := .forward

def wishedWorld : World where
  records := .ofSeed { messages := [{ id := 10, account := 1 }], attachments := [wished] }

/-- A scheduler that lets two downloads of one account be in flight. -/
def roomySetup : Setup := { settings := { maxPerAccount := 2 } }

/-- The record is asked for, and a round takes its request off. -/
def wishedOnce : List OfficeMove :=
  [.desk (.begin (.change wished)), .desk .turn] ++
    .desk (.begin .round) :: List.replicate 9 (.desk .turn)

/-- A report that did not find the message waits for the look-up of the message, while the record is
asked for once more; then the look-up finds the message. -/
def wishedTwice : List OfficeMove :=
  wishedOnce ++ .desk (.begin (.report ⟨10, 1, .messageNotFound, 0⟩)) ::
    List.replicate 3 (.desk .turn) ++ .park :: wishedOnce ++ [.resume 0, .desk .turn]

/-- From there on, a round up to the moment at which it asks the carrier. -/
def askedTwice : List OfficeMove :=
  wishedTwice ++ .desk (.begin .round) :: List.replicate 3 (.desk .turn)

/-- **Two instances of one download.** The attachment is in the queue and in flight at once; and the
next round asks the carrier for its transfer although it is still in flight from the round before,
after which it was in flight all the time. -/
theorem two_instances :
    (∃ o, (fresh wishedWorld).run roomySetup wishedTwice = some o ∧
      o.desk.state.scheduler.queue.contains 1 = true ∧
      o.desk.state.scheduler.flights.contains 1 = true) ∧
    ∃ o₀ o₁, (fresh wishedWorld).run roomySetup (askedTwice.take 23) = some o₀ ∧
      o₀.desk.Calls 1 ∧ (fresh wishedWorld).run roomySetup askedTwice = some o₁ ∧
      o₁.desk.Calls 1 ∧
      ∀ n < askedTwice.length - 23, ((fresh wishedWorld).run roomySetup
        (askedTwice.take (23 + n))).any (·.desk.state.scheduler.flights.contains 1) = true := by
  refine ⟨⟨_, rfl, rfl, rfl⟩, ?_⟩
  have hfirst : Desk.Calls
      (((fresh wishedWorld).run roomySetup (askedTwice.take 23)).getD (fresh {})).desk 1 :=
    ⟨_, _, _, rfl, rfl⟩
  have hsecond : Desk.Calls
      (((fresh wishedWorld).run roomySetup askedTwice).getD (fresh {})).desk 1 :=
    ⟨_, _, _, rfl, rfl⟩
  exact ⟨_, _, rfl, hfirst, rfl, hsecond, by decide +kernel⟩

end Office

end MailFetch

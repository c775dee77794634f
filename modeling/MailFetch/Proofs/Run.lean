import Mathlib.Data.List.Induction
import Mathlib.Tactic.Common

/-! # Runs of moves

A system is given by what a move makes of a state, if the move can be made. A run is a list of moves
that can be made one after another.

* `follow_keeps`: what every move keeps, every run keeps. `follow_keeps_of` asks this only of the
  moves that have some property, if all moves of the run have it.
* `broken_by_move`: what a run does not keep, a move of it breaks. `broken_after`: if such a move
  can only be made after another one, that one has been made, too.
* `last_or_throughout`: a run has a last move of a kind, or none.
* `held_or_arose`: what holds at the end held at the beginning, or a move brought it about.
* `holds_or_since`: what every move keeps but for those of a kind holds at the end, or one of these
  moves was made and something has lasted since that goes with it.
* `passes_between`: if a condition can come about only where another one holds, then between two
  moments at which it comes about there is one at which the other holds.
* `recorded` is what the moves of a run put on record, the latest first. `follow_records`: what
  every move keeps of the state and the record before it, every run keeps. -/

namespace MailFetch

/-- What a list of moves leads to, unless one of them cannot be made. -/
def follow {σ μ : Type} (move : σ → μ → Option σ) : σ → List μ → Option σ
  | s, [] => some s
  | s, m :: rest =>
    match move s m with
    | some s' => follow move s' rest
    | none => none

/-- Before every move of a run, something holds of the state and the move. -/
def Throughout {σ μ : Type} (move : σ → μ → Option σ) (Q : σ → μ → Prop) (s : σ) (ms : List μ) :
    Prop :=
  ∀ earlier m later t, ms = earlier ++ m :: later → follow move s earlier = some t → Q t m

section Follow

variable {σ μ : Type} {move : σ → μ → Option σ} {P : σ → Prop} {Q : σ → μ → Prop}

theorem follow_cons {s s' : σ} {m : μ} {rest : List μ} (h : move s m = some s') :
    follow move s (m :: rest) = follow move s' rest := by
  simp only [follow, h]

theorem follow_cons_eq_some {s t : σ} {m : μ} {rest : List μ}
    (h : follow move s (m :: rest) = some t) :
    ∃ s', move s m = some s' ∧ follow move s' rest = some t := by
  cases hm : move s m with
  | none => simp [follow, hm] at h
  | some s' => exact ⟨s', rfl, by rw [← follow_cons hm]; exact h⟩

theorem follow_append {s t : σ} {ms rest : List μ} (h : follow move s ms = some t) :
    follow move s (ms ++ rest) = follow move t rest := by
  induction ms generalizing s with
  | nil =>
    obtain rfl := Option.some.inj h
    rfl
  | cons m ms ih =>
    obtain ⟨s', hm, hms⟩ := follow_cons_eq_some h
    rw [List.cons_append, follow_cons hm]
    exact ih hms

theorem follow_append_eq_some {s t : σ} {ms rest : List μ}
    (h : follow move s (ms ++ rest) = some t) :
    ∃ u, follow move s ms = some u ∧ follow move u rest = some t := by
  induction ms generalizing s with
  | nil => exact ⟨s, rfl, h⟩
  | cons m ms ih =>
    obtain ⟨s', hm, hms⟩ := follow_cons_eq_some h
    obtain ⟨u, hu, hrest⟩ := ih hms
    exact ⟨u, (follow_cons hm).trans hu, hrest⟩

/-! ### Along a run -/

theorem throughout_nil (s : σ) : Throughout move Q s [] := by
  intro earlier m later _ hnil
  simp at hnil

theorem throughout_cons {s s' : σ} {m : μ} {rest : List μ} (hm : move s m = some s')
    (h : Throughout move Q s (m :: rest)) : Q s m ∧ Throughout move Q s' rest := by
  refine ⟨h [] m rest s rfl rfl, fun earlier n later t hrest ht => ?_⟩
  refine h (m :: earlier) n later t ?_ ?_
  · rw [hrest, List.cons_append]
  · rw [follow_cons hm]
    exact ht

/-- A move that cannot be made is the last one that matters. -/
theorem throughout_cons_of_none {s : σ} {m : μ} {rest : List μ} (hm : move s m = none)
    (hq : Q s m) : Throughout move Q s (m :: rest) := by
  intro earlier n later t hms ht
  cases earlier with
  | nil =>
    obtain ⟨rfl, -⟩ := List.cons.inj hms
    obtain rfl := Option.some.inj ht
    exact hq
  | cons m' earlier =>
    obtain ⟨rfl, -⟩ := List.cons.inj hms
    simp [follow, hm] at ht

theorem throughout_append {s t : σ} {ms rest : List μ} (h : follow move s ms = some t)
    (hQ : Throughout move Q s (ms ++ rest)) :
    Throughout move Q s ms ∧ Throughout move Q t rest := by
  constructor
  · intro earlier m later u hms hu
    exact hQ earlier m (later ++ rest) u (by rw [hms, List.append_assoc, List.cons_append]) hu
  · intro earlier m later u hrest hu
    refine hQ (ms ++ earlier) m later u (by rw [hrest, List.append_assoc]) ?_
    rw [follow_append h]
    exact hu

theorem throughout_cons_of {s s' : σ} {m : μ} {rest : List μ} (hq : Q s m)
    (hm : move s m = some s') (h : Throughout move Q s' rest) :
    Throughout move Q s (m :: rest) := by
  intro earlier n later t hms ht
  cases earlier with
  | nil =>
    obtain ⟨rfl, -⟩ := List.cons.inj hms
    obtain rfl := Option.some.inj ht
    exact hq
  | cons m' earlier =>
    obtain ⟨rfl, hrest⟩ := List.cons.inj hms
    rw [follow_cons hm] at ht
    exact h earlier n later t hrest ht

theorem throughout_append_of {s t : σ} {ms rest : List μ} (h : follow move s ms = some t)
    (hms : Throughout move Q s ms) (hrest : Throughout move Q t rest) :
    Throughout move Q s (ms ++ rest) := by
  induction ms generalizing s with
  | nil =>
    obtain rfl := Option.some.inj h
    exact hrest
  | cons m ms ih =>
    obtain ⟨s', hm, hfollow⟩ := follow_cons_eq_some h
    obtain ⟨hq, hms'⟩ := throughout_cons hm hms
    exact throughout_cons_of hq hm (ih hfollow hms')

/-- What can be decided before every move can be decided along a run. -/
instance decidableThroughout [∀ s m, Decidable (Q s m)] :
    ∀ (s : σ) (ms : List μ), Decidable (Throughout move Q s ms)
  | s, [] => isTrue (throughout_nil s)
  | s, m :: rest =>
    if hq : Q s m then
      match hm : move s m with
      | none => isTrue (throughout_cons_of_none hm hq)
      | some s' =>
        match decidableThroughout s' rest with
        | isTrue h => isTrue (throughout_cons_of hq hm h)
        | isFalse h => isFalse fun hall => h (throughout_cons hm hall).2
    else isFalse fun hall => hq (hall [] m rest s rfl rfl)

/-- What every move of a kind keeps, every run of such moves keeps. -/
theorem follow_keeps_of (hmove : ∀ s m s', P s → Q s m → move s m = some s' → P s') {s t : σ}
    {ms : List μ} (hs : P s) (hQ : Throughout move Q s ms) (h : follow move s ms = some t) :
    P t := by
  induction ms generalizing s with
  | nil =>
    obtain rfl := Option.some.inj h
    exact hs
  | cons m rest ih =>
    obtain ⟨s', hm, hrest⟩ := follow_cons_eq_some h
    obtain ⟨hq, hQrest⟩ := throughout_cons hm hQ
    exact ih (hmove s m s' hs hq hm) hQrest hrest

/-- **What every move keeps, every run keeps.** -/
theorem follow_keeps (hmove : ∀ s m s', P s → move s m = some s' → P s') {s t : σ} {ms : List μ}
    (hs : P s) (h : follow move s ms = some t) : P t :=
  follow_keeps_of (Q := fun _ _ => True) (fun s m s' hp _ => hmove s m s' hp) hs
    (fun _ _ _ _ _ _ => trivial) h

/-- **What a run does not keep, a move breaks**: one without the property of all moves that keep
it. -/
theorem broken_by_move (hmove : ∀ s m s', P s → Q s m → move s m = some s' → P s') {s t : σ}
    {ms : List μ} (hs : P s) (h : follow move s ms = some t) (ht : ¬ P t) :
    ∃ earlier m later u, ms = earlier ++ m :: later ∧ follow move s earlier = some u ∧ ¬ Q u m := by
  by_contra hnone
  refine ht (follow_keeps_of hmove hs (fun earlier m later u hms hu => ?_) h)
  by_contra hq
  exact hnone ⟨earlier, m, later, u, hms, hu, hq⟩

/-- **Who breaks it, and who let them.** If only moves of one kind break a property, and none of
these can be made before a move of another kind, then both have been made where it is broken. -/
theorem broken_after {R : σ → Prop} {L : σ → μ → Prop} {O : μ → Prop}
    (hbreaks : ∀ s m s', P s → Q s m → ¬ L s m → move s m = some s' → P s')
    (hlets : ∀ s m s', P s → R s → Q s m → ¬ O m → move s m = some s' → R s')
    (hbars : ∀ s m, R s → ¬ L s m) {s t : σ} {ms : List μ} (hs : P s) (hr : R s)
    (hQ : Throughout move Q s ms) (h : follow move s ms = some t) (ht : ¬ P t) :
    ∃ earlier m later u, ms = earlier ++ m :: later ∧ follow move s earlier = some u ∧ L u m ∧
      ∃ n ∈ earlier, O n := by
  obtain ⟨earlier, m, later, u, rfl, hu, hm⟩ := broken_by_move (Q := fun u m => Q u m ∧ ¬ L u m)
    (fun s m s' hp hq hm => hbreaks s m s' hp hq.1 hq.2 hm) hs h ht
  have hl : L u m := by
    by_contra hl
    exact hm ⟨hQ earlier m later u rfl hu, hl⟩
  refine ⟨earlier, m, later, u, rfl, hu, hl, ?_⟩
  by_contra hnone
  have hend : P u ∧ R u := by
    refine follow_keeps_of (P := fun v => P v ∧ R v) (Q := fun v n => Q v n ∧ ¬ O n)
      (fun v n v' hp hq hn => ⟨hbreaks v n v' hp.1 hq.1 (hbars v n hp.2) hn,
        hlets v n v' hp.1 hp.2 hq.1 hq.2 hn⟩) ⟨hs, hr⟩ (fun start n rest v hstart hv => ?_) hu
    refine ⟨(throughout_append hu hQ).1 start n rest v hstart hv, fun ho => hnone ⟨n, ?_, ho⟩⟩
    rw [hstart]
    exact List.mem_append_right _ List.mem_cons_self
  exact hbars u m hend.2 hl

/-- **The last move of a kind** in a run, if there is one. -/
theorem last_or_throughout (Q : σ → μ → Prop) {s t : σ} {ms : List μ}
    (h : follow move s ms = some t) :
    Throughout move (fun u m => ¬ Q u m) s ms ∨
      ∃ earlier m later u u', ms = earlier ++ m :: later ∧ follow move s earlier = some u ∧ Q u m ∧
        move u m = some u' ∧ Throughout move (fun u m => ¬ Q u m) u' later := by
  induction ms generalizing s with
  | nil =>
    refine .inl fun earlier m later _ hms _ => ?_
    simp at hms
  | cons m rest ih =>
    obtain ⟨s', hm, hrest⟩ := follow_cons_eq_some h
    rcases ih hrest with hnone | ⟨earlier, n, later, u, u', rfl, hu, hq, hn, hlater⟩
    · by_cases hq : Q s m
      · exact .inr ⟨[], m, rest, s, s', rfl, rfl, hq, hm, hnone⟩
      · exact .inl (throughout_cons_of hq hm hnone)
    · exact .inr ⟨m :: earlier, n, later, u, u', rfl, (follow_cons hm).trans hu, hq, hn, hlater⟩

theorem follow_concat_eq_some {s t : σ} {m : μ} {ms : List μ}
    (h : follow move s (ms ++ [m]) = some t) :
    ∃ u, follow move s ms = some u ∧ move u m = some t := by
  induction ms generalizing s with
  | nil =>
    obtain ⟨u, hm, hu⟩ := follow_cons_eq_some h
    obtain rfl := Option.some.inj hu
    exact ⟨s, rfl, hm⟩
  | cons n rest ih =>
    obtain ⟨s', hn, hrest⟩ := follow_cons_eq_some h
    obtain ⟨u, hu, hm⟩ := ih hrest
    exact ⟨u, (follow_cons hn).trans hu, hm⟩

/-- **Where something comes from** that holds at the end of a run: it held at its beginning, or a
move of the run brought it about. -/
theorem held_or_arose {F : σ → μ → Prop} {N : σ → Prop}
    (hmove : ∀ s m s', P s → move s m = some s' → P s')
    (harise : ∀ s m s', P s → move s m = some s' → N s' → N s ∨ F s m) {s t : σ} {ms : List μ}
    (hs : P s) (h : follow move s ms = some t) (ht : N t) :
    N s ∨ ∃ earlier m later u, ms = earlier ++ m :: later ∧ follow move s earlier = some u ∧
      F u m := by
  induction ms using List.reverseRecOn generalizing t with
  | nil =>
    obtain rfl := Option.some.inj h
    exact .inl ht
  | append_singleton ms m ih =>
    obtain ⟨u, hu, hm⟩ := follow_concat_eq_some h
    rcases harise u m t (follow_keeps hmove hs hu) hm ht with hbefore | hf
    · rcases ih hu hbefore with hstart | ⟨earlier, n, later, v, rfl, hv, hf⟩
      · exact .inl hstart
      · exact .inr ⟨earlier, n, later ++ [m], v, by simp, hv, hf⟩
    · exact .inr ⟨ms, m, [], u, rfl, hu, hf⟩

/-! ### What lasts -/

/-- At every moment of a run, from its beginning to its end, something holds of the state. -/
def Lasting {σ μ : Type} (move : σ → μ → Option σ) (N : σ → Prop) (s : σ) (ms : List μ) : Prop :=
  ∀ between t, between <+: ms → follow move s between = some t → N t

section Lasting

variable {N : σ → Prop} {F : σ → μ → Prop}

theorem lasting_nil {s : σ} (h : N s) : Lasting move N s ([] : List μ) := by
  intro between t hpre ht
  rw [List.prefix_nil.mp hpre] at ht
  obtain rfl := Option.some.inj ht
  exact h

theorem lasting_concat {s t : σ} {ms : List μ} {m : μ} (hms : Lasting move N s ms)
    (h : follow move s (ms ++ [m]) = some t) (ht : N t) : Lasting move N s (ms ++ [m]) := by
  intro between u hpre hu
  rcases List.prefix_concat_iff.mp hpre with rfl | hpre
  · obtain rfl := Option.some.inj (h.symm.trans hu)
    exact ht
  · exact hms between u hpre hu

/-- **What every move keeps but for those of a kind** holds at the end of a run, or one of these
moves was made and `N` has lasted since, if it holds wherever `N` does not. -/
theorem holds_or_since (hrest : ∀ u, ¬ N u → P u) {s t : σ} {ms : List μ} (hs : P s)
    (hmoves : Throughout move (fun u m => ∀ u', move u m = some u' → P u → P u' ∨ F u m) s ms)
    (h : follow move s ms = some t) :
    P t ∨ ∃ earlier m later u u', ms = earlier ++ m :: later ∧ follow move s earlier = some u ∧
      F u m ∧ move u m = some u' ∧ Lasting move N u' later := by
  induction ms using List.reverseRecOn generalizing t with
  | nil =>
    obtain rfl := Option.some.inj h
    exact .inl hs
  | append_singleton ms m ih =>
    obtain ⟨u, hu, hm⟩ := follow_concat_eq_some h
    by_cases ht : N t
    · rcases ih (throughout_append hu hmoves).1 hu with
        hp | ⟨earlier, n, later, v, v', rfl, hv, hf, hn, hlasting⟩
      · rcases hmoves ms m [] u rfl hu t hm hp with hp' | hf
        · exact .inl hp'
        · exact .inr ⟨ms, m, [], u, t, rfl, hu, hf, hm, lasting_nil ht⟩
      · refine .inr ⟨earlier, n, later ++ [m], v, v', by simp, hv, hf, hn, ?_⟩
        refine lasting_concat hlasting ?_ ht
        rw [List.append_assoc, follow_append hv, List.cons_append, follow_cons hn] at h
        exact h
    · exact .inl (hrest t ht)

end Lasting

/-! ### Between two moments -/

section Between

variable {A F : σ → Prop} (hmove : ∀ s m s', P s → Q s m → move s m = some s' → P s')
  (harise : ∀ s m s', P s → move s m = some s' → A s' → A s ∨ F s)
include hmove harise

/-- On the way to a moment at which `A` holds, from one at which it does not, there is a moment at
which `F` holds. -/
theorem passes {s t : σ} {ms : List μ} (hs : P s) (hQ : Throughout move Q s ms) (hstart : ¬ A s)
    (h : follow move s ms = some t) (ht : A t) :
    ∃ between u, between <+: ms ∧ follow move s between = some u ∧ F u := by
  induction ms generalizing s with
  | nil =>
    obtain rfl := Option.some.inj h
    exact absurd ht hstart
  | cons m rest ih =>
    obtain ⟨s', hm, hrest⟩ := follow_cons_eq_some h
    obtain ⟨hq, hQrest⟩ := throughout_cons hm hQ
    by_cases hs' : A s'
    · rcases harise s m s' hs hm hs' with ha | hf
      · exact absurd ha hstart
      · exact ⟨[], s, List.nil_prefix, rfl, hf⟩
    · obtain ⟨between, u, hpre, hrun, hf⟩ := ih (hmove s m s' hs hq hm) hQrest hs' hrest
      exact ⟨m :: between, u, List.cons_prefix_cons.mpr ⟨rfl, hpre⟩,
        (follow_cons hm).trans hrun, hf⟩

/-- **Between two moments at which `A` holds**, if a move after the first one ends it, there is a
moment at which `F` holds. -/
theorem passes_between {s t₀ t : σ} {earlier later : List μ} {m : μ}
    (hends : ∀ s s', P s → A s → move s m = some s' → ¬ A s') (hs : P s)
    (hQ : Throughout move Q s (earlier ++ m :: later)) (h₀ : follow move s earlier = some t₀)
    (ht₀ : A t₀) (h : follow move s (earlier ++ m :: later) = some t) (ht : A t) :
    ∃ between u, between <+: later ∧ follow move s (earlier ++ m :: between) = some u ∧ F u := by
  obtain ⟨hQ₀, hQ₁⟩ := throughout_append h₀ hQ
  rw [follow_append h₀] at h
  obtain ⟨t₁, hm, hlater⟩ := follow_cons_eq_some h
  obtain ⟨hq, hQlater⟩ := throughout_cons hm hQ₁
  have hp₀ : P t₀ := follow_keeps_of hmove hs hQ₀ h₀
  obtain ⟨between, u, hpre, hrun, hf⟩ := passes hmove harise (hmove t₀ m t₁ hp₀ hq hm) hQlater
    (hends t₀ t₁ hp₀ ht₀ hm) hlater ht
  refine ⟨between, u, hpre, ?_, hf⟩
  rw [follow_append h₀, follow_cons hm]
  exact hrun

end Between

/-! ### Records of a run -/

/-- What the moves of a run put on record, the latest first. -/
def recorded {α : Type} (move : σ → μ → Option σ) (note : σ → μ → List α) : σ → List μ → List α
  | _, [] => []
  | s, m :: rest =>
    match move s m with
    | some s' => recorded move note s' rest ++ note s m
    | none => []

section Recorded

variable {α : Type} {note : σ → μ → List α}

theorem recorded_cons {s s' : σ} {m : μ} {rest : List μ} (h : move s m = some s') :
    recorded move note s (m :: rest) = recorded move note s' rest ++ note s m := by
  simp only [recorded, h]

/-- The record of a run that goes on after another one. -/
theorem recorded_append {s t : σ} {ms rest : List μ} (h : follow move s ms = some t) :
    recorded move note s (ms ++ rest) = recorded move note t rest ++ recorded move note s ms := by
  induction ms generalizing s with
  | nil =>
    obtain rfl := Option.some.inj h
    exact (List.append_nil _).symm
  | cons m ms ih =>
    obtain ⟨s', hm, hms⟩ := follow_cons_eq_some h
    rw [List.cons_append, recorded_cons hm, recorded_cons hm, ih hms, List.append_assoc]

/-- **What every move of a kind keeps of the state and the record**, every run of such moves
keeps. -/
theorem follow_records_of {I : σ → List α → Prop}
    (hmove : ∀ s m s' l, I s l → Q s m → move s m = some s' → I s' (note s m ++ l)) {s t : σ}
    {ms : List μ} (hs : I s []) (hQ : Throughout move Q s ms) (h : follow move s ms = some t) :
    I t (recorded move note s ms) := by
  induction ms using List.reverseRecOn generalizing t with
  | nil =>
    obtain rfl := Option.some.inj h
    exact hs
  | append_singleton ms m ih =>
    obtain ⟨u, hu, hm⟩ := follow_concat_eq_some h
    rw [recorded_append hu, recorded_cons hm]
    exact hmove u m t _ (ih (throughout_append hu hQ).1 hu) (hQ ms m [] u rfl hu) hm

/-- **What every move keeps of the state and the record, every run keeps.** -/
theorem follow_records {I : σ → List α → Prop}
    (hmove : ∀ s m s' l, I s l → move s m = some s' → I s' (note s m ++ l)) {s t : σ}
    {ms : List μ} (hs : I s []) (h : follow move s ms = some t) :
    I t (recorded move note s ms) :=
  follow_records_of (Q := fun _ _ => True) (fun s m s' l hi _ hm => hmove s m s' l hi hm) hs
    (fun _ _ _ _ _ _ => trivial) h

end Recorded

end Follow

end MailFetch

import MailFetch.Queue
import Mathlib.Tactic.Common

/-! # The queue: its two halves agree

The queue keeps the sort keys of its requests in order, and beside them the requests by attachment.
`Queue.Matched` says that the two halves belong together: the keys are in strict order, every key is
the key of the request that the index has for its attachment, and every request of the index has its
key among the keys and its attachment for its name.

* `Queue.Matched.push`, `Queue.Matched.drop`, `Queue.Matched.pop`: no operation breaks this.
* `Queue.get?_push`, `Queue.get?_drop`, `Queue.pop_cases`: what an operation does to the requests
  that wait. -/

namespace MailFetch

/-! ### The order of keys -/

namespace SortKey

theorem before_iff {a b : SortKey} :
    a.before b = true ↔ a.priority.rank < b.priority.rank ∨ a.priority.rank = b.priority.rank ∧
      (a.enqueuedAt < b.enqueuedAt ∨ a.enqueuedAt = b.enqueuedAt ∧ a.id < b.id) := by
  simp [before]

theorem before_trans {a b c : SortKey} (hab : a.before b = true) (hbc : b.before c = true) :
    a.before c = true := by
  rw [before_iff] at hab hbc ⊢
  omega

theorem not_before_self (a : SortKey) : ¬ a.before a = true := by
  rw [before_iff]
  omega

/-- Two keys of which neither comes first are the same. -/
theorem eq_of_not_before {a b : SortKey} (hab : ¬ a.before b = true) (hba : ¬ b.before a = true) :
    a = b := by
  rw [before_iff] at hab hba
  obtain ⟨p, t, i⟩ := a
  obtain ⟨p', t', i'⟩ := b
  simp only at hab hba
  have hp : p = p' := Priority.rank_injective (by omega)
  subst hp
  have ht : t = t' := by omega
  have hi : i = i' := by omega
  rw [ht, hi]

theorem mem_insertInto {k a : SortKey} {l : List SortKey} :
    a ∈ k.insertInto l ↔ a = k ∨ a ∈ l := by
  induction l with
  | nil => simp [insertInto]
  | cons b rest ih =>
    unfold insertInto
    split_ifs with hkb hbk
    · simp
    · rw [List.mem_cons, ih, List.mem_cons]
      exact ⟨fun h => by tauto, fun h => by tauto⟩
    · have hk : k = b := eq_of_not_before hkb hbk
      simp [hk]

theorem pairwise_insertInto {k : SortKey} {l : List SortKey}
    (hl : l.Pairwise fun a b => a.before b = true) :
    (k.insertInto l).Pairwise fun a b => a.before b = true := by
  induction l with
  | nil => simp [insertInto]
  | cons b rest ih =>
    obtain ⟨hb, hrest⟩ := List.pairwise_cons.mp hl
    unfold insertInto
    split_ifs with hkb hbk
    · refine List.pairwise_cons.mpr ⟨fun c hc => ?_, hl⟩
      rcases List.mem_cons.mp hc with rfl | hc
      · exact hkb
      · exact before_trans hkb (hb c hc)
    · refine List.pairwise_cons.mpr ⟨fun c hc => ?_, ih hrest⟩
      rcases mem_insertInto.mp hc with rfl | hc
      · exact hbk
      · exact hb c hc
    · exact hl

end SortKey

/-! ### The index -/

namespace Table

variable {α : Type}

theorem contains_eq_false_iff {t : Table α} {k : Int} : t.contains k = false ↔ t.get? k = none := by
  simp [contains]

theorem isEmpty_eq_false_iff {t : Table α} : t.isEmpty = false ↔ ∃ k v, t.get? k = some v := by
  rw [isEmpty, List.isEmpty_eq_false_iff_exists_mem]
  exact ⟨fun ⟨e, he⟩ => ⟨e.1, e.2, get?_eq_some_iff.mpr he⟩,
    fun ⟨k, v, h⟩ => ⟨(k, v), get?_eq_some_iff.mp h⟩⟩

end Table

namespace Queue

theorem contains_eq_false_iff {q : Queue} {id : Int} :
    q.contains id = false ↔ q.index.get? id = none := Table.contains_eq_false_iff

theorem contains_iff {q : Queue} {id : Int} :
    q.contains id = true ↔ ∃ r, q.index.get? id = some r := Table.contains_iff_exists

/-- A request joins only under a number that a record can have, and only where none waits yet. -/
theorem get?_push (q : Queue) (r : Request) (id : Int) :
    (q.push r).index.get? id =
      if id = r.id ∧ 0 ≤ r.id ∧ q.contains r.id = false then some r else q.index.get? id := by
  unfold push add
  by_cases hneg : r.id < 0
  · have hpos : ¬ 0 ≤ r.id := by omega
    simp [hneg, hpos]
  · have hpos : 0 ≤ r.id := by omega
    by_cases hin : q.index.contains r.id = true
    · simp [hneg, hin, contains]
    · simp [hneg, hin, hpos, contains]

theorem get?_drop (q : Queue) (id j : Int) :
    (q.drop id).index.get? j = if j = id then none else q.index.get? j := by
  unfold drop remove
  cases hq : q.index.get? id with
  | none =>
    split_ifs with hj
    · rw [hj]
      exact hq
    · rfl
  | some r => simp

theorem contains_push (q : Queue) (r : Request) (id : Int) :
    (q.push r).contains id = true ↔ q.contains id = true ∨ id = r.id ∧ 0 ≤ r.id := by
  rw [contains_iff, get?_push]
  split_ifs with h
  · exact ⟨fun _ => .inr ⟨h.1, h.2.1⟩, fun _ => ⟨r, rfl⟩⟩
  · rw [← contains_iff]
    refine ⟨.inl, fun hor => hor.elim (fun hq => hq) fun hid => ?_⟩
    rw [hid.1]
    by_contra hq
    exact h ⟨hid.1, hid.2, by simpa using hq⟩

theorem contains_drop (q : Queue) (id j : Int) :
    (q.drop id).contains j = true ↔ q.contains j = true ∧ j ≠ id := by
  rw [contains_iff, get?_drop]
  split_ifs with hj
  · simp [hj]
  · rw [← contains_iff]
    exact ⟨fun h => ⟨h, hj⟩, fun h => h.1⟩

/-- **The two halves of the queue agree.** -/
structure Matched (q : Queue) : Prop where
  sorted : q.order.Pairwise fun a b => a.before b = true
  keyed : ∀ k ∈ q.order, ∃ r, q.index.get? k.id = some r ∧ r.sortKey = k
  listed : ∀ id r, q.index.get? id = some r → r.id = id ∧ 0 ≤ id ∧ r.sortKey ∈ q.order

theorem matched_empty : Matched empty where
  sorted := .nil
  keyed := by simp [empty]
  listed := by simp [empty]

namespace Matched

variable {q : Queue}

theorem push (hq : q.Matched) (r : Request) : (q.push r).Matched := by
  by_cases hneg : r.id < 0
  · have : q.push r = q := by simp [Queue.push, add, hneg]
    rwa [this]
  by_cases hin : q.contains r.id = true
  · have : q.push r = q := by
      unfold Queue.contains at hin
      simp [Queue.push, add, hneg, hin]
    rwa [this]
  have hnew : q.contains r.id = false := by simpa using hin
  have horder : (q.push r).order = r.sortKey.insertInto q.order := by
    unfold Queue.contains at hnew
    simp [Queue.push, add, hneg, hnew]
  refine ⟨?_, fun k hk => ?_, fun id x hx => ?_⟩
  · rw [horder]
    exact SortKey.pairwise_insertInto hq.sorted
  · rw [horder] at hk
    rcases SortKey.mem_insertInto.mp hk with rfl | hk
    · exact ⟨r, by rw [get?_push]; exact if_pos ⟨rfl, by omega, hnew⟩, rfl⟩
    · obtain ⟨x, hx, hkey⟩ := hq.keyed k hk
      have hne : ¬ k.id = r.id := by
        rintro he
        rw [he, contains_eq_false_iff.mp hnew] at hx
        cases hx
      exact ⟨x, by rw [get?_push, if_neg (fun h => hne h.1)]; exact hx, hkey⟩
  · rw [get?_push] at hx
    rw [horder]
    split_ifs at hx with h
    · obtain rfl := Option.some.inj hx
      exact ⟨h.1.symm, by omega, SortKey.mem_insertInto.mpr (.inl rfl)⟩
    · obtain ⟨hid, hpos, hmem⟩ := hq.listed id x hx
      exact ⟨hid, hpos, SortKey.mem_insertInto.mpr (.inr hmem)⟩

/-- Taking a request and its key out of the two halves leaves them in agreement. -/
theorem without (hq : q.Matched) {r : Request} (hr : q.index.get? r.id = some r) {q' : Queue}
    (horder : ∀ k, k ∈ q'.order ↔ k ∈ q.order ∧ k ≠ r.sortKey)
    (hsorted : q'.order.Pairwise fun a b => a.before b = true)
    (hindex : q'.index = q.index.erase r.id) : q'.Matched := by
  refine ⟨hsorted, fun k hk => ?_, fun id x hx => ?_⟩
  · obtain ⟨hk, hne⟩ := (horder k).mp hk
    obtain ⟨x, hx, hkey⟩ := hq.keyed k hk
    have hid : ¬ k.id = r.id := by
      rintro he
      rw [he, hr] at hx
      obtain rfl := Option.some.inj hx
      exact hne hkey.symm
    exact ⟨x, by rw [hindex, Table.get?_erase, if_neg hid]; exact hx, hkey⟩
  · rw [hindex, Table.get?_erase] at hx
    split_ifs at hx with hid
    obtain ⟨hxid, hpos, hmem⟩ := hq.listed id x hx
    refine ⟨hxid, hpos, (horder _).mpr ⟨hmem, fun hkey => hid ?_⟩⟩
    have : x.sortKey.id = r.sortKey.id := by rw [hkey]
    exact hxid.symm.trans this

theorem drop (hq : q.Matched) (id : Int) : (q.drop id).Matched := by
  cases hr : q.index.get? id with
  | none =>
    have : q.drop id = q := by simp [Queue.drop, remove, hr]
    rwa [this]
  | some r =>
    obtain ⟨hid, -, -⟩ := hq.listed id r hr
    have hdrop : q.drop id = ⟨q.order.filter (· ≠ r.sortKey), q.index.erase id⟩ := by
      simp [Queue.drop, remove, hr]
    rw [hdrop]
    refine hq.without (r := r) (by rw [hid]; exact hr) (fun k => ?_) (hq.sorted.filter _) ?_
    · simp [List.mem_filter]
    · rw [hid]

end Matched

/-- **Taking the most urgent request** of a queue whose halves agree: either nothing waits, or the
request of the first key leaves. -/
theorem pop_cases {q : Queue} (hq : q.Matched) :
    (q.pop = (none, q) ∧ ∀ id, q.contains id = false) ∨
      ∃ r q', q.pop = (some r, q') ∧ q'.Matched ∧ q.index.get? r.id = some r ∧
        ∀ id, q'.index.get? id = if id = r.id then none else q.index.get? id := by
  unfold pop
  cases ho : q.order with
  | nil =>
    refine .inl ⟨rfl, fun id => contains_eq_false_iff.mpr ?_⟩
    cases hr : q.index.get? id with
    | none => rfl
    | some r =>
      have hmem := (hq.listed id r hr).2.2
      rw [ho] at hmem
      cases hmem
  | cons k rest =>
    have hsorted := hq.sorted
    rw [ho] at hsorted
    obtain ⟨hk, hrest⟩ := List.pairwise_cons.mp hsorted
    obtain ⟨r, hr, hkey⟩ := hq.keyed k (by simp [ho])
    have hid : r.id = k.id := by rw [← hkey]; rfl
    refine .inr ⟨r, ⟨rest, q.index.erase k.id⟩, ?_, ?_, by rw [hid]; exact hr, fun id => ?_⟩
    · simp only [hr]
    · refine hq.without (r := r) (by rw [hid]; exact hr) (fun k' => ?_) hrest (by rw [hid])
      rw [ho, hkey, List.mem_cons]
      refine ⟨fun h => ⟨.inr h, fun he => ?_⟩, fun h => h.1.resolve_left h.2⟩
      rw [he] at h
      exact SortKey.not_before_self k (hk k h)
    · simp only [Table.get?_erase, hid]

/-- The request that leaves comes before all that go on to wait. -/
theorem before_of_pop {q q' : Queue} (hq : q.Matched) {r y : Request} (h : q.pop = (some r, q'))
    (hy : q'.index.get? y.id = some y) : r.sortKey.before y.sortKey = true := by
  unfold pop at h
  cases ho : q.order with
  | nil => simp [ho] at h
  | cons k rest =>
    simp only [ho, Prod.mk.injEq] at h
    obtain ⟨hr, rfl⟩ := h
    have hsorted := hq.sorted
    rw [ho] at hsorted
    obtain ⟨x, hx, hkey⟩ := hq.keyed k (by simp [ho])
    obtain rfl : r = x := Option.some.inj (hr.symm.trans hx)
    rw [Table.get?_erase] at hy
    split_ifs at hy with hid
    have hmem := (hq.listed _ _ hy).2.2
    rw [ho] at hmem
    rcases List.mem_cons.mp hmem with heq | hmem
    · exact absurd (congrArg SortKey.id heq) hid
    · rw [hkey]
      exact (List.pairwise_cons.mp hsorted).1 _ hmem

/-- The requests are listed in the order of the keys. -/
theorem map_sortKey_toList {q : Queue} (hq : q.Matched) : q.toList.map (·.sortKey) = q.order := by
  have hall : ∀ l : List SortKey, (∀ k ∈ l, k ∈ q.order) →
      (l.filterMap fun k => q.index.get? k.id).map (·.sortKey) = l := by
    intro l
    induction l with
    | nil => exact fun _ => rfl
    | cons k rest ih =>
      intro hl
      obtain ⟨r, hr, hkey⟩ := hq.keyed k (hl k List.mem_cons_self)
      have hrest := ih fun k' hk' => hl k' (.tail _ hk')
      simp only [List.filterMap_cons, hr, List.map_cons, hkey, hrest]
  exact hall q.order fun _ hk => hk

theorem pairwise_toList {q : Queue} (hq : q.Matched) :
    q.toList.Pairwise fun a b => a.sortKey.before b.sortKey = true := by
  have hsorted := hq.sorted
  rwa [← map_sortKey_toList hq, List.pairwise_map] at hsorted

theorem mem_toList {q : Queue} (hq : q.Matched) {r : Request} :
    r ∈ q.toList ↔ q.index.get? r.id = some r := by
  unfold toList
  rw [List.mem_filterMap]
  constructor
  · rintro ⟨k, hk, hr⟩
    rw [(hq.listed _ _ hr).1]
    exact hr
  · intro hr
    exact ⟨r.sortKey, (hq.listed _ _ hr).2.2, hr⟩

end Queue

end MailFetch
